/-
Seeds: how the names of rules become class names.

* `Seed`: names as they are, names encoded behind a key, or names under a given function;
* `Seed.apply`: the class name of a rule;
* `Seed.ofKey?`, `Seed.classOf`: the seed of a key that may be missing, and a class name under it;
* `Seed.describe`: a seed in messages.
-/
import Stylesheet.Text.Base64
import Stylesheet.Text.Quoted

namespace Stylesheet

/-- How the names of rules become class names. -/
inductive Seed where
  /-- Names are used as they are written. -/
  | identity
  /-- The key and the name, one after the other, are encoded in base64. -/
  | keyed (key : String)
  /-- Names are taken through a function. -/
  | custom (rename : String → String)

namespace Seed

/-- The class name of a rule. -/
def apply : Seed → String → String
  | .identity, name => name
  | .keyed key, name => Base64.encodeText (key ++ name)
  | .custom rename, name => rename name

/-- The seed of a key. Without a key, names are used as they are; the empty key is a key. -/
def ofKey? : Option String → Seed
  | none => .identity
  | some key => .keyed key

/-- The class name of a rule under a key that may be missing. No sheet is asked for it. -/
def classOf (key : Option String) (name : String) : String :=
  (ofKey? key).apply name

/-- A seed as messages show it. A function is not shown. -/
def describe : Seed → String
  | .identity => "Identity"
  | .keyed key => "Prefix(" ++ Text.quoted key ++ ")"
  | .custom _ => "Custom(..)"

/-- The function from names to class names, as messages show it, whatever the seed is. -/
def functionText : String := "SeedFn(..)"

end Seed

end Stylesheet
