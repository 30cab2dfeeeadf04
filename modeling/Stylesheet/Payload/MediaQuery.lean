/-
Media queries.

* `MediaQuery`: features and the body that holds under them;
* `MediaQuery.target`: the prelude of the block, the same for every order of the features;
* `MediaQuery.read`, `MediaQuery.readList`: queries from descriptor values.
-/
import Stylesheet.Descriptor
import Stylesheet.Payload.Items

namespace Stylesheet

/-- Features, in the order in which they were written, and a body of declarations that holds where
the features do. -/
structure MediaQuery where
  features : List (String × String)
  css : Descriptor

namespace MediaQuery

/-! ### Preludes -/

/-- One feature as a condition. An empty value marks a feature that is only named. -/
def condition (feature : String × String) : String :=
  if feature.2.isEmpty then "(" ++ feature.1 ++ ")"
  else "(" ++ feature.1 ++ ":" ++ feature.2 ++ ")"

/-- Features in the order of their names, by code points. Features of one name keep their order. -/
def sorted (features : List (String × String)) : List (String × String) :=
  features.mergeSort fun f g => decide (f.1 ≤ g.1)

/-- The prelude of a media block with the given features. -/
def prelude (features : List (String × String)) : String :=
  "@media " ++ " and ".intercalate ((sorted features).map condition)

/-- The prelude of the block in which the body of a query goes. -/
def target (q : MediaQuery) : String :=
  prelude q.features

/-! ### Reading -/

/-- The key that holds the body of a query. -/
def cssKey : String := "css"

/-- Reads the entries of a query after some features and, if there was one, a body. -/
def readEntries (path : String) (features : List (String × String)) (css : Option Descriptor) :
    List (String × Value) → Except Payload.Fault MediaQuery
  | [] =>
    match css with
    | some body => .ok ⟨features, body⟩
    | none => .error ⟨path, .queryWithoutCss⟩
  | (key, value) :: rest =>
    if key = cssKey then
      match value.block? with
      | some body => readEntries path features (some body) rest
      | none => .error ⟨Path.field path key, .misshapen .ruleBody value.shape⟩
    else
      match value with
      | .absent => readEntries path features css rest
      | .literal l => readEntries path (features ++ [(key, l.css)]) css rest
      | other => .error ⟨Path.field path key, .featureNotLiteral other.shape⟩

/-- Reads a query from a value: every key but `css` is a feature. -/
def read (value : Value) (path : String) : Except Payload.Fault MediaQuery :=
  match value.block? with
  | some entry => readEntries path [] none entry.entries
  | none => .error ⟨path, .misshapen .mediaQuery value.shape⟩

/-- Reads a list of queries. -/
def readList : Value → String → Except Payload.Fault (List MediaQuery) :=
  Payload.readList .mediaList read

/-! ### Weight -/

/-- The body that was read last is one of the entries, or was there before. -/
theorem weight_css_of_readEntries {path : String} {features : List (String × String)}
    {css : Option Descriptor} {entries : List (String × Value)} {q : MediaQuery}
    (h : readEntries path features css entries = .ok q) :
    css = some q.css ∨ q.css.weight + 2 ≤ Value.weightEntries entries := by
  induction entries generalizing features css with
  | nil =>
    cases css with
    | none => cases h
    | some body => cases h; exact .inl rfl
  | cons e rest ih =>
    obtain ⟨key, value⟩ := e
    rw [Value.weightEntries]
    by_cases hk : key = cssKey
    · cases value with
      | block entries =>
        simp only [readEntries, hk, if_true, Value.block?] at h
        rcases ih h with hc | hc
        · rw [← Option.some.inj hc]
          simp only [Descriptor.weight, Value.weight]
          omega
        · omega
      | _ => simp [readEntries, hk, Value.block?] at h
    · cases value with
      | absent =>
        simp only [readEntries, hk, if_false] at h
        exact (ih h).imp_right (by omega)
      | literal l =>
        simp only [readEntries, hk, if_false] at h
        exact (ih h).imp_right (by omega)
      | _ => simp [readEntries, hk] at h

/-- The body of a query weighs less than the value it was read from. -/
theorem weight_css_of_read {value : Value} {path : String} {q : MediaQuery}
    (h : read value path = .ok q) : q.css.weight + 2 ≤ value.weight := by
  cases value with
  | block entries =>
    rcases weight_css_of_readEntries h with hc | hc
    · cases hc
    · simp only [Value.weight]
      exact Nat.le_add_left_of_le hc
  | _ => cases h

end MediaQuery

end Stylesheet
