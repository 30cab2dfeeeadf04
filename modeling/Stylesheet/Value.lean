/-
Descriptor values.

* `Literal`: a text or a number, written into a stylesheet as it stands by `Literal.css`;
* `Value`: what stands under a key of a descriptor: nothing, a literal, a block of entries or a
  list;
* `Shape`: which of these a value is, the only thing an error message says of it;
* `Value.agrees`: equality of values as data, where numbers are compared as numbers, so that zero
  agrees with its negative and a number that is none agrees with nothing;
* `Value.weight`: the number of entries, items and values in a value, by which recursions end.
-/
import Stylesheet.Decimal.Shortest

namespace Stylesheet

/-! ### Literals -/

/-- A value that can stand on the right of a declaration. -/
inductive Literal where
  | text (content : String)
  | number (x : Float)

/-- A literal as it stands in a stylesheet: a text verbatim, a number in positional notation. -/
def Literal.css : Literal → String
  | .text content => content
  | .number x => Decimal.plain x

instance : BEq Literal where
  beq
    | .text s, .text t => s == t
    | .number x, .number y => x == y
    | _, _ => false

/-! ### Values -/

/-- What stands under a key of a descriptor. The entries of a block keep the order in which they
were put in. -/
inductive Value where
  /-- No value: the key counts as not written. -/
  | absent
  | literal (l : Literal)
  | block (entries : List (String × Value))
  | list (items : List Value)

/-- The shape of a value. -/
inductive Shape where
  | nothing
  | text
  | number
  | mapping
  | list
  deriving DecidableEq, Repr

/-- A shape as error messages name it. -/
def Shape.describe : Shape → String
  | .nothing => "nothing"
  | .text => "a string"
  | .number => "a number"
  | .mapping => "a mapping"
  | .list => "a list"

namespace Value

/-- The shape of a value. -/
def shape : Value → Shape
  | .absent => .nothing
  | .literal (.text _) => .text
  | .literal (.number _) => .number
  | .block _ => .mapping
  | .list _ => .list

/-- Whether there is no value. -/
def isAbsent : Value → Bool
  | .absent => true
  | _ => false

/-- The literal that a value is, if it is one. -/
def literal? : Value → Option Literal
  | .literal l => some l
  | _ => none

/-- The items of a list value. -/
def list? : Value → Option (List Value)
  | .list items => some items
  | _ => none

/-! ### Agreement -/

mutual

/-- Whether two values are the same data. The order of entries matters, and numbers are compared as
numbers. -/
def agrees : Value → Value → Bool
  | .absent, .absent => true
  | .literal l, .literal m => l == m
  | .block es, .block fs => agreesEntries es fs
  | .list vs, .list ws => agreesItems vs ws
  | _, _ => false

/-- Whether two sequences of entries have the same keys, and values that agree. -/
def agreesEntries : List (String × Value) → List (String × Value) → Bool
  | [], [] => true
  | (k, v) :: es, (l, w) :: fs => k == l && agrees v w && agreesEntries es fs
  | _, _ => false

/-- Whether two sequences of values agree item by item. -/
def agreesItems : List Value → List Value → Bool
  | [], [] => true
  | v :: vs, w :: ws => agrees v w && agreesItems vs ws
  | _, _ => false

end

/-! ### Weight -/

mutual

/-- The number of values, entries and items in a value. -/
def weight : Value → Nat
  | .absent => 1
  | .literal _ => 1
  | .block entries => 1 + weightEntries entries
  | .list items => 1 + weightItems items

/-- The weight of a sequence of entries. -/
def weightEntries : List (String × Value) → Nat
  | [] => 0
  | (_, v) :: es => 1 + weight v + weightEntries es

/-- The weight of a sequence of items. -/
def weightItems : List Value → Nat
  | [] => 0
  | v :: vs => 1 + weight v + weightItems vs

end

end Value

end Stylesheet
