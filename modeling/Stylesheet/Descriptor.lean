/-
Descriptors: mappings that remember the order of their keys.

* `Descriptor.insert`: a new key goes to the end, an old one keeps its place and takes the new
  value;
* `Descriptor.get?`, `contains`, `keys`, `size`: the map as its readers see it;
* `Descriptor.ofList`, `Descriptor.merge`: insertion of many entries, one after another;
* `Descriptor.keys_insert`, `Descriptor.get?_insert`: what an insertion changes.
-/
import Stylesheet.Value

namespace Stylesheet

/-- A mapping of keys to values, in the order in which the keys were first put in. -/
structure Descriptor where
  entries : List (String × Value) := []

namespace Descriptor

/-- The descriptor without entries. -/
def empty : Descriptor := {}

/-- Puts a value under a key of a sequence of entries. -/
def insertEntry (key : String) (value : Value) : List (String × Value) → List (String × Value)
  | [] => [(key, value)]
  | (k, v) :: rest =>
    if k = key then (key, value) :: rest else (k, v) :: insertEntry key value rest

/-- Puts a value under a key. A key that is there already keeps its place. -/
def insert (d : Descriptor) (key : String) (value : Value) : Descriptor :=
  ⟨insertEntry key value d.entries⟩

/-- The value under a key. -/
def get? (d : Descriptor) (key : String) : Option Value :=
  d.entries.lookup key

/-- Whether a key was put in, be it without a value. -/
def contains (d : Descriptor) (key : String) : Bool :=
  (d.get? key).isSome

/-- The keys, in the order of their first insertion. -/
def keys (d : Descriptor) : List String :=
  d.entries.map (·.1)

/-- The number of keys. -/
def size (d : Descriptor) : Nat :=
  d.entries.length

/-- Whether there are no keys. -/
def isEmpty (d : Descriptor) : Bool :=
  d.entries.isEmpty

/-- Puts in the entries of another descriptor, one after another. -/
def merge (d other : Descriptor) : Descriptor :=
  other.entries.foldl (fun acc e => acc.insert e.1 e.2) d

/-- Puts in the given entries, one after another. -/
def ofList (entries : List (String × Value)) : Descriptor :=
  empty.merge ⟨entries⟩

/-- The literal under a key. -/
def literal? (d : Descriptor) (key : String) : Option Literal :=
  (d.get? key).bind Value.literal?

instance : BEq Descriptor where
  beq d e := Value.agreesEntries d.entries e.entries

/-- The weight of a descriptor is that of its entries. -/
def weight (d : Descriptor) : Nat :=
  Value.weightEntries d.entries

/-! ### Insertion -/

/-- A key that is new goes to the end; one that is there keeps its place. -/
theorem map_fst_insertEntry (key : String) (value : Value) (entries : List (String × Value)) :
    (insertEntry key value entries).map (·.1)
      = if key ∈ entries.map (·.1) then entries.map (·.1) else entries.map (·.1) ++ [key] := by
  induction entries with
  | nil => simp [insertEntry]
  | cons e es ih =>
    obtain ⟨k, v⟩ := e
    rw [insertEntry]
    by_cases h : k = key
    · simp [h]
    · by_cases hm : key ∈ es.map (·.1)
      · simp_all
      · simp_all [Ne.symm h]

/-- The keys after an insertion. -/
theorem keys_insert (d : Descriptor) (key : String) (value : Value) :
    (d.insert key value).keys = if key ∈ d.keys then d.keys else d.keys ++ [key] :=
  map_fst_insertEntry key value d.entries

/-- Insertion changes what stands under its key, and nothing else. -/
theorem lookup_insertEntry (key k : String) (value : Value) (entries : List (String × Value)) :
    (insertEntry key value entries).lookup k
      = if k = key then some value else entries.lookup k := by
  induction entries with
  | nil =>
    by_cases h : k = key
    · simp [insertEntry, h]
    · simp [insertEntry, List.lookup_cons, beq_eq_false_iff_ne.2 h, h]
  | cons e es ih =>
    obtain ⟨l, v⟩ := e
    rw [insertEntry]
    by_cases hl : l = key
    · by_cases h : k = key
      · simp [hl, h]
      · simp [List.lookup_cons, hl, beq_eq_false_iff_ne.2 h, h]
    · by_cases h : k = l
      · simp [hl, h]
      · simp [List.lookup_cons, hl, beq_eq_false_iff_ne.2 h, ih]

/-- The value under a key after an insertion. -/
theorem get?_insert (d : Descriptor) (key k : String) (value : Value) :
    (d.insert key value).get? k = if k = key then some value else d.get? k :=
  lookup_insertEntry key k value d.entries

end Descriptor

/-- The descriptor that a value is, if it is a block. -/
def Value.block? : Value → Option Descriptor
  | .block entries => some ⟨entries⟩
  | _ => none

end Stylesheet
