/-
Reading undoes writing.

* `Json.Data`: what values that can be written are built from;
* `Data.value`, `Data.depth`, `Data.json`: its value, how deep its brackets are nested, and its
  text;
* `Json.readSequence_separated`: a reader of elements reads all elements between commas;
* `Data.readValue_json`: a value is read back, whatever comes after it;
* `Data.ofJson_json`: values and descriptors are read back from their texts.
-/
import Stylesheet.Proofs.InsertionOrder
import Stylesheet.Proofs.Json.Scalars

namespace Stylesheet.Json

/-! ### Writing -/

/-- What values that can be written are built from. Integers are those of 32 bits. -/
inductive Data where
  | null
  | text (s : String)
  | integer (n : Int32)
  | list (items : List Data)
  | mapping (entries : List (String × Data))

namespace Data

mutual

/-- The value that is built from some data. -/
def value : Data → Value
  | .null => .absent
  | .text s => .literal (.text s)
  | .integer n => .literal (.number (Float.ofInt n.toInt))
  | .list items => .list (valuesOf items)
  | .mapping entries => .block (entriesOf entries)

/-- The values of some items. -/
def valuesOf : List Data → List Value
  | [] => []
  | t :: rest => value t :: valuesOf rest

/-- The entries with the values of some fields. -/
def entriesOf : List (String × Data) → List (String × Value)
  | [] => []
  | (key, t) :: rest => (key, value t) :: entriesOf rest

end

mutual

/-- How deep the brackets of lists and mappings are nested. -/
def depth : Data → Nat
  | .list items => depthItems items + 1
  | .mapping entries => depthEntries entries + 1
  | _ => 0

/-- The depth of the deepest of some items. -/
def depthItems : List Data → Nat
  | [] => 0
  | t :: rest => max (depth t) (depthItems rest)

/-- The depth of the deepest value of some fields. -/
def depthEntries : List (String × Data) → Nat
  | [] => 0
  | (_, t) :: rest => max (depth t) (depthEntries rest)

end

mutual

/-- The text of some data: texts are escaped, integers are decimal, and entries keep their order. -/
def json : Data → String
  | .null => "null"
  | .text s => textOf s
  | .integer n => toString n.toInt
  | .list items => "[" ++ ",".intercalate (jsonItems items) ++ "]"
  | .mapping entries => "\x7b" ++ ",".intercalate (jsonEntries entries) ++ "\x7d"

/-- The texts of some items. -/
def jsonItems : List Data → List String
  | [] => []
  | t :: rest => json t :: jsonItems rest

/-- The texts of some fields. -/
def jsonEntries : List (String × Data) → List String
  | [] => []
  | (key, t) :: rest => (textOf key ++ ":" ++ json t) :: jsonEntries rest

end

/-- The text of a field. -/
def field (e : String × Data) : String :=
  textOf e.1 ++ ":" ++ e.2.json

lemma valuesOf_eq (items : List Data) : valuesOf items = items.map value := by
  induction items with
  | nil => rfl
  | cons t rest ih => rw [valuesOf, ih, List.map_cons]

lemma entriesOf_eq (entries : List (String × Data)) :
    entriesOf entries = entries.map fun e => (e.1, e.2.value) := by
  induction entries with
  | nil => rfl
  | cons e rest ih =>
    obtain ⟨key, t⟩ := e
    rw [entriesOf, ih, List.map_cons]

lemma jsonItems_eq (items : List Data) : jsonItems items = items.map json := by
  induction items with
  | nil => rfl
  | cons t rest ih => rw [jsonItems, ih, List.map_cons]

lemma jsonEntries_eq (entries : List (String × Data)) :
    jsonEntries entries = entries.map field := by
  induction entries with
  | nil => rfl
  | cons e rest ih =>
    obtain ⟨key, t⟩ := e
    rw [jsonEntries, ih, List.map_cons, field]

lemma depthItems_le {items : List Data} {n : Nat} :
    depthItems items ≤ n ↔ ∀ t ∈ items, t.depth ≤ n := by
  induction items with
  | nil => simp [depthItems]
  | cons t rest ih => rw [depthItems, Nat.max_le, ih, List.forall_mem_cons]

lemma depthEntries_le {entries : List (String × Data)} {n : Nat} :
    depthEntries entries ≤ n ↔ ∀ e ∈ entries, e.2.depth ≤ n := by
  induction entries with
  | nil => simp [depthEntries]
  | cons e rest ih =>
    obtain ⟨key, t⟩ := e
    rw [depthEntries, Nat.max_le, ih, List.forall_mem_cons]

end Data

/-! ### Sequences -/

/-- A text that starts with something else than space or a closing bracket. -/
def Starts (text : List Char) : Prop :=
  ∃ c rest, text = c :: rest ∧ isSpace c = false ∧ c ≠ ']' ∧ c ≠ '\x7d'

lemma skipSpace_cons {c : Char} (hc : isSpace c = false) (rest : List Char) :
    skipSpace (c :: rest) = c :: rest :=
  List.dropWhile_cons_of_neg (Bool.eq_false_iff.1 hc)

/-- Texts with commas between them, and one before the first unless it is the first of all. -/
def separated (first : Bool) : List (List Char) → List Char
  | [] => []
  | t :: rest => (if first then [] else [',']) ++ t ++ separated false rest

lemma intercalate_eq_separated (texts : List (List Char)) :
    [','].intercalate texts = separated true texts := by
  have hrest : ∀ (t : List Char) rest,
      [','].intercalate (t :: rest) = t ++ separated false rest := by
    intro t rest
    induction rest generalizing t with
    | nil => simp [separated]
    | cons u rest ih => rw [List.intercalate_cons_cons, ih u, separated]; simp
  cases texts with
  | nil => rfl
  | cons t rest => rw [hrest, separated]; rfl

/-- Whether elements can be read back from texts: each text starts an element, and the reader of
elements takes it up to its end. -/
def ReadsBack {α : Type} (element : List Char → Except Fault (α × List Char)) (text : List Char)
    (x : α) : Prop :=
  Starts text ∧ ∀ rest, Ends rest → element (text ++ rest) = .ok (x, rest)

variable {α : Type} {b : Brackets} {element : List Char → Except Fault (α × List Char)}

/-- The end of an element in a sequence: a comma or the closing bracket. -/
lemma ends_separated (hb : b = listBrackets ∨ b = objectBrackets) (texts : List (List Char))
    (rest : List Char) : Ends (separated false texts ++ b.close :: rest) := by
  intro c hc
  cases texts with
  | nil =>
    cases hc
    rcases hb with rfl | rfl
    · exact .inr (.inl rfl)
    · exact .inr (.inr rfl)
  | cons t texts =>
    cases hc
    exact .inl rfl

/-- Elements with commas between them are read one after another, up to the closing bracket. -/
lemma readSequence_separated (hb : b = listBrackets ∨ b = objectBrackets) {texts : List (List Char)}
    {xs : List α} (h : List.Forall₂ (ReadsBack element) texts xs) (first : Bool) {rounds : Nat}
    (hr : texts.length < rounds) (rest : List Char) :
    readSequence b element first rounds (separated first texts ++ b.close :: rest)
      = .ok (xs, rest) := by
  induction h generalizing first rounds with
  | nil =>
    obtain ⟨rounds, rfl⟩ := Nat.exists_eq_succ_of_ne_zero (Nat.ne_of_gt hr)
    rcases hb with rfl | rfl <;> cases first <;> rfl
  | @cons text x texts xs hx _ ih =>
    obtain ⟨rounds, rfl⟩ := Nat.exists_eq_succ_of_ne_zero (Nat.ne_of_gt (Nat.zero_lt_of_lt hr))
    obtain ⟨hstarts, hread⟩ := hx
    have helement := hread _ (ends_separated hb texts rest)
    have hnext := ih false (Nat.lt_of_succ_lt_succ hr)
    obtain ⟨c, inside, rfl, hc, hlist, hobject⟩ := hstarts
    have hclose : c ≠ b.close := by
      rcases hb with rfl | rfl
      · exact hlist
      · exact hobject
    have hcomma : ',' ≠ b.close := by
      rcases hb with rfl | rfl <;> decide
    rw [readSequence, separated, List.append_assoc, List.append_assoc]
    cases first with
    | true =>
      -- The text of the first element starts where the bracket ends.
      rw [if_pos rfl, List.nil_append, List.cons_append, skipSpace_cons hc]
      dsimp only
      rw [if_neg hclose]
      refine bind_eq_ok.2 ⟨_, rfl, ?_⟩
      exact bind_eq_ok.2 ⟨_, helement, bind_eq_ok.2 ⟨_, hnext, rfl⟩⟩
    | false =>
      have htext : nextElement b false ','
          (c :: inside ++ (separated false texts ++ b.close :: rest))
            = .ok (c :: inside ++ (separated false texts ++ b.close :: rest)) := by
        rw [List.cons_append, nextElement, if_neg Bool.false_ne_true, if_pos rfl,
          skipSpace_cons hc]
        exact if_neg hclose
      rw [if_neg Bool.false_ne_true, List.singleton_append, skipSpace_cons (c := ',') rfl]
      dsimp only
      rw [if_neg hcomma]
      refine bind_eq_ok.2 ⟨_, htext, ?_⟩
      exact bind_eq_ok.2 ⟨_, helement, bind_eq_ok.2 ⟨_, hnext, rfl⟩⟩

/-- Each text has at least one character. -/
lemma length_le_separated {texts : List (List Char)} {xs : List α}
    (h : List.Forall₂ (ReadsBack element) texts xs) (first : Bool) :
    texts.length ≤ (separated first texts).length := by
  induction h generalizing first with
  | nil => exact Nat.le_refl 0
  | cons hx _ ih =>
    obtain ⟨⟨c, inside, rfl, _⟩, _⟩ := hx
    have hle := ih false
    rw [separated, List.length_append, List.length_append, List.length_cons, List.length_cons]
    omega

/-- What stands between brackets is read back. -/
lemma readElements_intercalate (hb : b = listBrackets ∨ b = objectBrackets)
    {texts : List (List Char)} {xs : List α} (h : List.Forall₂ (ReadsBack element) texts xs)
    (rest : List Char) :
    readElements b element ([','].intercalate texts ++ b.close :: rest) = .ok (xs, rest) := by
  have hle := length_le_separated h true
  rw [readElements, intercalate_eq_separated]
  refine readSequence_separated hb h true ?_ rest
  rw [List.length_append]
  omega

/-- A text that is read to its end. -/
lemma readAll_eq_ok {read : List Char → Except Fault (α × List Char)} {source : String} {x : α}
    (h : read (source.toList ++ []) = .ok (x, [])) : readAll read source = .ok x := by
  rw [List.append_nil] at h
  exact bind_eq_ok.2 ⟨_, h, rfl⟩

/-! ### Scalars -/

lemma isSpace_of_isDigit {c : Char} (hc : c.isDigit = true) : isSpace c = false := by
  refine Bool.eq_false_iff.2 fun hspace => ?_
  simp only [isSpace, Bool.or_eq_true, beq_iff_eq] at hspace
  rcases hspace with ((rfl | rfl) | rfl) | rfl <;> cases hc

lemma readValue_of_readScalar {c : Char} {inside rest : List Char} {s : Scalar} {depth : Nat}
    (hc : isSpace c = false) (hlist : c ≠ '[') (hobject : c ≠ '\x7b')
    (h : readScalar (c :: inside) = .ok (s, rest)) :
    readValue depth (c :: inside) = .ok (s.value, rest) := by
  rw [readValue.eq_def]
  dsimp only
  rw [skipSpace_cons hc]
  split
  · rename_i heq
    exact absurd (List.cons.inj heq).1 hlist
  · rename_i heq
    exact absurd (List.cons.inj heq).1 hobject
  · exact bind_eq_ok.2 ⟨_, h, rfl⟩

/-- The first character of an integer: the sign or a digit. -/
lemma head_toString (n : Int) :
    ∃ c inside, (toString n).toList = c :: inside ∧ (c = '-' ∨ c.isDigit = true) := by
  rw [Int.toString_eq_repr, Int.repr_eq_if]
  split
  · obtain ⟨c, cs, hcs⟩ := List.exists_cons_of_ne_nil (Nat.toDigits_ne_nil (n := n.toNat) (b := 10))
    have hc : c.isDigit = true :=
      Nat.isDigit_of_mem_toDigits (by decide) (by decide) (hcs ▸ List.mem_cons_self)
    rw [Nat.toList_repr]
    exact ⟨c, cs, hcs, .inr hc⟩
  · rw [String.toList_append]
    exact ⟨'-', _, rfl, .inl rfl⟩

/-- A number starts with a sign or a digit, and no word and no text does. -/
lemma readScalar_of_readNumber {c : Char} {inside rest : List Char} {x : Number}
    (hc : c = '-' ∨ c.isDigit = true) (h : readNumber (c :: inside) = .ok (x, rest)) :
    readScalar (c :: inside) = .ok (.number x, rest) := by
  unfold readScalar
  split
  case h_1 heq => cases heq
  case h_6 heq =>
    cases heq
    rw [if_pos hc]
    exact bind_eq_ok.2 ⟨_, h, rfl⟩
  all_goals
    rename_i heq
    cases heq
    rcases hc with hc | hc <;> cases hc

namespace Data

variable {t : Data} {rest : List Char}

/-! ### Reading -/

lemma toList_list (items : List Data) (rest : List Char) :
    (json (.list items)).toList ++ rest
      = '[' :: ([','].intercalate (items.map fun t => t.json.toList) ++ ']' :: rest) := by
  rw [json, jsonItems_eq]
  simp [Function.comp_def]

lemma toList_mapping (entries : List (String × Data)) (rest : List Char) :
    (json (.mapping entries)).toList ++ rest
      = '\x7b'
        :: ([','].intercalate (entries.map fun e => (field e).toList) ++ '\x7d' :: rest) := by
  rw [json, jsonEntries_eq]
  simp [Function.comp_def]

/-- The text of a value starts with something else than space or a closing bracket. -/
lemma starts_json (t : Data) : Starts t.json.toList := by
  cases t with
  | null => exact ⟨'n', _, rfl, rfl, by decide, by decide⟩
  | text s => exact ⟨'"', _, toList_textOf s, rfl, by decide, by decide⟩
  | integer n =>
    obtain ⟨c, inside, hcs, hc⟩ := head_toString n.toInt
    refine ⟨c, inside, hcs, ?_, ?_, ?_⟩
    · rcases hc with rfl | hc
      · rfl
      · exact isSpace_of_isDigit hc
    · rintro rfl
      rcases hc with hc | hc <;> cases hc
    · rintro rfl
      rcases hc with hc | hc <;> cases hc
  | list items => exact ⟨'[', _, by simpa using toList_list items [], rfl, by decide, by decide⟩
  | mapping entries =>
    exact ⟨'\x7b', _, by simpa using toList_mapping entries [], rfl, by decide, by decide⟩

lemma starts_field (e : String × Data) : Starts (field e).toList := by
  refine ⟨'"', e.1.toList.flatMap escape ++ '"' :: ':' :: e.2.json.toList, ?_, rfl, by decide,
    by decide⟩
  rw [field, String.toList_append, String.toList_append, toList_textOf]
  simp

/-- A scalar is read back. -/
lemma readScalar_json (h : t.depth = 0) (hrest : Ends rest) :
    ∃ s : Scalar, readScalar (t.json.toList ++ rest) = .ok (s, rest) ∧ s.value = t.value := by
  cases t with
  | null => exact ⟨.null, rfl, rfl⟩
  | text s =>
    refine ⟨.text s, ?_, rfl⟩
    rw [json, toList_textOf, List.cons_append, List.append_assoc]
    refine bind_eq_ok.2 ⟨_, readText_escapes s.toList rest, ?_⟩
    dsimp only
    rw [String.ofList_toList]
  | integer n =>
    refine ⟨.number (.integer n.toInt), ?_, rfl⟩
    have hbits : Nat.pow 2 31 ≤ Nat.pow 2 63 := by decide
    have hlow : -(Nat.pow 2 31 : Int) ≤ n.toInt := n.le_toInt
    have hhigh : n.toInt < (Nat.pow 2 31 : Int) := n.toInt_lt
    have hread := readNumber_integer (n := n.toInt) (by omega) (by omega) hrest
    obtain ⟨c, inside, hcs, hc⟩ := head_toString n.toInt
    rw [hcs, List.cons_append] at hread
    rw [json, hcs, List.cons_append]
    exact readScalar_of_readNumber hc hread
  | list items => cases h
  | mapping entries => cases h

/-- The text of a scalar starts no list and no mapping. -/
lemma readValue_json_of_depth_eq_zero (h : t.depth = 0) (depth : Nat) (hrest : Ends rest) :
    readValue depth (t.json.toList ++ rest) = .ok (t.value, rest) := by
  obtain ⟨s, hs, hv⟩ := readScalar_json h hrest
  obtain ⟨c, inside, hcs, hspace, _⟩ := starts_json t
  rw [hcs, List.cons_append] at hs ⊢
  have hlist : c ≠ '[' := by
    rintro rfl
    cases hs
  have hobject : c ≠ '\x7b' := by
    rintro rfl
    cases hs
  rw [← hv]
  exact readValue_of_readScalar hspace hlist hobject hs

/-- A field is read back if its value is. -/
lemma readsBack_field {depth : Nat} {e : String × Data}
    (h : ∀ rest, Ends rest → readValue depth (e.2.json.toList ++ rest) = .ok (e.2.value, rest)) :
    ReadsBack (readEntry (readValue depth)) (field e).toList (e.1, e.2.value) := by
  refine ⟨starts_field e, fun rest hrest => ?_⟩
  have htext : (field e).toList ++ rest
      = '"' :: (e.1.toList.flatMap escape ++ '"' :: ':' :: (e.2.json.toList ++ rest)) := by
    rw [field, String.toList_append, String.toList_append, toList_textOf]
    simp
  rw [htext]
  refine bind_eq_ok.2 ⟨_, readText_escapes e.1.toList _, ?_⟩
  refine bind_eq_ok.2 ⟨_, rfl, ?_⟩
  refine bind_eq_ok.2 ⟨_, h rest hrest, ?_⟩
  dsimp only
  rw [String.ofList_toList]

lemma distinctKeys_mapping {entries : List (String × Data)} :
    (value (.mapping entries)).distinctKeys = true
      ↔ ((entriesOf entries).map (·.1)).Nodup ∧ ∀ e ∈ entries, e.2.value.distinctKeys = true := by
  rw [value, Value.distinctKeys, Bool.and_eq_true, decide_eq_true_eq, Value.distinctKeysEntries_iff,
    entriesOf_eq, List.forall_mem_map]

/-- A mapping has the entries of its text if its values are read back. -/
lemma spells_json {depth : Nat} {entries : List (String × Data)}
    (h : ∀ e ∈ entries, ∀ rest, Ends rest →
      readValue depth (e.2.json.toList ++ rest) = .ok (e.2.value, rest)) (rest : List Char) :
    Spells depth ((json (.mapping entries)).toList ++ rest) (entriesOf entries) rest := by
  have hback : List.Forall₂ (ReadsBack (readEntry (readValue depth)))
      (entries.map fun e => (field e).toList) (entriesOf entries) := by
    rw [entriesOf_eq, List.forall₂_map_left_iff, List.forall₂_map_right_iff, List.forall₂_same]
    exact fun e he => readsBack_field (h e he)
  rw [toList_mapping]
  exact ⟨_, skipSpace_cons rfl _, readElements_intercalate (.inr rfl) hback rest⟩

/-- A value is read back, whatever comes after it. The induction is on the number of brackets that
may be open, as the reader goes. -/
lemma readValue_json {depth : Nat} (h : t.depth ≤ depth) (hkeys : t.value.distinctKeys = true)
    (hrest : Ends rest) : readValue depth (t.json.toList ++ rest) = .ok (t.value, rest) := by
  induction depth generalizing t rest with
  | zero => exact readValue_json_of_depth_eq_zero (Nat.le_zero.1 h) 0 hrest
  | succ depth ih =>
    cases t with
    | list items =>
      rw [value, valuesOf_eq, Value.distinctKeys, Value.distinctKeysItems_iff,
        List.forall_mem_map] at hkeys
      have hdepth := depthItems_le.1 (Nat.le_of_succ_le_succ h)
      have hback : List.Forall₂ (ReadsBack (readValue depth))
          (items.map fun t => t.json.toList) (valuesOf items) := by
        rw [valuesOf_eq, List.forall₂_map_left_iff, List.forall₂_map_right_iff, List.forall₂_same]
        exact fun t ht => ⟨starts_json t, fun rest => ih (hdepth t ht) (hkeys t ht)⟩
      rw [toList_list, readValue, skipSpace_cons rfl]
      exact bind_eq_ok.2 ⟨_, readElements_intercalate (.inl rfl) hback rest, rfl⟩
    | mapping entries =>
      obtain ⟨hnodup, hkeys⟩ := distinctKeys_mapping.1 hkeys
      have hdepth := depthEntries_le.1 (Nat.le_of_succ_le_succ h)
      have hspells := spells_json (fun e he rest => ih (hdepth e he) (hkeys e he)) rest
      rw [hspells.readValue, Descriptor.ofList_of_nodup hnodup, value]
    | _ => exact readValue_json_of_depth_eq_zero rfl _ hrest

/-- **Reading undoes writing**: a value built from nothing, texts, integers of 32 bits, lists and
mappings without a key twice, with brackets at most 127 deep, is read back from its text, and so is
a descriptor. -/
theorem ofJson_json (t : Data) (hdepth : t.depth ≤ 127) (hkeys : t.value.distinctKeys = true) :
    Value.ofJson t.json = .ok t.value
      ∧ ∀ d, t.value.block? = some d → Descriptor.ofJson t.json = .ok d := by
  refine ⟨readAll_eq_ok (readValue_json hdepth hkeys ends_nil), fun d hd => ?_⟩
  cases t with
  | mapping entries =>
    obtain ⟨hnodup, hkeys⟩ := distinctKeys_mapping.1 hkeys
    have hdepth := depthEntries_le.1 (Nat.le_of_succ_le_succ hdepth)
    have hspells := spells_json (fun e he _ => readValue_json (hdepth e he) (hkeys e he)) []
    cases hd
    refine readAll_eq_ok ?_
    rw [hspells.readDescriptor, Descriptor.ofList_of_nodup hnodup]
  | _ => cases hd

/-- Escapes of each kind, the least integer, an empty key and brackets of both kinds. -/
def motley : Data :=
  .mapping
    [("a\"\\", .list [.null, .integer (-2147483648), .text "\x01\n\x7f\u2192", .list []]),
      ("", .mapping [("b", .integer 0), ("a", .mapping [])])]

/-- A mapping in which values of each kind are nested is read back. -/
theorem ofJson_json_motley :
    motley.json = "\x7b\"a\\\"\\\\\":[null,-2147483648,\"\\u0001\\n\x7f\u2192\",[]],"
        ++ "\"\":\x7b\"b\":0,\"a\":\x7b\x7d\x7d\x7d"
      ∧ Value.ofJson motley.json = .ok motley.value
      ∧ Descriptor.ofJson motley.json
        = .ok ⟨[("a\"\\", value (.list
            [.null, .integer (-2147483648), .text "\x01\n\x7f\u2192", .list []])),
          ("", .block [("b", .literal (.number (Float.ofInt 0))), ("a", .block [])])]⟩ := by
  obtain ⟨hvalue, hdescriptor⟩ := ofJson_json motley (by decide +kernel) (by decide +kernel)
  exact ⟨by decide +kernel, hvalue, hdescriptor _ rfl⟩

end Data

end Stylesheet.Json
