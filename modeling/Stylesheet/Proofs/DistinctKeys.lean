/-
Descriptors without a key twice.

* `Value.distinctKeys`, `Descriptor.distinctKeys`: no mapping in a value or a descriptor, at any
  depth, has a key twice;
* `Descriptor.distinctKeys_insert`, `distinctKeys_merge`: insertions keep keys distinct;
* `Json.distinctKeys_of_readValue`, `Descriptor.distinctKeys_of_ofJson`: what is read from a text
  has no key twice, even where the text repeats one.
-/
import Mathlib.Data.List.Nodup
import Stylesheet.Json.Reader
import Stylesheet.Proofs.Payload.Classification

namespace Stylesheet

/-! ### Values -/

namespace Value

mutual

/-- Whether no mapping in a value has a key twice. -/
def distinctKeys : Value → Bool
  | .absent => true
  | .literal _ => true
  | .block entries => decide (entries.map (·.1)).Nodup && distinctKeysEntries entries
  | .list items => distinctKeysItems items

/-- Whether no mapping in the values of some entries has a key twice. -/
def distinctKeysEntries : List (String × Value) → Bool
  | [] => true
  | (_, v) :: es => distinctKeys v && distinctKeysEntries es

/-- Whether no mapping in some values has a key twice. -/
def distinctKeysItems : List Value → Bool
  | [] => true
  | v :: vs => distinctKeys v && distinctKeysItems vs

end

lemma distinctKeysEntries_iff {entries : List (String × Value)} :
    distinctKeysEntries entries = true ↔ ∀ e ∈ entries, e.2.distinctKeys = true := by
  induction entries with
  | nil => exact iff_of_true rfl (List.forall_mem_nil _)
  | cons e es ih => rw [distinctKeysEntries, Bool.and_eq_true, ih, List.forall_mem_cons]

lemma distinctKeysItems_iff {items : List Value} :
    distinctKeysItems items = true ↔ ∀ v ∈ items, v.distinctKeys = true := by
  induction items with
  | nil => exact iff_of_true rfl (List.forall_mem_nil _)
  | cons v vs ih => rw [distinctKeysItems, Bool.and_eq_true, ih, List.forall_mem_cons]

end Value

namespace Descriptor

/-- Whether no mapping in a descriptor, itself included, has a key twice. -/
def distinctKeys (d : Descriptor) : Bool :=
  decide d.keys.Nodup && Value.distinctKeysEntries d.entries

variable {d : Descriptor}

lemma distinctKeys_iff :
    d.distinctKeys = true ↔ d.keys.Nodup ∧ ∀ e ∈ d.entries, e.2.distinctKeys = true := by
  rw [distinctKeys, Bool.and_eq_true, decide_eq_true_eq, Value.distinctKeysEntries_iff]

lemma nodup_keys (h : d.distinctKeys = true) : d.keys.Nodup :=
  (distinctKeys_iff.1 h).1

lemma distinctKeys_of_mem (h : d.distinctKeys = true) {e : String × Value} (he : e ∈ d.entries) :
    e.2.distinctKeys = true :=
  (distinctKeys_iff.1 h).2 e he

lemma distinctKeys_of_get? (h : d.distinctKeys = true) {key : String} {v : Value}
    (hv : d.get? key = some v) : v.distinctKeys = true := by
  obtain ⟨before, after, he, _⟩ := List.lookup_eq_some_iff.1 hv
  exact distinctKeys_of_mem h (e := (key, v)) (he ▸ List.mem_append_right _ List.mem_cons_self)

end Descriptor

namespace Value

variable {v item : Value}

lemma distinctKeys_of_block? {body : Descriptor} (hv : v.distinctKeys = true)
    (hb : v.block? = some body) : body.distinctKeys = true := by
  rw [block?_eq_some.1 hb] at hv
  exact hv

lemma distinctKeys_of_mem_list? {items : List Value} (hv : v.distinctKeys = true)
    (hl : v.list? = some items) (hm : item ∈ items) : item.distinctKeys = true := by
  rw [list?_eq_some.1 hl] at hv
  exact distinctKeysItems_iff.1 hv item hm

end Value

/-! ### Insertion -/

namespace Descriptor

variable {d : Descriptor}

lemma mem_insertEntry {key : String} {value : Value} {entries : List (String × Value)}
    {e : String × Value} (h : e ∈ insertEntry key value entries) :
    e = (key, value) ∨ e ∈ entries := by
  induction entries with
  | nil => exact .inl (List.mem_singleton.1 h)
  | cons first rest ih =>
    obtain ⟨k, v⟩ := first
    rw [insertEntry] at h
    split at h
    · exact (List.mem_cons.1 h).imp_right (List.mem_cons_of_mem _)
    · rcases List.mem_cons.1 h with rfl | h
      · exact .inr List.mem_cons_self
      · exact (ih h).imp_right (List.mem_cons_of_mem _)

lemma distinctKeys_insert (h : d.distinctKeys = true) (key : String) {value : Value}
    (hv : value.distinctKeys = true) : (d.insert key value).distinctKeys = true := by
  refine distinctKeys_iff.2 ⟨?_, fun e he => ?_⟩
  · rw [keys_insert]
    split
    · exact nodup_keys h
    · rename_i hk
      exact List.nodup_append.2 ⟨nodup_keys h, List.nodup_singleton key, fun k hm l hl hkl =>
        hk (List.mem_singleton.1 hl ▸ hkl ▸ hm)⟩
  · rcases mem_insertEntry he with rfl | he
    · exact hv
    · exact distinctKeys_of_mem h he

lemma distinctKeys_merge (h : d.distinctKeys = true) {entries : List (String × Value)}
    (hv : ∀ e ∈ entries, e.2.distinctKeys = true) : (d.merge ⟨entries⟩).distinctKeys = true := by
  induction entries generalizing d with
  | nil => exact h
  | cons e es ih =>
    obtain ⟨he, hes⟩ := List.forall_mem_cons.1 hv
    exact ih (distinctKeys_insert h e.1 he) hes

lemma distinctKeys_ofList {entries : List (String × Value)}
    (hv : ∀ e ∈ entries, e.2.distinctKeys = true) : (ofList entries).distinctKeys = true :=
  distinctKeys_merge (d := empty) rfl hv

end Descriptor

/-! ### Reading -/

namespace Json

/-- What holds of every element holds of all elements of a sequence. -/
lemma forall_mem_of_readSequence {α : Type} {P : α → Prop} {b : Brackets}
    {element : List Char → Except Fault (α × List Char)} {rest : List Char}
    (he : ∀ {text x rest}, element text = .ok (x, rest) → P x) {first : Bool} {rounds : Nat}
    {text : List Char} {xs : List α}
    (h : readSequence b element first rounds text = .ok (xs, rest)) :
    ∀ x ∈ xs, P x := by
  induction rounds generalizing first text xs with
  | zero => cases h
  | succ rounds ih =>
    rw [readSequence] at h
    split at h
    · cases h
    · split at h
      · cases h
        exact List.forall_mem_nil _
      · obtain ⟨text', _, h⟩ := bind_eq_ok.1 h
        obtain ⟨⟨x, rest'⟩, hx, h⟩ := bind_eq_ok.1 h
        obtain ⟨⟨ys, rest''⟩, hys, h⟩ := bind_eq_ok.1 h
        cases h
        exact List.forall_mem_cons.2 ⟨he hx, ih hys⟩

lemma of_readEntry {P : Value → Prop} {value : List Char → Except Fault (Value × List Char)}
    (hv : ∀ {text v rest}, value text = .ok (v, rest) → P v) {text rest : List Char}
    {e : String × Value} (h : readEntry value text = .ok (e, rest)) : P e.2 := by
  unfold readEntry at h
  split at h
  · obtain ⟨⟨cs, rest₁⟩, _, h⟩ := bind_eq_ok.1 h
    obtain ⟨rest₂, _, h⟩ := bind_eq_ok.1 h
    obtain ⟨⟨v, rest₃⟩, hr, h⟩ := bind_eq_ok.1 h
    cases h
    exact hv hr
  · cases h

/-- A value that is read has no key twice. -/
lemma distinctKeys_of_readValue {depth : Nat} {text rest : List Char} {v : Value}
    (h : readValue depth text = .ok (v, rest)) : v.distinctKeys = true := by
  induction depth generalizing text rest v with
  | zero =>
    rw [readValue] at h
    split at h
    · cases h
    · cases h
    · obtain ⟨⟨s, rest'⟩, _, h⟩ := bind_eq_ok.1 h
      cases h
      cases s <;> rfl
  | succ depth ih =>
    rw [readValue] at h
    split at h
    · obtain ⟨⟨items, rest'⟩, hi, h⟩ := bind_eq_ok.1 h
      cases h
      exact Value.distinctKeysItems_iff.2 (forall_mem_of_readSequence ih hi)
    · obtain ⟨⟨entries, rest'⟩, he, h⟩ := bind_eq_ok.1 h
      cases h
      exact Descriptor.distinctKeys_ofList (forall_mem_of_readSequence (of_readEntry ih) he)
    · obtain ⟨⟨s, rest'⟩, _, h⟩ := bind_eq_ok.1 h
      cases h
      cases s <;> rfl

end Json

/-- The descriptor of a text has no key twice. -/
lemma Descriptor.distinctKeys_of_ofJson {source : String} {d : Descriptor}
    (h : ofJson source = .ok d) : d.distinctKeys = true := by
  obtain ⟨⟨d', rest⟩, hr, h⟩ := bind_eq_ok.1 h
  dsimp only at h
  split at h
  · cases h
    rw [Json.readDescriptor] at hr
    split at hr
    · obtain ⟨⟨entries, rest'⟩, he, hr⟩ := bind_eq_ok.1 hr
      cases hr
      exact distinctKeys_ofList
        (Json.forall_mem_of_readSequence (Json.of_readEntry Json.distinctKeys_of_readValue) he)
    · cases hr
    · obtain ⟨s, _, hr⟩ := bind_eq_ok.1 hr
      cases hr
  · cases h

end Stylesheet
