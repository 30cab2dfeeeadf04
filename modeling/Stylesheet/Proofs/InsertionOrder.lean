/-
Descriptors as maps that keep the order of insertion.

* `eraseDups_filter`: filtering and dropping repetitions can be done in any order;
* `Descriptor.keys_merge`, `get?_merge`: what a merge changes, seen from outside;
* `Descriptor.merge_of_disjoint`: descriptors without common keys are put one after the other;
* `Json.Spells`: a text starts with an object, with its entries as they are written;
* `Descriptor.Made`: the ways in which descriptors are made, each with the insertions that it stands
  for;
* `Descriptor.Reflects`: the keys and the values of a descriptor are those of some insertions;
* `Descriptor.map_of_made`: however a descriptor was made, it is the map of its insertions.
-/
import Mathlib.Data.Finset.Dedup
import Mathlib.Data.Finset.Card
import Stylesheet.Proofs.DistinctKeys

namespace Stylesheet

/-! ### Lists without repetitions -/

lemma nodup_eraseDups {α : Type} [DecidableEq α] (l : List α) : l.eraseDups.Nodup := by
  match l with
  | [] => exact List.nodup_nil
  | a :: as =>
    rw [List.eraseDups_cons, List.nodup_cons, List.mem_eraseDups]
    have hlt : (as.filter fun b => !b == a).length < as.length + 1 :=
      Nat.lt_succ_of_le (List.length_filter_le _ as)
    exact ⟨by simp, nodup_eraseDups _⟩
termination_by l.length

/-- Where nothing is repeated, nothing is dropped. -/
lemma eraseDups_of_nodup {α : Type} [DecidableEq α] {l : List α} (h : l.Nodup) :
    l.eraseDups = l := by
  induction l with
  | nil => rfl
  | cons a as ih =>
    obtain ⟨ha, has⟩ := List.nodup_cons.1 h
    have hne : ∀ b ∈ as, (!b == a) = true := fun b hb => by
      simpa using fun heq : b = a => ha (heq ▸ hb)
    rw [List.eraseDups_cons, List.filter_eq_self.2 hne, ih has]

/-- Repetitions can be dropped before a filter or after it. -/
lemma eraseDups_filter {α : Type} [DecidableEq α] (p : α → Bool) (l : List α) :
    (l.filter p).eraseDups = l.eraseDups.filter p := by
  match l with
  | [] => rfl
  | a :: as =>
    have hlt : (as.filter fun b => !b == a).length < as.length + 1 :=
      Nat.lt_succ_of_le (List.length_filter_le _ as)
    rw [List.eraseDups_cons, List.filter_cons, List.filter_cons, ← eraseDups_filter p (as.filter _)]
    by_cases ha : p a = true
    · rw [if_pos ha, if_pos ha, List.eraseDups_cons, List.filter_comm]
    · have hne : ∀ b ∈ as.filter p, (!b == a) = true := by
        intro b hb
        have hpb := (List.mem_filter.1 hb).2
        simp only [Bool.not_eq_true', beq_eq_false_iff_ne]
        rintro rfl
        exact ha hpb
      rw [if_neg ha, if_neg ha, List.filter_comm, List.filter_eq_self.2 hne]
termination_by l.length

namespace Descriptor

variable {d e : Descriptor} {key : String}

/-! ### Merging -/

/-- Insertions one after another, as a merge. -/
lemma merge_cons (d : Descriptor) (first : String × Value) (rest : List (String × Value)) :
    d.merge ⟨first :: rest⟩ = (d.insert first.1 first.2).merge ⟨rest⟩ := rfl

/-- New keys go to the end, each once, in the order in which they are first put in. -/
lemma keys_merge (d e : Descriptor) :
    (d.merge e).keys = d.keys ++ (e.keys.removeAll d.keys).eraseDups := by
  obtain ⟨entries⟩ := e
  induction entries generalizing d with
  | nil => exact (List.append_nil _).symm
  | cons first rest ih =>
    obtain ⟨key, value⟩ := first
    have hkeys : keys ⟨(key, value) :: rest⟩ = key :: keys ⟨rest⟩ := rfl
    rw [merge_cons, ih, keys_insert, hkeys, List.cons_removeAll]
    by_cases hm : key ∈ d.keys
    · rw [if_pos hm, if_neg (by simpa using hm)]
    · have hsplit : (keys ⟨rest⟩).removeAll (d.keys ++ [key])
          = ((keys ⟨rest⟩).removeAll d.keys).filter fun k => !k == key := by
        simp only [List.removeAll, List.filter_filter]
        refine List.filter_congr fun k _ => ?_
        simp [List.elem_eq_contains, Bool.and_comm, Bool.beq_eq_decide_eq]
      rw [if_neg hm, if_pos (by simpa using hm), List.eraseDups_cons, hsplit, List.append_assoc,
        List.singleton_append]

/-- The last insertion of a key decides, and the value before if there is none. -/
lemma get?_merge (d e : Descriptor) (key : String) :
    (d.merge e).get? key = (e.entries.reverse.lookup key).or (d.get? key) := by
  obtain ⟨entries⟩ := e
  induction entries generalizing d with
  | nil => rfl
  | cons first rest ih =>
    obtain ⟨k, value⟩ := first
    rw [merge_cons, ih, get?_insert, List.reverse_cons, List.lookup_append, Option.or_assoc,
      List.lookup_cons]
    by_cases hk : key = k
    · simp [hk]
    · simp [hk, beq_eq_false_iff_ne.2 hk]

/-- In a mapping without a key twice, a key has one value from both ends. -/
lemma lookup_reverse (hn : d.keys.Nodup) (key : String) :
    d.entries.reverse.lookup key = d.get? key := by
  obtain ⟨entries⟩ := d
  induction entries with
  | nil => rfl
  | cons first rest ih =>
    obtain ⟨k, value⟩ := first
    obtain ⟨hfirst, hrest⟩ := List.nodup_cons.1 hn
    rw [List.reverse_cons, List.lookup_append, ih hrest, get?, get?, List.lookup_cons,
      List.lookup_cons]
    by_cases hk : key = k
    · have hnone : rest.lookup k = none := by
        refine List.lookup_eq_none_iff.2 fun p hp => ?_
        rw [bne_iff_ne]
        rintro rfl
        exact hfirst (List.mem_map_of_mem (f := (·.1)) hp)
      simp [hk, hnone]
    · simp [beq_eq_false_iff_ne.2 hk]

lemma insertEntry_of_notMem {key : String} {value : Value}
    {entries : List (String × Value)} (h : key ∉ entries.map (·.1)) :
    insertEntry key value entries = entries ++ [(key, value)] := by
  induction entries with
  | nil => rfl
  | cons e rest ih =>
    rw [List.map_cons, List.mem_cons, not_or] at h
    rw [insertEntry, if_neg (Ne.symm h.1), ih h.2, List.cons_append]

/-- Descriptors without common keys are put one after the other. -/
lemma merge_of_disjoint {d other : Descriptor} (hn : other.keys.Nodup)
    (hd : ∀ key ∈ other.keys, key ∉ d.keys) : d.merge other = ⟨d.entries ++ other.entries⟩ := by
  obtain ⟨entries⟩ := other
  induction entries generalizing d with
  | nil => rw [merge, List.foldl_nil, List.append_nil]
  | cons e rest ih =>
    obtain ⟨hfirst, hn⟩ := List.nodup_cons.1 hn
    have hinsert : d.insert e.1 e.2 = ⟨d.entries ++ [e]⟩ :=
      congrArg mk (insertEntry_of_notMem (hd e.1 List.mem_cons_self))
    have hrest : ∀ key ∈ keys ⟨rest⟩, key ∉ keys ⟨d.entries ++ [e]⟩ := by
      intro key hkey hmem
      rw [keys, List.map_append, List.mem_append] at hmem
      rcases hmem with hmem | hmem
      · exact hd key (List.mem_cons_of_mem _ hkey) hmem
      · rw [List.map_singleton, List.mem_singleton] at hmem
        rw [hmem] at hkey
        exact hfirst hkey
    have hmerge := ih hn hrest
    rw [merge] at hmerge ⊢
    rw [List.foldl_cons, hinsert, hmerge, List.append_assoc]
    rfl

/-- Entries without a key twice are the descriptor that they are put into. -/
lemma ofList_of_nodup {entries : List (String × Value)} (hn : (entries.map (·.1)).Nodup) :
    ofList entries = ⟨entries⟩ := by
  have hmerge : empty.merge ⟨entries⟩ = ⟨empty.entries ++ entries⟩ :=
    merge_of_disjoint hn fun _ _ => List.not_mem_nil
  exact hmerge

end Descriptor

/-! ### Ways to make a descriptor -/

/-- A text starts with an object, up to the given rest. The entries are those between its brackets
as they are written, with keys that may be repeated. -/
def Json.Spells (depth : Nat) (text : List Char) (entries : List (String × Value))
    (rest : List Char) : Prop :=
  ∃ inside, skipSpace text = '\x7b' :: inside
    ∧ readElements objectBrackets (readEntry (readValue depth)) inside = .ok (entries, rest)

namespace Json

variable {depth : Nat} {text rest : List Char} {entries : List (String × Value)}

/-- The value of an object is the descriptor of its entries. -/
lemma Spells.readValue (h : Spells depth text entries rest) :
    readValue (depth + 1) text = .ok (.block (Descriptor.ofList entries).entries, rest) := by
  obtain ⟨inside, ht, he⟩ := h
  rw [Json.readValue, ht]
  exact bind_eq_ok.2 ⟨_, he, rfl⟩

lemma Spells.readDescriptor (h : Spells (maxDepth - 1) text entries rest) :
    readDescriptor text = .ok (Descriptor.ofList entries, rest) := by
  obtain ⟨inside, ht, he⟩ := h
  rw [Json.readDescriptor, ht]
  exact bind_eq_ok.2 ⟨_, he, rfl⟩

end Json

namespace Descriptor

variable {d e : Descriptor}

/-- The ways in which descriptors are made, each with the insertions that it stands for. -/
inductive Made : List (String × Value) → Descriptor → Prop where
  | empty : Made [] empty
  | insert {puts : List (String × Value)} {d : Descriptor} (h : Made puts d) (key : String)
      (value : Value) : Made (puts ++ [(key, value)]) (d.insert key value)
  | merge {puts puts' : List (String × Value)} {d e : Descriptor} (h : Made puts d)
      (h' : Made puts' e) : Made (puts ++ puts') (d.merge e)
  | ofList (entries : List (String × Value)) : Made entries (ofList entries)
  /-- A descriptor that is read from a text. -/
  | readDescriptor {text rest rest' : List Char} {entries : List (String × Value)} {d : Descriptor}
      (h : Json.Spells (Json.maxDepth - 1) text entries rest)
      (hd : Json.readDescriptor text = .ok (d, rest')) : Made entries d
  /-- A mapping that is read from a text, at any depth. -/
  | readValue {depth : Nat} {text rest rest' : List Char} {entries : List (String × Value)}
      {d : Descriptor} (h : Json.Spells depth text entries rest)
      (hv : Json.readValue (depth + 1) text = .ok (.block d.entries, rest')) : Made entries d

/-- The keys of a descriptor are those of some insertions in the order in which they came first, and
each has the value that came last. -/
structure Reflects (d : Descriptor) (puts : List (String × Value)) : Prop where
  keys_eq : d.keys = (puts.map (·.1)).eraseDups
  get?_eq : ∀ key, d.get? key = puts.reverse.lookup key

namespace Reflects

variable {puts puts' : List (String × Value)}

lemma empty : empty.Reflects [] :=
  ⟨rfl, fun _ => rfl⟩

lemma nodup_keys (h : d.Reflects puts) : d.keys.Nodup := by
  rw [h.keys_eq]
  exact nodup_eraseDups _

/-- A merge reflects the insertions of both descriptors, one after the other. -/
lemma merge (h : d.Reflects puts) (h' : e.Reflects puts') :
    (d.merge e).Reflects (puts ++ puts') where
  keys_eq := by
    have hmem : ∀ key, d.keys.elem key = (puts.map (·.1)).elem key := fun key => by
      rw [h.keys_eq, Bool.eq_iff_iff, List.elem_iff, List.elem_iff, List.mem_eraseDups]
    have hremove : (e.keys.removeAll d.keys).eraseDups
        = ((puts'.map (·.1)).removeAll (puts.map (·.1))).eraseDups := by
      have hn : (e.keys.removeAll d.keys).Nodup := h'.nodup_keys.filter _
      rw [eraseDups_of_nodup hn, List.removeAll, List.removeAll, eraseDups_filter, ← h'.keys_eq]
      simp only [hmem]
    rw [keys_merge, hremove, List.map_append, List.eraseDups_append, ← h.keys_eq]
  get?_eq key := by
    rw [get?_merge, lookup_reverse h'.nodup_keys, h'.get?_eq, h.get?_eq, List.reverse_append,
      List.lookup_append]

lemma insert (h : d.Reflects puts) (key : String) (value : Value) :
    (d.insert key value).Reflects (puts ++ [(key, value)]) :=
  h.merge (e := ⟨[(key, value)]⟩) ⟨rfl, fun _ => rfl⟩

/-- Insertions into an empty descriptor are what it reflects. -/
lemma ofList (entries : List (String × Value)) : (ofList entries).Reflects entries where
  keys_eq := by
    rw [Descriptor.ofList, keys_merge, Descriptor.empty]
    exact congrArg List.eraseDups List.removeAll_nil
  get?_eq key := by
    rw [Descriptor.ofList, get?_merge]
    exact Option.or_none

end Reflects

/-- However a descriptor was made, it reflects the insertions that it stands for. -/
lemma Made.reflects {puts : List (String × Value)} (h : Made puts d) : d.Reflects puts := by
  induction h with
  | empty => exact .empty
  | insert _ key value ih => exact ih.insert key value
  | merge _ _ ih ih' => exact ih.merge ih'
  | ofList entries => exact .ofList entries
  | readDescriptor h hd =>
    rw [h.readDescriptor] at hd
    cases hd
    exact .ofList _
  | @readValue _ _ _ _ _ d h hv =>
    rw [h.readValue] at hv
    obtain ⟨entries⟩ := d
    cases hv
    exact .ofList _

/-- **A map in the order of insertion**: however a descriptor was made, its keys are the keys of the
insertions that it stands for, each once and in the order in which they first came; a key has the
value that was put in last, be it an absent one, and none exactly if it was never put in; and there
are as many entries as different keys. -/
theorem map_of_made {puts : List (String × Value)} (h : Made puts d) :
    d.keys.Nodup
      ∧ d.keys = (puts.map (·.1)).eraseDups
      ∧ (∀ key, d.get? key = puts.reverse.lookup key)
      ∧ (∀ key, d.get? key = none ↔ key ∉ puts.map (·.1))
      ∧ (∀ key, d.contains key = true ↔ key ∈ puts.map (·.1))
      ∧ d.size = (puts.map (·.1)).toFinset.card := by
  have hr := h.reflects
  have hmem : ∀ key, key ∈ d.keys ↔ key ∈ puts.map (·.1) := fun key => by
    rw [hr.keys_eq, List.mem_eraseDups]
  have hnone : ∀ key, d.get? key = none ↔ key ∉ puts.map (·.1) := fun key => by
    rw [← hmem, get?, List.lookup_eq_none_iff, keys, List.mem_map]
    simp only [bne_iff_ne, not_exists, not_and]
    exact ⟨fun hall e he heq => hall e he heq.symm, fun hall e he heq => hall e he heq.symm⟩
  have hcard : d.keys.toFinset = (puts.map (·.1)).toFinset := by
    ext key
    rw [List.mem_toFinset, List.mem_toFinset, hmem]
  refine ⟨hr.nodup_keys, hr.keys_eq, hr.get?_eq, hnone, fun key => ?_, ?_⟩
  · rw [contains, ← not_iff_not, Bool.not_eq_true, Option.isSome_eq_false_iff,
      Option.isNone_iff_eq_none, hnone]
  · rw [← hcard, List.toFinset_card_of_nodup hr.nodup_keys, keys, List.length_map, size]

/-- The entries of a text, as they are written: `b` is written twice. -/
def spelled : List (String × Value) :=
  [("b", .literal (.text "1")), ("c", .absent), ("b", .absent)]

/-- A descriptor that was put together from a list, a text and single insertions. -/
def patched : Descriptor :=
  ((ofList [("a", .absent), ("c", .literal (.text "2")), ("a", .literal (.text "3"))]).merge
    (ofList spelled)).insert "d" .absent

/-- Keys that come again, in one part or in several, keep their place and take the last value. -/
theorem map_of_made_patched :
    patched.keys = ["a", "c", "b", "d"] ∧ patched.size = 4
      ∧ patched.get? "a" = some (.literal (.text "3")) ∧ patched.get? "c" = some .absent
      ∧ patched.contains "b" = true ∧ patched.get? "e" = none := by
  have hread : Json.readDescriptor "\x7b\"b\":\"1\",\"c\":null,\"b\":null\x7d".toList
      = .ok (ofList spelled, []) := rfl
  have hspells : Json.Spells (Json.maxDepth - 1)
      "\x7b\"b\":\"1\",\"c\":null,\"b\":null\x7d".toList spelled [] := ⟨_, rfl, rfl⟩
  obtain ⟨_, hkeys, hget, hnone, hcontains, hsize⟩ :=
    map_of_made (.insert (.merge (.ofList _) (.readDescriptor hspells hread)) "d" .absent)
  exact ⟨hkeys, hsize, hget "a", hget "c", (hcontains "b").2 (by decide),
    (hnone "e").2 (by decide)⟩

end Descriptor

end Stylesheet
