/-
Locations in a descriptor.

* `Segment`, `Location`: the keys and positions that lead to a value;
* `Location.text`: a location as it is written: keys joined by points, and positions in brackets;
* `Location.text_child`, `field_eq`, `item_eq`: paths of errors are put together as locations are
  written;
* `Location.Lags`: two locations with the same keys, of which the second one has no greater
  positions;
* `Lags.eq_of_text`: such locations are written alike only if they are the same;
* `Value.Reaches`, `Value.Locates`: the values at a location, and the locations of values and of
  missing keys;
* `Value.Gapless`: a location before whose items no items are absent;
* `Value.Reports`: a value at a location, and the same location with absent items left out of the
  count; it lags behind the location, and is the same if there are no gaps.
-/
import Mathlib.Tactic.Common
import Stylesheet.Path
import Stylesheet.Value

namespace Stylesheet

/-- A step to a part of a value: to the value under a key, or to the item at a position. -/
inductive Segment where
  | key (key : String)
  | item (i : Nat)
  deriving DecidableEq, Repr

/-- The steps that lead to a value, from the outside in. -/
abbrev Location := List Segment

/-! ### Text -/

/-- A step as it is written after another one. -/
def Segment.text : Segment → String
  | .key k => "." ++ k
  | .item i => "[" ++ toString i ++ "]"

namespace Location

variable {ℓ m ρ : Location} {key path : String}

/-- Some steps as they are written after another one. -/
def suffix (ℓ : Location) : String :=
  String.join (ℓ.map Segment.text)

/-- A location as it is written. There is no point before its first key. -/
def text : Location → String
  | .key key :: rest => key ++ suffix rest
  | ℓ => suffix ℓ

/-- A location starts with a key that is not empty. -/
def Named (ℓ : Location) : Prop :=
  ∃ key rest, ℓ = .key key :: rest ∧ key ≠ ""

lemma suffix_nil : suffix [] = "" := rfl

lemma suffix_cons (s : Segment) (ℓ : Location) : suffix (s :: ℓ) = s.text ++ suffix ℓ := by
  rw [suffix, List.map_cons, String.join_cons, suffix]

lemma suffix_append (ℓ m : Location) : suffix (ℓ ++ m) = suffix ℓ ++ suffix m := by
  induction ℓ with
  | nil => exact String.empty_append.symm
  | cons s ℓ ih => rw [List.cons_append, suffix_cons, ih, suffix_cons, String.append_assoc]

lemma text_append (h : ℓ ≠ []) (m : Location) : text (ℓ ++ m) = text ℓ ++ suffix m := by
  cases ℓ with
  | nil => exact absurd rfl h
  | cons s ℓ =>
    cases s with
    | key key => rw [List.cons_append, text, suffix_append, text, String.append_assoc]
    | item i => rw [List.cons_append, text, ← List.cons_append, suffix_append, text] <;> nofun

lemma suffix_singleton (s : Segment) : suffix [s] = s.text := by
  rw [suffix_cons]
  exact String.append_empty

lemma field_eq (path key : String) : Path.field path key = path ++ suffix [.key key] := by
  rw [Path.field, suffix_singleton, Segment.text, String.append_assoc]

lemma item_eq (path : String) (i : Nat) : Path.item path i = path ++ suffix [.item i] := by
  rw [Path.item, suffix_singleton, Segment.text, String.append_assoc, String.append_assoc,
    String.append_assoc]

/-- Keys of bodies are joined as those of locations. -/
lemma text_child (h : ℓ = [] ∨ ℓ.Named) (key : String) :
    Path.child ℓ.text key = text (ℓ ++ [.key key]) := by
  rcases h with rfl | ⟨first, rest, rfl, hfirst⟩
  · exact String.append_empty.symm
  · have hne : text (.key first :: rest) ≠ "" := fun he =>
      hfirst (String.append_eq_empty_iff.1 he).1
    rw [text_append (List.cons_ne_nil _ _), ← field_eq, Path.child,
      if_neg (by rwa [String.isEmpty_iff]), Path.field]

/-! ### Lagging positions -/

/-- Two locations with the same keys, of which the second one has no greater positions. -/
inductive Lags : Location → Location → Prop
  | nil : Lags [] []
  | key (k : String) {ℓ ρ : Location} (h : Lags ℓ ρ) : Lags (.key k :: ℓ) (.key k :: ρ)
  | item {i j : Nat} (hle : j ≤ i) {ℓ ρ : Location} (h : Lags ℓ ρ) :
      Lags (.item i :: ℓ) (.item j :: ρ)

namespace Lags

lemma refl (ℓ : Location) : Lags ℓ ℓ := by
  induction ℓ with
  | nil => exact .nil
  | cons s ℓ ih =>
    cases s with
    | key k => exact .key k ih
    | item i => exact .item (Nat.le_refl i) ih

lemma append {m μ : Location} (h : Lags ℓ ρ) (hm : Lags m μ) : Lags (ℓ ++ m) (ρ ++ μ) := by
  induction h with
  | nil => exact hm
  | key k _ ih => exact .key k ih
  | item hle _ ih => exact .item hle ih

lemma length_repr_le {i j : Nat} (h : j ≤ i) : (toString j).length ≤ (toString i).length := by
  rw [Nat.toString_eq_repr, Nat.toString_eq_repr]
  have hi : i < 10 ^ i.repr.length :=
    (Nat.length_repr_le_iff Nat.length_repr_pos).1 (Nat.le_refl _)
  exact (Nat.length_repr_le_iff Nat.length_repr_pos).2 (Nat.lt_of_le_of_lt h hi)

lemma toString_injective {i j : Nat} (h : toString j = toString i) : j = i := by
  have hvalue : ∀ n : Nat, Nat.ofDigitChars 10 (toString n).toList 0 = n := fun n => by
    rw [Nat.toString_eq_repr, Nat.toList_repr, Nat.ofDigitChars_ten_toDigits]
  calc j = Nat.ofDigitChars 10 (toString j).toList 0 := (hvalue j).symm
    _ = Nat.ofDigitChars 10 (toString i).toList 0 := by rw [h]
    _ = i := hvalue i

lemma length_suffix_le (h : Lags ℓ ρ) : (suffix ρ).length ≤ (suffix ℓ).length := by
  induction h with
  | nil => exact Nat.le_refl _
  | key k _ ih =>
    rw [suffix_cons, suffix_cons, String.length_append, String.length_append]
    exact Nat.add_le_add_left ih _
  | item hle _ ih =>
    have hlen := length_repr_le hle
    rw [suffix_cons, suffix_cons, String.length_append, String.length_append, Segment.text,
      Segment.text]
    simp only [String.length_append]
    omega

/-- A number with fewer digits is not made up for by what comes after it. -/
lemma eq_of_suffix (h : Lags ℓ ρ) (heq : suffix ρ = suffix ℓ) : ρ = ℓ := by
  induction h with
  | nil => rfl
  | key k _ ih =>
    rw [suffix_cons, suffix_cons] at heq
    rw [ih ((String.append_right_inj _).1 heq)]
  | @item i j hle ℓ ρ h ih =>
    rw [suffix_cons, suffix_cons, ← String.toList_inj, String.toList_append,
      String.toList_append] at heq
    have hlen := congrArg List.length heq
    have hitem := length_repr_le hle
    have hrest := h.length_suffix_le
    have hsame : (Segment.item j).text.toList.length = (Segment.item i).text.toList.length := by
      simp only [List.length_append, String.length_toList, Segment.text, String.length_append]
        at hlen ⊢
      omega
    obtain ⟨hhead, htail⟩ := List.append_inj heq hsame
    rw [String.toList_inj, Segment.text, Segment.text, String.append_left_inj,
      String.append_right_inj] at hhead
    rw [ih (String.toList_inj.1 htail), toString_injective hhead]

/-- Locations that lag are written alike only if they are the same. -/
lemma eq_of_text (h : Lags ℓ ρ) (heq : text ρ = text ℓ) : ρ = ℓ := by
  cases h with
  | nil => rfl
  | key k h => rw [h.eq_of_suffix ((String.append_right_inj _).1 heq)]
  | item hle h => exact (h.item hle).eq_of_suffix heq

end Lags

end Location

/-! ### Values -/

namespace Value

variable {v w : Value} {ℓ m : Location}

/-- The values at a location in a value. -/
inductive Reaches : Value → Location → Value → Prop
  | here (v : Value) : Reaches v [] v
  | entry {entries : List (String × Value)} {key : String} {v w : Value} {ℓ : Location}
      (he : (key, v) ∈ entries) (h : Reaches v ℓ w) : Reaches (.block entries) (.key key :: ℓ) w
  | item {items : List Value} {i : Nat} {v w : Value} {ℓ : Location} (hi : items[i]? = some v)
      (h : Reaches v ℓ w) : Reaches (.list items) (.item i :: ℓ) w

/-- A location in a value is that of a value, or of a key that is missing in a mapping. -/
def Locates (v : Value) (ℓ : Location) : Prop :=
  (∃ w, v.Reaches ℓ w)
    ∨ ∃ at' key entries, ℓ = at' ++ [.key key] ∧ v.Reaches at' (.block entries)
      ∧ key ∉ entries.map (·.1)

lemma Reaches.trans {u : Value} (h : v.Reaches ℓ w) (hw : w.Reaches m u) :
    v.Reaches (ℓ ++ m) u := by
  induction h with
  | here v => exact hw
  | entry he _ ih => exact .entry he (ih hw)
  | item hi _ ih => exact .item hi (ih hw)

lemma Reaches.locates (h : v.Reaches ℓ w) (hw : w.Locates m) : v.Locates (ℓ ++ m) := by
  rcases hw with ⟨u, hu⟩ | ⟨at', key, entries, rfl, ha, hk⟩
  · exact .inl ⟨u, h.trans hu⟩
  · exact .inr ⟨ℓ ++ at', key, entries, (List.append_assoc ..).symm, h.trans ha, hk⟩

/-- The value under a key, or the key itself if it is missing. -/
lemma locates_key (entries : List (String × Value)) (key : String) :
    (Value.block entries).Locates [.key key] := by
  by_cases hk : key ∈ entries.map (·.1)
  · obtain ⟨e, he, rfl⟩ := List.mem_map.1 hk
    exact .inl ⟨e.2, .entry he (.here _)⟩
  · exact .inr ⟨[], key, entries, rfl, .here _, hk⟩

/-- Where a location goes through an item of a list, no item before that one is absent. -/
def Gapless (v : Value) (ℓ : Location) : Prop :=
  ∀ at' i rest items, ℓ = at' ++ .item i :: rest → v.Reaches at' (.list items) →
    ∀ n < i, items[n]? ≠ some .absent

lemma Gapless.right (h : v.Gapless (ℓ ++ m)) (hv : v.Reaches ℓ w) : w.Gapless m :=
  fun at' i rest items hm hr =>
    h (ℓ ++ at') i rest items (by rw [hm, List.append_assoc]) (hv.trans hr)

/-- A value is at the location `ℓ`, and `ρ` is that location with only those items counted that are
there. -/
inductive Reports : Value → Location → Location → Value → Prop
  | here (v : Value) : Reports v [] [] v
  | entry {entries : List (String × Value)} {key : String} {v w : Value} {ℓ ρ : Location}
      (he : (key, v) ∈ entries) (h : Reports v ℓ ρ w) :
      Reports (.block entries) (.key key :: ℓ) (.key key :: ρ) w
  | item {items : List Value} {i : Nat} {v w : Value} {ℓ ρ : Location} (hi : items[i]? = some v)
      (h : Reports v ℓ ρ w) :
      Reports (.list items) (.item i :: ℓ)
        (.item ((items.take i).countP fun v => !v.isAbsent) :: ρ) w

namespace Reports

variable {u : Value} {ρ μ : Location}

lemma reaches (h : v.Reports ℓ ρ w) : v.Reaches ℓ w := by
  induction h with
  | here v => exact .here v
  | entry he _ ih => exact .entry he ih
  | item hi _ ih => exact .item hi ih

lemma lags (h : v.Reports ℓ ρ w) : ℓ.Lags ρ := by
  induction h with
  | here v => exact .nil
  | entry he _ ih => exact .key _ ih
  | item hi _ ih => exact .item (Nat.le_trans List.countP_le_length (List.length_take_le _ _)) ih

lemma trans (h : v.Reports ℓ ρ w) (hw : w.Reports m μ u) : v.Reports (ℓ ++ m) (ρ ++ μ) u := by
  induction h with
  | here v => exact hw
  | entry he _ ih => exact .entry he (ih hw)
  | item hi _ ih => exact .item hi (ih hw)

/-- Where no items are absent, it does not matter which ones are counted. -/
lemma eq_of_gapless (h : v.Reports ℓ ρ w) (hg : v.Gapless ℓ) : ρ = ℓ := by
  induction h with
  | here v => rfl
  | @entry _ key _ _ ℓ _ he h ih =>
    rw [ih (hg.right (ℓ := [.key key]) (.entry he (.here _)))]
  | @item items i _ _ ℓ _ hi h ih =>
    rw [ih (hg.right (ℓ := [.item i]) (.item hi (.here _)))]
    have hall : ∀ v ∈ items.take i, (!v.isAbsent) = true := fun v hv => by
      obtain ⟨n, hn, hv⟩ := List.mem_iff_getElem.1 hv
      have hlt : n < i := Nat.lt_of_lt_of_le hn (List.length_take_le _ _)
      have hthere := hg [] i ℓ items rfl (.here _) n hlt
      cases v with
      | absent =>
        refine absurd ?_ hthere
        rw [← List.getElem?_take_of_lt hlt, List.getElem?_eq_some_iff]
        exact ⟨hn, hv⟩
      | _ => rfl
    have hlen : i ≤ items.length :=
      Nat.le_of_lt (List.getElem?_eq_some_iff.1 hi).1
    rw [List.countP_eq_length.2 hall, List.length_take_of_le hlen]

/-- What is in a mapping without an empty key is reported under a key that is not empty. -/
lemma eq_nil_or_named {entries : List (String × Value)} (hkeys : ∀ e ∈ entries, e.1 ≠ "")
    (h : (Value.block entries).Reports ℓ ρ w) : ρ = [] ∨ ρ.Named := by
  cases h with
  | here => exact .inl rfl
  | entry he _ => exact .inr ⟨_, _, rfl, hkeys _ he⟩

end Reports

end Value

end Stylesheet
