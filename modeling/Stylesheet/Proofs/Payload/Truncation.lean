/-
Truncations of descriptors: what is left of one that was read up to some point.

* `CutOff`: a list that keeps its first items, may keep one more in part, and loses the rest;
* `EntryTruncated`, `MixinTruncated`, `QueryTruncated`: entries, mixins and media queries that are
  kept in part;
* `Descriptor.Truncated`: a descriptor cut off at an entry, which may be kept in part;
* `Payload.exists_item_of_readItems`: the items of a list before one that was read;
* `MediaQuery.exists_css_of_read`: a query is read alike with another body, but for the body.
-/
import Stylesheet.Proofs.Payload.Paths

namespace Stylesheet

/-! ### Truncations -/

/-- A list that keeps its first items, may keep the next one in part, and loses the rest. -/
inductive CutOff {α : Type} (part : α → α → Prop) : List α → List α → Prop
  /-- What comes after the items that are kept is lost. -/
  | before (kept rest : List α) : CutOff part (kept ++ rest) kept
  /-- The item after those that are kept is there in part. -/
  | within (kept : List α) {item left : α} (h : part item left) (rest : List α) :
      CutOff part (kept ++ item :: rest) (kept ++ [left])

mutual

/-- What an entry of a body leaves when it is kept in part. -/
inductive EntryTruncated : String × Value → String × Value → Prop
  /-- The body of a rule, or of a key under `&`, is cut off. -/
  | body {key : String} {entries left : List (String × Value)}
      (hk : Directive.Reserved.ofKey? key = none) (h : CutOff EntryTruncated entries left) :
      EntryTruncated (key, .block entries) (key, .block left)
  /-- Mixins are cut off. -/
  | mixins {key : String} {mixins left : List (String × Value)}
      (hk : Directive.Reserved.ofKey? key = some .mixins) (h : CutOff MixinTruncated mixins left) :
      EntryTruncated (key, .block mixins) (key, .block left)
  /-- Media queries are cut off. -/
  | media {key : String} {items left : List Value}
      (hk : Directive.Reserved.ofKey? key = some .media) (h : CutOff QueryTruncated items left) :
      EntryTruncated (key, .list items) (key, .list left)
  /-- Keyframes rules and overrides are kept whole or not at all. -/
  | items {key : String} {kept : List Value}
      (hk : Directive.Reserved.ofKey? key = some .keyframes
        ∨ Directive.Reserved.ofKey? key = some .overrides) (rest : List Value) :
      EntryTruncated (key, .list (kept ++ rest)) (key, .list kept)

/-- What a mixin leaves when it is kept in part: its body is cut off. -/
inductive MixinTruncated : String × Value → String × Value → Prop
  | body {name : String} {entries left : List (String × Value)}
      (h : CutOff EntryTruncated entries left) :
      MixinTruncated (name, .block entries) (name, .block left)

/-- What a media query leaves when it is kept in part: its features are all there, and its body is
cut off. -/
inductive QueryTruncated : Value → Value → Prop
  | css (before after : List (String × Value)) {entries left : List (String × Value)}
      (h : CutOff EntryTruncated entries left) :
      QueryTruncated (.block (before ++ (MediaQuery.cssKey, .block entries) :: after))
        (.block (before ++ (MediaQuery.cssKey, .block left) :: after))

end

/-- What a body leaves when it is cut off at one of its entries. -/
def Descriptor.Truncated (d left : Descriptor) : Prop :=
  CutOff EntryTruncated d.entries left.entries

/-! ### Items of a list -/

namespace Payload

variable {ε α : Type} {read : Value → String → Except ε α} {path : String} {i : Nat}

/-- What was read comes from an item, and what was read before it from the items before. -/
lemma exists_item_of_readItems {items : List Value} {xs ys : List α} {x : α}
    (h : readItems read path i items = .ok (xs ++ x :: ys)) :
    ∃ kept item rest at', items = kept ++ item :: rest ∧ readItems read path i kept = .ok xs
      ∧ item.isAbsent = false ∧ read item at' = .ok x := by
  induction items generalizing i xs with
  | nil => cases xs <;> cases h
  | cons v rest ih =>
    rw [readItems] at h
    split at h
    · rename_i ha
      obtain ⟨kept, item, rest', at', rfl, hkept, hitem⟩ := ih h
      refine ⟨v :: kept, item, rest', at', rfl, ?_, hitem⟩
      rw [readItems, if_pos ha, hkept]
    · rename_i ha
      obtain ⟨y, hy, h⟩ := bind_eq_ok.1 h
      obtain ⟨zs, hzs, h⟩ := bind_eq_ok.1 h
      cases xs with
      | nil =>
        cases h
        exact ⟨[], v, rest, _, rfl, rfl, Bool.eq_false_iff.2 ha, hy⟩
      | cons w ws =>
        cases h
        obtain ⟨kept, item, rest', at', rfl, hkept, hitem⟩ := ih hzs
        refine ⟨v :: kept, item, rest', at', rfl, ?_, hitem⟩
        rw [readItems, if_neg ha]
        exact bind_eq_ok.2 ⟨y, hy, bind_eq_ok.2 ⟨ws, hkept, rfl⟩⟩

/-- One more item that can be read gives one more that is read. -/
lemma readItems_concat {kept : List Value} {xs : List α} {item : Value} {x : α}
    (h : readItems read path i kept = .ok xs) (ha : item.isAbsent = false)
    (hx : ∀ at', read item at' = .ok x) :
    readItems read path i (kept ++ [item]) = .ok (xs ++ [x]) := by
  induction kept generalizing i xs with
  | nil =>
    cases h
    rw [List.nil_append, readItems, if_neg (Bool.eq_false_iff.1 ha), hx]
    rfl
  | cons v rest ih =>
    rw [readItems] at h
    rw [List.cons_append, readItems]
    split at h
    · rename_i hv
      rw [if_pos hv]
      exact ih h
    · rename_i hv
      obtain ⟨y, hy, h⟩ := bind_eq_ok.1 h
      obtain ⟨zs, hzs, h⟩ := bind_eq_ok.1 h
      cases h
      rw [if_neg hv]
      exact bind_eq_ok.2 ⟨y, hy, bind_eq_ok.2 ⟨_, ih hzs, rfl⟩⟩

end Payload

/-! ### Bodies of queries -/

namespace MediaQuery

/-- A value that is a query is one with any other body as well. -/
lemma exists_css_of_read {value : Value} {path : String} {q : MediaQuery}
    (h : read value path = .ok q) :
    ∃ before after, value = .block (before ++ (cssKey, .block q.css.entries) :: after)
      ∧ ∀ body at', read (.block (before ++ (cssKey, .block body) :: after)) at'
          = .ok ⟨q.features, ⟨body⟩⟩ := by
  obtain ⟨⟨es⟩, hb, hfit, hfeatures, hbody⟩ := read_eq_ok.1 h
  obtain rfl := Value.block?_eq_some.1 hb
  have hlast := (body?_eq_some.1 hbody).resolve_left fun h => nomatch h.1
  obtain ⟨before, after, rfl, hn⟩ := hlast
  rw [List.forall_mem_append, List.forall_mem_cons] at hfit
  rw [List.filterMap_append, List.filterMap_cons, feature?_cssKey] at hfeatures
  refine ⟨before, after, rfl, fun body at' => read_eq_ok.2 ⟨⟨_⟩, rfl, ?_, ?_, ?_⟩⟩
  · rw [List.forall_mem_append, List.forall_mem_cons]
    exact ⟨hfit.1, (if_pos rfl).mpr rfl, hfit.2.2⟩
  · rw [List.filterMap_append, List.filterMap_cons, feature?_cssKey]
    exact hfeatures
  · exact body?_eq_some.2 (.inr ⟨before, after, rfl, hn⟩)

end MediaQuery

end Stylesheet
