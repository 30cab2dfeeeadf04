/-
Payloads under paths.

* `Payload.PathFree`: a reader that reads alike under every path;
* `Payload.readItems_eq_ok`, `readList_eq_ok`: what such a reader reads of the items of a list, one
  by one;
* `Payload.PathFree.readList`: lists are read alike under every path, if each of their items is;
* `Directive.itemsOf_eq_ok`: items that must be of one form are of that form, one by one;
* `Directive.classify_path`: an entry is the same directive wherever it stands.

A path goes into the faults of a payload alone. What is read without a fault does not know it.
-/
import Mathlib.Data.List.Forall2
import Stylesheet.Proofs.Payload.Classification

namespace Stylesheet

/-- The items of a list that are there. -/
def Value.present (items : List Value) : List Value :=
  items.filter fun v => !v.isAbsent

namespace Payload

/-- What is read is read under every path. -/
def PathFree {ε α : Type} (read : Value → String → Except ε α) : Prop :=
  ∀ v path x, read v path = .ok x → ∀ path', read v path' = .ok x

/-- What is read of a list is what is read of the items that are there, one by one. -/
lemma readItems_eq_ok {ε α : Type} {read : Value → String → Except ε α} (hread : PathFree read)
    {path : String} {i : Nat} {items : List Value} {xs : List α} :
    readItems read path i items = .ok xs
      ↔ List.Forall₂ (fun v x => read v "" = .ok x) (Value.present items) xs := by
  induction items generalizing i xs with
  | nil =>
    rw [readItems, Value.present, List.filter_nil, List.forall₂_nil_left_iff, Except.ok.injEq]
    exact eq_comm
  | cons v rest ih =>
    rw [readItems]
    cases ha : v.isAbsent with
    | true =>
      rw [if_pos rfl, Value.present, List.filter_cons_of_neg (by simp [ha])]
      exact ih
    | false =>
      rw [if_neg Bool.false_ne_true, Value.present, List.filter_cons_of_pos (by simp [ha]),
        bind_eq_ok, List.forall₂_cons_left_iff]
      constructor
      · rintro ⟨x, hx, h⟩
        obtain ⟨ys, hys, h⟩ := bind_eq_ok.1 h
        cases h
        exact ⟨x, ys, hread v _ x hx "", ih.1 hys, rfl⟩
      · rintro ⟨x, ys, hx, hys, rfl⟩
        exact ⟨x, hread v _ x hx _, bind_eq_ok.2 ⟨ys, ih.2 hys, rfl⟩⟩

/-- What is read of a value that must be a list is what is read of its items. -/
lemma readList_eq_ok {α : Type} {read : Value → String → Except Fault α} (hread : PathFree read)
    {part : Part} {value : Value} {path : String} {xs : List α} :
    readList part read value path = .ok xs
      ↔ ∃ items, value.list? = some items
        ∧ List.Forall₂ (fun v x => read v "" = .ok x) (Value.present items) xs := by
  rw [readList]
  cases value.list? with
  | none => simp
  | some items => simp [readItems_eq_ok hread]

lemma PathFree.readList {α : Type} {read : Value → String → Except Fault α} (hread : PathFree read)
    (part : Part) : PathFree (readList part read) :=
  fun _ _ _ h _ => (readList_eq_ok hread).2 ((readList_eq_ok hread).1 h)

end Payload

lemma MediaQuery.pathFree_read : Payload.PathFree read :=
  fun _ _ _ h _ => read_eq_ok.2 (read_eq_ok.1 h)

namespace Keyframes

lemma pathFree_readStep : Payload.PathFree readStep :=
  fun _ _ _ h _ => readStep_eq_ok.2 (readStep_eq_ok.1 h)

lemma pathFree_read : Payload.PathFree read := by
  intro value path rule h path'
  obtain ⟨body, items, hb, hname, hi, hsteps⟩ := read_eq_ok.1 h
  have hread := (Payload.readItems_eq_ok pathFree_readStep).1 hsteps
  exact read_eq_ok.2
    ⟨body, items, hb, hname, hi, (Payload.readItems_eq_ok pathFree_readStep).2 hread⟩

end Keyframes

namespace Directive

lemma pathFree_itemOf {α : Type} (key : String) (expected : Expectation) (as? : Value → Option α) :
    Payload.PathFree fun v _ => itemOf key expected as? v :=
  fun _ _ _ h _ => h

/-- The items of a list are of one form exactly if those that are there are, one by one. -/
lemma itemsOf_eq_ok {α : Type} {key : String} {expected : Expectation} {as? : Value → Option α}
    {items : List Value} {xs : List α} :
    itemsOf key expected as? items = .ok xs
      ↔ List.Forall₂ (fun v x => as? v = some x) (Value.present items) xs := by
  rw [itemsOf, Payload.readItems_eq_ok (pathFree_itemOf key expected as?)]
  simp only [itemOf_eq_ok]

lemma ofReserved_path {value : Value} {path : String} {reserved : Reserved} {d : Directive}
    (h : ofReserved value path reserved = .ok d) (path' : String) :
    ofReserved value path' reserved = .ok d := by
  cases reserved with
  | keyframes =>
    obtain ⟨rules, hr, h⟩ := bind_eq_ok.1 h
    have hr' := Keyframes.pathFree_read.readList _ _ _ _ (ofPayload_eq_ok.1 hr) path'
    exact bind_eq_ok.2 ⟨rules, ofPayload_eq_ok.2 hr', h⟩
  | media =>
    obtain ⟨queries, hq, h⟩ := bind_eq_ok.1 h
    have hq' := MediaQuery.pathFree_read.readList _ _ _ _ (ofPayload_eq_ok.1 hq) path'
    exact bind_eq_ok.2 ⟨queries, ofPayload_eq_ok.2 hq', h⟩
  | _ => exact h

/-- An entry is the same directive under every path. -/
lemma classify_path {key : String} {value : Value} {path : String} {d : Directive}
    (h : classify key value path = .ok d) (path' : String) :
    classify key value path' = .ok d := by
  rw [classify] at h ⊢
  split at h
  · exact ofReserved_path h path'
  · exact h

lemma toOption_classify_path (key : String) (value : Value) (path path' : String) :
    (classify key value path').toOption = (classify key value path).toOption := by
  refine Option.ext fun d => ?_
  rw [toOption_eq_some, toOption_eq_some]
  exact ⟨fun h => classify_path h path, fun h => classify_path h path'⟩

end Directive

end Stylesheet
