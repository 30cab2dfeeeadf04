/-
A rule on its own, and the same rule in a stylesheet.

* `Plan.Bare`: a plan of nothing but elements and nested scopes, in which nothing finds a host;
* `Plan.Houses`: a stylesheet whose only rule is another plan, each scope with the next number;
* `Houses.enter`, `Houses.declareAll`: both grow together;
* `Houses.css_eq`: they are written as the same text.
-/
import Stylesheet.Proofs.Plan.Emission

namespace Stylesheet.Plan

variable {sheet alone : Plan} {id : Nat} {r : Request}

/-! ### Bare plans -/

/-- A plan of nothing but elements and nested scopes. -/
def Bare (plan : Plan) : Prop :=
  ∀ id kind, plan.kind? id = some kind → kind = .element ∨ kind = .nested

lemma bare_standalone (fragment : String) : (standalone fragment).Bare := by
  intro id kind hk
  obtain rfl : id = 0 := Nat.lt_one_iff.1 (lt_size_of_kind? hk)
  exact .inl (Option.some.inj hk).symm

namespace Bare

variable (h : alone.Bare)

include h

lemma kind?_ne_global : alone.kind? id ≠ some .global :=
  fun hid => by cases h id .global hid <;> contradiction

lemma kind?_ne_media : alone.kind? id ≠ some .media :=
  fun hid => by cases h id .media hid <;> contradiction

lemma kind?_ne_mixin : alone.kind? id ≠ some .mixin :=
  fun hid => by cases h id .mixin hid <;> contradiction

lemma globalHost_ne {host : Nat} {directive : Directive.Reserved} :
    alone.globalHost id directive ≠ .ok host :=
  fun hh => h.kind?_ne_global (globalHost_eq_ok hh).2

lemma mediaHost_ne {host : Nat} : alone.mediaHost id ≠ .ok host :=
  fun hh => h.kind?_ne_global (mediaHost_eq_ok hh).2.2.2

lemma mixinHost_ne {host : Nat} : alone.mixinHost id ≠ .ok host := by
  intro hh
  rcases mixinHost_eq_ok hh with ⟨_, hg | hm⟩ | ⟨_, _, hf⟩
  · exact h.kind?_ne_global hg
  · exact h.kind?_ne_mixin hm
  · have hfound := List.find?_some hf
    rcases of_decide_eq_true hfound with hg | hm
    · exact h.kind?_ne_global hg
    · exact h.kind?_ne_media hm

lemma enter (hr : r.kind = .nested) : (alone.enter r).Bare := by
  cases hc : alone.child? r.host r.fragment with
  | some c => rwa [enter_of_some hc]
  | none =>
    intro id kind hk
    rw [kind?_enter hc] at hk
    split at hk
    · exact .inr ((Option.some.inj hk).symm.trans hr)
    · exact h id kind hk

lemma declareAll (writes : List (Nat × String)) : (alone.declareAll writes).Bare := by
  intro id kind hk
  rw [kind?_declareAll] at hk
  exact h id kind hk

end Bare

/-! ### Housing -/

/-- A stylesheet whose only rule is another plan, each scope with the next number. -/
structure Houses (sheet alone : Plan) : Prop where
  size : sheet.size = alone.size + 1
  kind?_root : sheet.kind? 0 = some .global
  children_root : sheet.children 0 = [1]
  declarations_root : sheet.declarations 0 = []
  kind? : ∀ id, sheet.kind? (id + 1) = alone.kind? id
  fragment? : ∀ id, sheet.fragment? (id + 1) = alone.fragment? id
  children : ∀ id, sheet.children (id + 1) = (alone.children id).map (· + 1)
  child? : ∀ id key, sheet.child? (id + 1) key = (alone.child? id key).map (· + 1)
  declarations : ∀ id, sheet.declarations (id + 1) = alone.declarations id

/-- A stylesheet with a new rule houses the plan of that rule. -/
lemma houses_standalone (fragment : String) :
    Houses (empty.enter ⟨0, .element, fragment⟩) (standalone fragment) where
  size := rfl
  kind?_root := rfl
  children_root := rfl
  declarations_root := rfl
  kind? id := by cases id <;> rfl
  fragment? id := by cases id <;> rfl
  children id := by cases id <;> rfl
  child? id key := by cases id <;> rfl
  declarations id := by cases id <;> rfl

/-- The same request about the next scope. -/
def Request.next (r : Request) : Request :=
  { r with host := r.host + 1 }

/-- The same declaration in the next scope. -/
def nextWrite (w : Nat × String) : Nat × String :=
  (w.1 + 1, w.2)

lemma textsAt_nextWrite (id : Nat) (writes : List (Nat × String)) :
    textsAt (id + 1) (writes.map nextWrite) = textsAt id writes := by
  induction writes with
  | nil => rfl
  | cons w rest ih => simp [nextWrite, ih]

lemma textsAt_zero_nextWrite (writes : List (Nat × String)) :
    textsAt 0 (writes.map nextWrite) = [] := by
  refine textsAt_eq_nil fun w hw => ?_
  obtain ⟨w', _, rfl⟩ := List.mem_map.1 hw
  exact Nat.succ_ne_zero _

namespace Houses

variable (h : Houses sheet alone)

include h

lemma answer : sheet.answer r.next = alone.answer r + 1 := by
  have hchild : sheet.child? r.next.host r.next.fragment
      = (alone.child? r.host r.fragment).map (· + 1) := h.child? _ _
  cases hc : alone.child? r.host r.fragment with
  | some c =>
    rw [hc] at hchild
    rw [answer_of_some hc, answer_of_some hchild]
  | none =>
    rw [hc] at hchild
    rw [answer_of_none hc, answer_of_none hchild, h.size]

/-- Two requests for the same fragment under the same scope keep one plan in the other. -/
lemma enter (hr : r.host < alone.size) : Houses (sheet.enter r.next) (alone.enter r) := by
  have hchild : sheet.child? r.next.host r.next.fragment
      = (alone.child? r.host r.fragment).map (· + 1) := h.child? _ _
  cases hc : alone.child? r.host r.fragment with
  | some c =>
    rw [hc] at hchild
    rw [enter_of_some hc, enter_of_some hchild]
    exact h
  | none =>
    rw [hc] at hchild
    have hr' : r.next.host < sheet.size := by
      rw [h.size]
      exact Nat.succ_lt_succ hr
    have hroot : ¬ 0 = sheet.size := by
      rw [h.size]
      exact (Nat.succ_ne_zero _).symm
    exact
      { size := by rw [size_enter_of_none hchild, size_enter_of_none hc, h.size]
        kind?_root := by rw [kind?_enter hchild, if_neg hroot, h.kind?_root]
        children_root := by
          rw [children_enter hchild hr', if_neg (show ¬ 0 = r.next.host from nofun),
            h.children_root]
        declarations_root := by rw [declarations_enter, h.declarations_root]
        kind? := fun id => by
          rw [kind?_enter hchild, kind?_enter hc, h.size, h.kind?]
          simp only [Nat.add_right_cancel_iff]
          rfl
        fragment? := fun id => by
          rw [fragment?_enter hchild, fragment?_enter hc, h.size, h.fragment?]
          simp only [Nat.add_right_cancel_iff]
          rfl
        children := fun id => by
          rw [children_enter hchild hr', children_enter hc hr, h.size, h.children, Request.next]
          simp only [Nat.add_right_cancel_iff]
          split
          · rw [List.map_append, List.map_singleton]
          · rfl
        child? := fun id key => by
          rw [child?_enter hchild hr', child?_enter hc hr, h.size, h.child?, Request.next]
          simp only [Nat.add_right_cancel_iff]
          split <;> rfl
        declarations := fun id => by rw [declarations_enter, declarations_enter, h.declarations] }

lemma declareAll (writes : List (Nat × String)) :
    Houses (sheet.declareAll (writes.map nextWrite)) (alone.declareAll writes) where
  size := by rw [size_declareAll, size_declareAll, h.size]
  kind?_root := by rw [kind?_declareAll, h.kind?_root]
  children_root := by rw [children_declareAll, h.children_root]
  declarations_root := by
    have h₀ : 0 < sheet.size := lt_size_of_kind? h.kind?_root
    rw [declarations_declareAll h₀, h.declarations_root, textsAt_zero_nextWrite, List.nil_append]
  kind? id := by rw [kind?_declareAll, kind?_declareAll, h.kind?]
  fragment? id := by rw [fragment?_declareAll, fragment?_declareAll, h.fragment?]
  children id := by rw [children_declareAll, children_declareAll, h.children]
  child? id key := by rw [child?_declareAll, child?_declareAll, h.child?]
  declarations id := by
    by_cases hid : id < alone.size
    · have hid' : id + 1 < sheet.size := by
        rw [h.size]
        exact Nat.succ_lt_succ hid
      rw [declarations_declareAll hid, declarations_declareAll hid', h.declarations,
        textsAt_nextWrite]
    · have hnone : ∀ (plan : Plan) (i : Nat) (ws : List (Nat × String)), plan.size ≤ i →
          (plan.declareAll ws).declarations i = [] := by
        intro plan i ws hi
        rw [Plan.declarations, scope?_eq_none.2 (by rwa [size_declareAll])]
        rfl
      rw [hnone alone id _ (Nat.not_lt.1 hid), hnone sheet (id + 1) _ (by rw [h.size]; omega)]

/-! ### Text -/

/-- A scope and what is under it are written alike in both plans. -/
lemma statementsAt (hs : sheet.WellFormed) (ha : alone.WellFormed) (hb : alone.Bare)
    (hid : id < alone.size) (outer : String) :
    sheet.statementsAt outer (id + 1) = alone.statementsAt outer id := by
  induction id, hid using ha.child_induction generalizing outer with
  | host id hid ih =>
    obtain ⟨s, hscope⟩ := exists_scope hid
    obtain ⟨t, htwin⟩ : ∃ t, sheet.scope? (id + 1) = some t :=
      exists_scope (by rw [h.size]; exact Nat.succ_lt_succ hid)
    have hkind : t.kind = s.kind := by
      have hk := h.kind? id
      rwa [kind?_of_scope? hscope, kind?_of_scope? htwin, Option.some.injEq] at hk
    have hfragment : t.fragment = s.fragment := by
      have hf := h.fragment? id
      rwa [fragment?_of_scope? hscope, fragment?_of_scope? htwin, Option.some.injEq] at hf
    have hdeclarations : t.declarations = s.declarations := by
      have hd := h.declarations id
      rwa [declarations_of_scope? hscope, declarations_of_scope? htwin] at hd
    have hg : s.kind ≠ .global := fun hk =>
      hb.kind?_ne_global ((kind?_of_scope? hscope).trans (congrArg some hk))
    have hm : s.kind ≠ .media := fun hk =>
      hb.kind?_ne_media ((kind?_of_scope? hscope).trans (congrArg some hk))
    rw [ha.statementsAt_of_kind hscope hg hm, hs.statementsAt_of_kind htwin (by rwa [hkind])
      (by rwa [hkind]), hfragment, hdeclarations, h.children, List.flatMap_map]
    refine congrArg _ (List.flatMap_congr fun c hc => ?_)
    have hp := ha.mem_children.1 hc
    exact ih c (lt_size_of_parent? hp) hp _

/-- A rule on its own is written as the stylesheet that it is the only rule of. -/
lemma css_eq (hs : sheet.Rooted) (ha : alone.WellFormed) (hb : alone.Bare) :
    sheet.css = alone.css := by
  rw [css, hs.statements_eq, h.declarations_root, h.children_root, List.flatMap_singleton,
    h.statementsAt hs.wellFormed ha hb ha.size_pos, css, ha.statements_eq]
  rfl

end Houses

end Stylesheet.Plan
