/-
Well-formed plans: the numbers that scopes keep of each other agree.

* `Plan.WellFormed`: every scope but the root has the number of an earlier scope around it, a scope
  lists exactly the scopes that are right under it, in the order of their numbers, and finds each of
  them by its fragment;
* `WellFormed.enter`, `WellFormed.declareAll`: both ways of growing keep a plan well-formed;
* `WellFormed.count_children`, `nodup_fragments`: each scope is listed once, and the scopes under
  one scope have different fragments;
* `WellFormed.parent?_answer`, `fragment?_answer`: what answers a request is what was asked for, but
  for its kind.
-/
import Mathlib.Data.List.Nodup
import Stylesheet.Proofs.Plan.Growth

namespace Stylesheet.Plan

variable {plan : Plan}

/-- The numbers that the scopes of a plan keep of each other agree. -/
structure WellFormed (plan : Plan) : Prop where
  size_pos : 0 < plan.size
  parent?_root : plan.parent? 0 = none
  parent_lt : ∀ {id}, 0 < id → id < plan.size → ∃ p, plan.parent? id = some p ∧ p < id
  mem_children : ∀ {p c}, c ∈ plan.children p ↔ plan.parent? c = some p
  pairwise_children : ∀ p, (plan.children p).Pairwise (· < ·)
  child?_eq_some : ∀ {p key c},
    plan.child? p key = some c ↔ plan.parent? c = some p ∧ plan.fragment? c = some key

/-- A plan with a single scope that has nothing under it is well-formed. -/
lemma wellFormed_singleton (kind : Kind) (fragment : String) :
    WellFormed ⟨[{ kind := kind, fragment := fragment }]⟩ where
  size_pos := Nat.one_pos
  parent?_root := rfl
  parent_lt {id} h₀ hid := absurd hid (Nat.not_lt.2 h₀)
  mem_children {p c} := by
    constructor
    · intro hc
      cases p with
      | zero => cases hc
      | succ p => cases hc
    · intro hc
      cases c with
      | zero => cases hc
      | succ c => cases hc
  pairwise_children p := by
    cases p with
    | zero => exact List.Pairwise.nil
    | succ p => exact List.Pairwise.nil
  child?_eq_some {p key c} := by
    constructor
    · intro hc
      cases p with
      | zero => cases hc
      | succ p => cases hc
    · rintro ⟨hc, _⟩
      cases c with
      | zero => cases hc
      | succ c => cases hc

namespace WellFormed

/-- The scope around a scope has a smaller number. -/
lemma lt_of_parent? (h : plan.WellFormed) {id p : Nat} (hp : plan.parent? id = some p) :
    p < id := by
  have hid := lt_size_of_parent? hp
  rcases Nat.eq_zero_or_pos id with rfl | h₀
  · rw [h.parent?_root] at hp
    cases hp
  · obtain ⟨q, hq, hlt⟩ := h.parent_lt h₀ hid
    rw [hq] at hp
    cases hp
    exact hlt

lemma parent?_eq_none (h : plan.WellFormed) {id : Nat} (hid : id < plan.size) :
    plan.parent? id = none ↔ id = 0 := by
  constructor
  · intro hn
    by_contra h₀
    obtain ⟨p, hp, _⟩ := h.parent_lt (Nat.pos_of_ne_zero h₀) hid
    rw [hp] at hn
    cases hn
  · rintro rfl
    exact h.parent?_root

/-! ### Growth -/

section

variable (h : plan.WellFormed) {r : Request} (hr : r.host < plan.size)
  (hc : plan.child? r.host r.fragment = none)

include h hr hc

lemma mem_children_enter {p c : Nat} :
    c ∈ (plan.enter r).children p ↔ (plan.enter r).parent? c = some p := by
  rw [children_enter hc hr, parent?_enter hc]
  by_cases he : c = plan.size
  · have hout : plan.size ∉ plan.children p := by
      simp [h.mem_children, parent?_size]
    by_cases hp : p = r.host
    · simp [he, hp]
    · simp [he, hp, hout, Ne.symm hp]
  · rw [if_neg he, ← h.mem_children]
    split
    · simp [he]
    · rfl

lemma pairwise_children_enter (p : Nat) : ((plan.enter r).children p).Pairwise (· < ·) := by
  rw [children_enter hc hr]
  split
  · refine List.pairwise_append.2 ⟨h.pairwise_children p, List.pairwise_singleton _ _, ?_⟩
    intro c hm n hn
    rw [List.mem_singleton.1 hn]
    exact lt_size_of_parent? (h.mem_children.1 hm)
  · exact h.pairwise_children p

lemma child?_enter_eq_some {p c : Nat} {key : String} :
    (plan.enter r).child? p key = some c
      ↔ (plan.enter r).parent? c = some p ∧ (plan.enter r).fragment? c = some key := by
  rw [child?_enter hc hr, parent?_enter hc, fragment?_enter hc]
  by_cases he : c = plan.size
  · have hout : plan.child? p key ≠ some plan.size := by
      simp [h.child?_eq_some, parent?_size]
    by_cases hp : p = r.host ∧ key = r.fragment
    · simp [he, hp]
    · have hp' : ¬ (r.host = p ∧ r.fragment = key) := fun hq => hp ⟨hq.1.symm, hq.2.symm⟩
      simp [he, hp, hp', hout]
  · rw [if_neg he, if_neg he, ← h.child?_eq_some]
    by_cases hp : p = r.host ∧ key = r.fragment
    · simp [hp, hc, Ne.symm he]
    · rw [if_neg hp]

end

/-- A new scope under a scope that is there keeps a plan well-formed. -/
lemma enter (h : plan.WellFormed) {r : Request} (hr : r.host < plan.size) :
    (plan.enter r).WellFormed := by
  cases hc : plan.child? r.host r.fragment with
  | some c => rwa [enter_of_some hc]
  | none =>
    refine
      { size_pos := ?_, parent?_root := ?_, parent_lt := fun {id} h₀ hid => ?_
        mem_children := h.mem_children_enter hr hc
        pairwise_children := h.pairwise_children_enter hr hc
        child?_eq_some := h.child?_enter_eq_some hr hc }
    · rw [size_enter_of_none hc]
      exact Nat.succ_pos _
    · rw [parent?_enter hc, if_neg (Nat.ne_of_lt h.size_pos)]
      exact h.parent?_root
    · rw [size_enter_of_none hc] at hid
      rw [parent?_enter hc]
      by_cases he : id = plan.size
      · exact ⟨r.host, if_pos he, he ▸ hr⟩
      · rw [if_neg he]
        exact h.parent_lt h₀ (by omega)

/-- Declarations keep a plan well-formed. -/
lemma declareAll (h : plan.WellFormed) (writes : List (Nat × String)) :
    (plan.declareAll writes).WellFormed where
  size_pos := by
    rw [size_declareAll]
    exact h.size_pos
  parent?_root := by
    rw [parent?_declareAll]
    exact h.parent?_root
  parent_lt {id} h₀ hid := by
    rw [size_declareAll] at hid
    rw [parent?_declareAll]
    exact h.parent_lt h₀ hid
  mem_children {p c} := by
    rw [children_declareAll, parent?_declareAll]
    exact h.mem_children
  pairwise_children p := by
    rw [children_declareAll]
    exact h.pairwise_children p
  child?_eq_some {p key c} := by
    rw [child?_declareAll, parent?_declareAll, fragment?_declareAll]
    exact h.child?_eq_some

/-! ### Children -/

/-- A scope is listed once by the scope around it, and by no other. -/
lemma count_children (h : plan.WellFormed) {id p : Nat} (hp : plan.parent? id = some p) (q : Nat) :
    (plan.children q).count id = if q = p then 1 else 0 := by
  have hnodup : (plan.children q).Nodup :=
    (h.pairwise_children q).imp Nat.ne_of_lt
  have hmem : id ∈ plan.children q ↔ q = p := by
    rw [h.mem_children, hp, Option.some.injEq]
    exact eq_comm
  split
  · rename_i hq
    exact List.count_eq_one_of_mem hnodup (hmem.2 hq)
  · rename_i hq
    exact List.count_eq_zero_of_not_mem fun hm => hq (hmem.1 hm)

/-- The scopes under one scope have different fragments. -/
lemma nodup_fragments (h : plan.WellFormed) (p : Nat) :
    ((plan.children p).map plan.fragment?).Nodup := by
  refine List.Nodup.map_on ?_ ((h.pairwise_children p).imp Nat.ne_of_lt)
  intro c hc d hd heq
  have hparent := h.mem_children.1 hc
  obtain ⟨s, hs⟩ := exists_scope (lt_size_of_parent? hparent)
  have hkey : plan.fragment? c = some s.fragment := by
    rw [Plan.fragment?, hs]
    rfl
  have h₁ := h.child?_eq_some.2 ⟨hparent, hkey⟩
  have h₂ := h.child?_eq_some.2 ⟨h.mem_children.1 hd, heq ▸ hkey⟩
  rw [h₁] at h₂
  exact Option.some.inj h₂

/-! ### Answers -/

section

variable (h : plan.WellFormed) (r : Request)

include h

/-- The scope that answers a request stands under the host. -/
lemma parent?_answer : (plan.enter r).parent? (plan.answer r) = some r.host := by
  cases hc : plan.child? r.host r.fragment with
  | some c =>
    rw [enter_of_some hc, answer_of_some hc]
    exact (h.child?_eq_some.1 hc).1
  | none => rw [answer_of_none hc, parent?_enter hc, if_pos rfl]

/-- The scope that answers a request has the fragment that was asked for. -/
lemma fragment?_answer : (plan.enter r).fragment? (plan.answer r) = some r.fragment := by
  cases hc : plan.child? r.host r.fragment with
  | some c =>
    rw [enter_of_some hc, answer_of_some hc]
    exact (h.child?_eq_some.1 hc).2
  | none => rw [answer_of_none hc, fragment?_enter hc, if_pos rfl]

lemma answer_lt : plan.answer r < (plan.enter r).size :=
  lt_size_of_parent? (h.parent?_answer r)

/-- What answers a request is not the root. -/
lemma answer_ne_zero (hr : r.host < plan.size) : plan.answer r ≠ 0 := by
  intro h₀
  have hp := h.parent?_answer r
  rw [h₀, (h.enter hr).parent?_root] at hp
  cases hp

end

end WellFormed

end Stylesheet.Plan
