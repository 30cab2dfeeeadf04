/-
The chain of scopes around a scope.

* `WellFormed.parent_induction`: what holds of the root and passes on to the scopes right under a
  scope holds of every scope;
* `WellFormed.ancestors_of_parent?`, `chain_of_parent?`: the chain of a scope goes on with that of
  the scope around it, so that the bound in the walk never cuts it off;
* `Extends.ancestors`, `Extends.chain`: chains stay as they are while a plan grows;
* `WellFormed.chain_answer`: the chain of what answers a request;
* `WellFormed.mem_ancestors_under`, `ancestors_linear`: who stands on a chain;
* `globalHost_eq_ok`, `mixinHost_eq_ok`, `mediaHost_eq_ok`: what a host is, where there is one.
-/
import Stylesheet.Plan.Ancestry
import Stylesheet.Proofs.Plan.WellFormed

namespace Stylesheet.Plan

variable {plan later : Plan}

/-- The walk over the scopes around a scope starts with the scope itself. -/
lemma ancestors_eq_cons (plan : Plan) (id : Nat) : ∃ around, plan.ancestors id = id :: around := by
  rw [ancestors]
  split
  · split
    · exact ⟨_, rfl⟩
    · exact ⟨_, rfl⟩
  · exact ⟨_, rfl⟩

/-- No scope on a chain has a larger number than the scope whose chain it is. -/
lemma le_of_mem_ancestors {id a : Nat} (ha : a ∈ plan.ancestors id) : a ≤ id := by
  induction id using Nat.strongRecOn with
  | _ id ih =>
    rw [ancestors] at ha
    split at ha
    · split at ha
      · rename_i p _ hlt
        rcases List.mem_cons.1 ha with rfl | ha
        · exact Nat.le_refl _
        · exact Nat.le_trans (ih p hlt ha) (Nat.le_of_lt hlt)
      · exact Nat.le_of_eq (List.mem_singleton.1 ha)
    · exact Nat.le_of_eq (List.mem_singleton.1 ha)

/-! ### Hosts -/

lemma globalHost_eq_ok {id host : Nat} {directive : Directive.Reserved}
    (h : plan.globalHost id directive = .ok host) :
    host ∈ plan.ancestors id ∧ plan.kind? host = some .global := by
  rw [globalHost] at h
  split at h
  · rename_i hf
    cases h
    have hk := List.find?_some hf
    exact ⟨List.mem_of_find?_eq_some hf, of_decide_eq_true hk⟩
  · cases h

/-- The host of mixins is the scope itself, or else the nearest global or media scope around it. -/
lemma mixinHost_eq_ok {id host : Nat} (h : plan.mixinHost id = .ok host) :
    host = id ∧ (plan.kind? id = some .global ∨ plan.kind? id = some .mixin)
      ∨ plan.kind? id ≠ some .global ∧ plan.kind? id ≠ some .mixin
        ∧ (plan.ancestors id).tail.find?
            (fun a => plan.kind? a = some .global ∨ plan.kind? a = some .media) = some host := by
  rw [mixinHost] at h
  split at h
  · rename_i hk
    cases h
    exact .inl ⟨rfl, hk⟩
  · rename_i hk
    rw [not_or] at hk
    split at h
    · rename_i hf
      cases h
      exact .inr ⟨hk.1, hk.2, hf⟩
    · cases h

lemma mediaHost_eq_ok {id host : Nat} (h : plan.mediaHost id = .ok host) :
    plan.withinMedia id = false ∧ plan.kind? id ≠ some .global
      ∧ host ∈ plan.ancestors id ∧ plan.kind? host = some .global := by
  rw [mediaHost] at h
  split at h
  · cases h
  · rename_i hm
    split at h
    · cases h
    · rename_i hk
      exact ⟨Bool.eq_false_iff.2 hm, hk, globalHost_eq_ok h⟩

/-- The host of mixins has no larger number than their scope. -/
lemma mixinHost_le {id host : Nat} (h : plan.mixinHost id = .ok host) :
    host ≤ id := by
  rcases mixinHost_eq_ok h with ⟨rfl, _⟩ | ⟨_, _, hf⟩
  · exact Nat.le_refl _
  · exact le_of_mem_ancestors (List.mem_of_mem_tail (List.mem_of_find?_eq_some hf))

/-! ### Growth -/

/-- A chain is read off headings alone. -/
lemma chain_eq (id : Nat) :
    plan.chain id
      = (plan.ancestors id).filterMap fun a => (plan.heading? a).map fun h => (h.1, h.2.1) := by
  simp only [chain, heading?, Option.map_map]
  rfl

namespace Extends

lemma ancestors (h : plan.Extends later) {id : Nat} (hid : id < plan.size) :
    later.ancestors id = plan.ancestors id := by
  induction id using Nat.strongRecOn with
  | _ id ih =>
    rw [Plan.ancestors, Plan.ancestors, h.parent? hid]
    split
    · split
      · rename_i p _ hlt
        rw [ih p hlt (Nat.lt_trans hlt hid)]
      · rfl
    · rfl

lemma chain (h : plan.Extends later) {id : Nat} (hid : id < plan.size) :
    later.chain id = plan.chain id := by
  rw [chain_eq, chain_eq, h.ancestors hid]
  refine List.filterMap_congr fun a ha => ?_
  rw [h.heading? (Nat.lt_of_le_of_lt (le_of_mem_ancestors ha) hid)]

lemma selector (h : plan.Extends later) {id : Nat} (hid : id < plan.size) :
    later.selector id = plan.selector id := by
  rw [Plan.selector, h.chain hid, Plan.selector]

end Extends

namespace WellFormed

/-- What holds of the root, and of every scope if it holds of the scope around it, holds of every
scope. -/
lemma parent_induction (h : plan.WellFormed) {motive : (id : Nat) → id < plan.size → Prop}
    (root : motive 0 h.size_pos)
    (under : ∀ id p (hid : id < plan.size) (hps : p < plan.size), plan.parent? id = some p →
      motive p hps → motive id hid)
    (id : Nat) (hid : id < plan.size) : motive id hid := by
  induction id using Nat.strongRecOn with
  | _ id ih =>
    rcases Nat.eq_zero_or_pos id with rfl | h₀
    · exact root
    · obtain ⟨p, hp, hlt⟩ := h.parent_lt h₀ hid
      have hps := Nat.lt_trans hlt hid
      exact under id p hid hps hp (ih p hlt hps)

/-! ### The walk -/

section

variable (h : plan.WellFormed)

include h

lemma ancestors_root : plan.ancestors 0 = [0] := by
  rw [ancestors, h.parent?_root]

lemma ancestors_of_parent? {id p : Nat} (hp : plan.parent? id = some p) :
    plan.ancestors id = id :: plan.ancestors p := by
  rw [ancestors, hp]
  exact if_pos (h.lt_of_parent? hp)

lemma chain_root {kind : Kind} {fragment : String} (hk : plan.kind? 0 = some kind)
    (hf : plan.fragment? 0 = some fragment) : plan.chain 0 = [(kind, fragment)] := by
  rw [chain, h.ancestors_root]
  obtain ⟨s, hs, rfl⟩ := Option.map_eq_some_iff.1 hk
  rw [Plan.fragment?, hs] at hf
  cases hf
  simp [hs]

lemma chain_of_parent? {id p : Nat} {kind : Kind} {fragment : String}
    (hp : plan.parent? id = some p) (hk : plan.kind? id = some kind)
    (hf : plan.fragment? id = some fragment) :
    plan.chain id = (kind, fragment) :: plan.chain p := by
  rw [chain, h.ancestors_of_parent? hp]
  obtain ⟨s, hs, rfl⟩ := Option.map_eq_some_iff.1 hk
  rw [Plan.fragment?, hs] at hf
  cases hf
  simp [hs, chain]

lemma chain_eq_cons {id : Nat} {kind : Kind} {fragment : String}
    (hk : plan.kind? id = some kind) (hf : plan.fragment? id = some fragment) :
    ∃ around, plan.chain id = (kind, fragment) :: around := by
  cases hp : plan.parent? id with
  | none =>
    obtain rfl := (h.parent?_eq_none (lt_size_of_kind? hk)).1 hp
    exact ⟨_, h.chain_root hk hf⟩
  | some p => exact ⟨_, h.chain_of_parent? hp hk hf⟩

lemma head?_chain {id : Nat} (hid : id < plan.size) :
    (plan.chain id).head?.map (·.1) = plan.kind? id := by
  obtain ⟨kind, fragment, hk, hf⟩ := exists_kind_fragment hid
  obtain ⟨around, hc⟩ := h.chain_eq_cons hk hf
  rw [hc, hk]
  rfl

/-- The chain of what answers a request goes on with that of the host. -/
lemma chain_answer {r : Request} (hr : r.host < plan.size) {kind : Kind}
    (hk : (plan.enter r).kind? (plan.answer r) = some kind) :
    (plan.enter r).chain (plan.answer r) = (kind, r.fragment) :: plan.chain r.host := by
  rw [(h.enter hr).chain_of_parent? (h.parent?_answer r) hk (h.fragment?_answer r),
    (extends_enter r).chain hr]

/-! ### Members of a chain -/

lemma self_mem_ancestors {id : Nat} (hid : id < plan.size) : id ∈ plan.ancestors id := by
  rcases Nat.eq_zero_or_pos id with rfl | h₀
  · rw [h.ancestors_root]
    exact List.mem_singleton_self _
  · obtain ⟨p, hp, _⟩ := h.parent_lt h₀ hid
    rw [h.ancestors_of_parent? hp]
    exact List.mem_cons_self

/-- The root stands on every chain. -/
lemma zero_mem_ancestors {id : Nat} (hid : id < plan.size) : 0 ∈ plan.ancestors id := by
  induction id, hid using h.parent_induction with
  | root =>
    rw [h.ancestors_root]
    exact List.mem_singleton_self _
  | under id p _ _ hp ih =>
    rw [h.ancestors_of_parent? hp]
    exact List.mem_cons_of_mem _ ih

/-- A scope stands on the chain of another scope exactly if a scope right under it does. -/
lemma mem_ancestors_under {a id : Nat} (hid : id < plan.size) :
    a ∈ plan.ancestors id ↔ a = id ∨ ∃ c, plan.parent? c = some a ∧ c ∈ plan.ancestors id := by
  induction id, hid using h.parent_induction with
  | root =>
    rw [h.ancestors_root]
    constructor
    · exact fun ha => .inl (List.mem_singleton.1 ha)
    · rintro (rfl | ⟨c, hc, hm⟩)
      · exact List.mem_singleton_self _
      · rw [List.mem_singleton.1 hm, h.parent?_root] at hc
        cases hc
  | under id p _ _ hp ih =>
    rw [h.ancestors_of_parent? hp, List.mem_cons, ih]
    constructor
    · rintro (rfl | rfl | ⟨c, hc, hm⟩)
      · exact .inl rfl
      · exact .inr ⟨id, hp, List.mem_cons_self⟩
      · exact .inr ⟨c, hc, List.mem_cons_of_mem _ hm⟩
    · rintro (rfl | ⟨c, hc, hm⟩)
      · exact .inl rfl
      · rcases List.mem_cons.1 hm with rfl | hm
        · rw [hp] at hc
          cases hc
          exact .inr (.inl rfl)
        · exact .inr (.inr ⟨c, hc, hm⟩)

/-- Of two scopes right under one scope only one stands on a chain. -/
lemma ancestors_linear {a b p id : Nat} (hid : id < plan.size) (ha : plan.parent? a = some p)
    (hb : plan.parent? b = some p) (hma : a ∈ plan.ancestors id) (hmb : b ∈ plan.ancestors id) :
    a = b := by
  induction id, hid using h.parent_induction with
  | root =>
    rw [h.ancestors_root] at hma hmb
    rw [List.mem_singleton.1 hma, List.mem_singleton.1 hmb]
  | under id q _ _ hq ih =>
    rw [h.ancestors_of_parent? hq] at hma hmb
    -- a scope that the chain starts with cannot be under the same host as a scope further out
    have hfirst : ∀ c, plan.parent? c = some p → plan.parent? id = some p →
        c ∉ plan.ancestors q := by
      intro c hc hip hm
      rw [hq] at hip
      cases hip
      exact absurd (le_of_mem_ancestors hm) (Nat.not_le.2 (h.lt_of_parent? hc))
    rcases List.mem_cons.1 hma with rfl | ha'
    · rcases List.mem_cons.1 hmb with rfl | hb'
      · rfl
      · exact absurd hb' (hfirst b hb ha)
    · rcases List.mem_cons.1 hmb with rfl | hb'
      · exact absurd ha' (hfirst a ha hb)
      · exact ih ha' hb'

end

end WellFormed

end Stylesheet.Plan
