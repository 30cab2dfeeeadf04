/-
Builds only append.

* `Scope.GrowsInto`: a later state of a scope, which stands where it stood, lists and declares first
  what it listed and declared, and still finds what it found;
* `Plan.GrowsInto`: a plan whose scopes are later states of those of another, number by number;
* `Plan.GrowsInto.follow`: paths lead where they led;
* `Plan.growsInto_enter`, `growsInto_declareAll`: both ways of growing are of this kind;
* `Plan.growsInto_left_run`, `onlyAppends_build`: so are runs and builds, finished or not.

Nothing is asked of the plan: it need not be well-formed, nor the target be there.
-/
import Stylesheet.Proofs.Build.Run

namespace Stylesheet

/-! ### Scopes -/

/-- A later state of a scope. Its heading is the same, and what it gathers is only added to. -/
structure Scope.GrowsInto (s t : Scope) : Prop where
  kind_eq : t.kind = s.kind
  fragment_eq : t.fragment = s.fragment
  parent_eq : t.parent = s.parent
  children_prefix : s.children <+: t.children
  declarations_prefix : s.declarations <+: t.declarations
  /-- What was found under a key is found there still. -/
  lookup_index : ∀ {key c}, s.index.lookup key = some c → t.index.lookup key = some c

namespace Scope.GrowsInto

variable {s t u : Scope}

protected lemma refl (s : Scope) : s.GrowsInto s :=
  ⟨rfl, rfl, rfl, List.prefix_rfl, List.prefix_rfl, id⟩

protected lemma trans (h₁ : s.GrowsInto t) (h₂ : t.GrowsInto u) : s.GrowsInto u where
  kind_eq := h₂.kind_eq.trans h₁.kind_eq
  fragment_eq := h₂.fragment_eq.trans h₁.fragment_eq
  parent_eq := h₂.parent_eq.trans h₁.parent_eq
  children_prefix := h₁.children_prefix.trans h₂.children_prefix
  declarations_prefix := h₁.declarations_prefix.trans h₂.declarations_prefix
  lookup_index h := h₂.lookup_index (h₁.lookup_index h)

/-- A further scope under a fragment that was not there hides no other. -/
lemma adopt {fragment : String} (h : s.index.lookup fragment = none) (number : Nat) :
    s.GrowsInto (s.adopt fragment number) where
  kind_eq := rfl
  fragment_eq := rfl
  parent_eq := rfl
  children_prefix := List.prefix_append _ _
  declarations_prefix := List.prefix_rfl
  lookup_index {key c} hc := by
    have hne : key ≠ fragment := by
      rintro rfl
      rw [h] at hc
      cases hc
    rw [Scope.adopt, List.lookup_cons, beq_eq_false_iff_ne.2 hne]
    exact hc

lemma declarations (s : Scope) (texts : List String) :
    s.GrowsInto { s with declarations := s.declarations ++ texts } :=
  ⟨rfl, rfl, rfl, List.prefix_rfl, List.prefix_append _ _, id⟩

end Scope.GrowsInto

/-! ### Plans -/

namespace Plan

variable {seed : Seed} {plan later last : Plan} {agenda : List Step}

/-- A plan in which every scope of another one is there, in a later state. -/
def GrowsInto (plan later : Plan) : Prop :=
  ∀ id s, plan.scope? id = some s → ∃ t, later.scope? id = some t ∧ s.GrowsInto t

namespace GrowsInto

protected lemma refl (plan : Plan) : plan.GrowsInto plan :=
  fun _ s hs => ⟨s, hs, .refl s⟩

protected lemma trans (h₁ : plan.GrowsInto later) (h₂ : later.GrowsInto last) :
    plan.GrowsInto last := by
  intro id s hs
  obtain ⟨t, ht, hst⟩ := h₁ id s hs
  obtain ⟨u, hu, htu⟩ := h₂ id t ht
  exact ⟨u, hu, hst.trans htu⟩

lemma child? (h : plan.GrowsInto later) {host c : Nat} {key : String}
    (hc : plan.child? host key = some c) : later.child? host key = some c := by
  obtain ⟨s, hs, hfound⟩ := Option.bind_eq_some_iff.1 hc
  obtain ⟨t, ht, hst⟩ := h host s hs
  exact Option.bind_eq_some_iff.2 ⟨t, ht, hst.lookup_index hfound⟩

/-- A path leads where it led, from whatever scope it starts. -/
lemma follow (h : plan.GrowsInto later) {path : List String} {start id : Nat}
    (hp : plan.follow start path = some id) : later.follow start path = some id := by
  induction path generalizing start with
  | nil => exact hp
  | cons key rest ih =>
    rw [Plan.follow] at hp ⊢
    obtain ⟨c, hc, hrest⟩ := Option.bind_eq_some_iff.1 hp
    rw [h.child? hc, Option.bind_some]
    exact ih hrest

end GrowsInto

/-! ### Growth -/

lemma growsInto_enter (r : Request) : plan.GrowsInto (plan.enter r) := by
  cases hc : plan.child? r.host r.fragment with
  | some c =>
    rw [enter_of_some hc]
    exact .refl plan
  | none =>
    intro id s hs
    have hlt := lt_size hs
    rw [scope?_enter hc, if_neg (by omega : ¬ id = plan.size)]
    split
    · rename_i hid
      have hnone : s.index.lookup r.fragment = none := by
        rw [← hid, child?, hs, Option.bind_some] at hc
        exact hc
      exact ⟨_, by rw [hs, Option.map_some], .adopt hnone plan.size⟩
    · exact ⟨s, hs, .refl s⟩

lemma growsInto_grant (request : Option Request) : plan.GrowsInto (plan.grant request) := by
  cases request with
  | none => exact .refl plan
  | some r => exact growsInto_enter r

lemma growsInto_declareAll (writes : List (Nat × String)) :
    plan.GrowsInto (plan.declareAll writes) := by
  intro id s hs
  refine ⟨_, ?_, .declarations s (textsAt id writes)⟩
  rw [scope?_declareAll, hs, Option.map_some]

lemma growsInto_after (plan : Plan) (step : Step) (writes : List (Nat × String)) :
    plan.GrowsInto (plan.after step writes) :=
  (growsInto_grant step.request?).trans (growsInto_declareAll writes)

/-- A run only appends, whether it finishes or not. -/
lemma growsInto_left_run : plan.GrowsInto (left (run seed agenda plan)) :=
  rel_left_run .refl .trans growsInto_after

/-- **Builds only append**: whatever is built into whatever scope of a plan, and whether or not it
is built to the end, every scope keeps its number, its kind, its fragment and the scope around it,
its children and its declarations come first in what it lists and declares afterwards, and every
path from the root leads to the scope that it led to. -/
theorem onlyAppends_build (plan : Plan) (target : Nat) (d : Descriptor) (seed : Seed) :
    plan.GrowsInto (left (plan.build target d seed))
      ∧ ∀ path id, plan.lookup path = some id →
          (left (plan.build target d seed)).lookup path = some id := by
  have hgrows : plan.GrowsInto (left (plan.build target d seed)) := growsInto_left_run
  exact ⟨hgrows, fun path id hp => hgrows.follow hp⟩

end Plan

end Stylesheet
