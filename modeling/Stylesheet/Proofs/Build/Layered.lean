/-
The layers of a plan: the stylesheet, its media blocks, and what is in either of them.

* `Plan.Layered`: only the root is a stylesheet, and media blocks are right under it;
* `Step.AsksInLayers`: what a step asks for keeps the layers apart;
* `Plan.InLayers`: a layered plan and an agenda that keeps it so;
* `Plan.layered_of_reachable`: whatever was built into a plan, finished or not, it is layered;
* `Layered.eq_of_mem_ancestors`: no media block stands under another one.

This holds of plans with and without a stylesheet as their root. Where the root is a rule on its
own, there are no media blocks at all, as they find no host.
-/
import Stylesheet.Proofs.Build.Reachable

namespace Stylesheet

open Plan

/-! ### Steps -/

/-- A step asks for a media block only under a stylesheet, and for a stylesheet nowhere. -/
def Step.AsksInLayers (plan : Plan) : Step → Prop
  | .query host _ _ _ => plan.kind? host = some .global
  | .scope r _ _ => r.kind ≠ .global ∧ r.kind ≠ .media
  | _ => True

namespace Step

variable {seed : Seed} {plan later : Plan} {step : Step} {writes : List (Nat × String)}
  {more : List Step}

lemma AsksInLayers.mono (h : step.AsksInLayers plan) (ht : step.target < plan.size)
    (he : plan.Extends later) : step.AsksInLayers later := by
  cases step with
  | query host selector path q =>
    have hk : later.kind? host = plan.kind? host := he.kind? ht
    exact hk.trans h
  | _ => exact h

/-- What a step asks for, as a request. -/
lemma AsksInLayers.request {r : Request} (h : step.AsksInLayers plan)
    (hr : step.request? = some r) :
    r.host = step.target ∧ r.kind ≠ .global
      ∧ (r.kind = .media → plan.kind? r.host = some .global) := by
  cases step with
  | query host selector path q =>
    cases hr
    exact ⟨rfl, nofun, fun _ => h⟩
  | scope r' path body =>
    cases hr
    exact ⟨rfl, h.1, fun hm => absurd hm h.2⟩
  | _ => cases hr

lemma asksInLayers_of_mem_ofBody {id : Nat} {path : String} {body : Descriptor}
    (h : step ∈ ofBody id path body) : step.AsksInLayers plan := by
  obtain ⟨e, _, rfl⟩ := List.mem_map.1 h
  exact trivial

lemma DirectiveDoes.asksInLayers {id : Nat} {path : String} {d : Directive}
    (hd : DirectiveDoes seed plan id path d writes more) : ∀ s ∈ more, s.AsksInLayers plan := by
  cases hd with
  | atRules hh => exact List.forall_mem_nil _
  | keyframes hh => exact List.forall_mem_map.2 fun _ _ => trivial
  | mixins hh => exact List.forall_mem_map.2 fun _ _ => trivial
  | media hh =>
    intro s hs
    obtain ⟨_, _, rfl⟩ := eq_query_of_mem_ofQueries hs
    exact (mediaHost_eq_ok hh).2.2.2
  | overrides => exact List.forall_mem_map.2 fun _ _ => trivial
  | nested => exact List.forall_mem_singleton.2 ⟨nofun, nofun⟩
  | rule hk hb => exact List.forall_mem_singleton.2 ⟨nofun, nofun⟩
  | declaration hk hl => exact List.forall_mem_nil _

/-- What a step leaves behind keeps the layers apart. -/
lemma Does.asksInLayers (hd : Does seed plan step writes more) :
    ∀ s ∈ more, s.AsksInLayers (plan.grant step.request?) := by
  cases hd with
  | entry ha hc hd => exact hd.asksInLayers
  | mixin hb => exact List.forall_mem_singleton.2 ⟨nofun, nofun⟩
  | query => exact List.forall_mem_singleton.2 ⟨nofun, nofun⟩
  | scope => exact fun s hs => asksInLayers_of_mem_ofBody hs
  | _ => exact List.forall_mem_nil _

end Step

/-! ### Plans -/

namespace Plan

variable {seed : Seed} {plan : Plan} {step : Step} {agenda rest more : List Step}
  {writes : List (Nat × String)} {id a : Nat}

/-- Only the root is a stylesheet, and media blocks are right under it. -/
structure Layered (plan : Plan) : Prop where
  eq_zero_of_global : ∀ {id}, plan.kind? id = some .global → id = 0
  parent?_of_media : ∀ {id}, plan.kind? id = some .media →
    plan.parent? id = some 0 ∧ plan.kind? 0 = some .global

namespace Layered

/-- A plan with a single scope that is no media block is layered. -/
lemma singleton {kind : Kind} (hk : kind ≠ .media) (fragment : String) :
    Layered ⟨[{ kind := kind, fragment := fragment }]⟩ where
  eq_zero_of_global {id} h := Nat.lt_one_iff.1 (lt_size_of_kind? h)
  parent?_of_media {id} h := by
    obtain rfl : id = 0 := Nat.lt_one_iff.1 (lt_size_of_kind? h)
    exact absurd (Option.some.inj h) hk

lemma enter (h : plan.Layered) {r : Request} (hg : r.kind ≠ .global)
    (hm : r.kind = .media → plan.kind? r.host = some .global) : (plan.enter r).Layered := by
  cases hc : plan.child? r.host r.fragment with
  | some c => rwa [enter_of_some hc]
  | none =>
    refine ⟨fun {id} hk => ?_, fun {id} hk => ?_⟩
    · rw [kind?_enter hc] at hk
      split at hk
      · exact absurd (Option.some.inj hk) hg
      · exact h.eq_zero_of_global hk
    · rw [kind?_enter hc] at hk
      rw [parent?_enter hc]
      have hroot : ∀ {p}, plan.kind? p = some .global → p = 0 →
          (plan.enter r).kind? 0 = some .global := by
        rintro p hp rfl
        rw [(extends_enter r).kind? (lt_size_of_kind? hp), hp]
      split at hk
      · rename_i he
        have hhost := hm (Option.some.inj hk)
        have h₀ := h.eq_zero_of_global hhost
        exact ⟨by rw [if_pos he, h₀], hroot hhost h₀⟩
      · rename_i he
        obtain ⟨hp, hk₀⟩ := h.parent?_of_media hk
        exact ⟨by rw [if_neg he, hp], hroot hk₀ rfl⟩

lemma declareAll (h : plan.Layered) (writes : List (Nat × String)) :
    (plan.declareAll writes).Layered where
  eq_zero_of_global {id} hk := by
    rw [kind?_declareAll] at hk
    exact h.eq_zero_of_global hk
  parent?_of_media {id} hk := by
    rw [kind?_declareAll] at hk
    rw [parent?_declareAll, kind?_declareAll]
    exact h.parent?_of_media hk

/-- No media block stands under another one. -/
lemma eq_of_mem_ancestors (h : plan.Layered) (hw : plan.WellFormed)
    (hk : plan.kind? id = some .media) (ha : a ∈ plan.ancestors id)
    (hka : plan.kind? a = some .media) : a = id := by
  obtain ⟨hp, hroot⟩ := h.parent?_of_media hk
  rw [hw.ancestors_of_parent? hp, hw.ancestors_root] at ha
  rcases List.mem_cons.1 ha with rfl | ha
  · rfl
  · rw [List.mem_singleton.1 ha, hroot] at hka
    cases hka

end Layered

/-- A layered plan, and an agenda about its scopes that keeps it layered. -/
structure InLayers (agenda : List Step) (plan : Plan) : Prop extends Ready agenda plan where
  layered : plan.Layered
  asks : ∀ step ∈ agenda, step.AsksInLayers plan

namespace InLayers

/-- The build of a body into a scope of a layered plan starts in layers. -/
lemma ofBody (hw : plan.WellFormed) (hl : plan.Layered) (hid : id < plan.size) (path : String)
    (body : Descriptor) : InLayers (Step.ofBody id path body) plan where
  toReady := .ofBody hw hid path body
  layered := hl
  asks _ hs := Step.asksInLayers_of_mem_ofBody hs

/-- After a step that was performed, a plan is as layered as before. -/
lemma performed (h : InLayers (step :: rest) plan) (hd : Step.Does seed plan step writes more) :
    InLayers (more ++ rest) (plan.after step writes) where
  toReady := h.toReady.performed hd
  layered := by
    refine Layered.declareAll ?_ writes
    cases hr : step.request? with
    | none => exact h.layered
    | some r =>
      obtain ⟨_, hg, hm⟩ := (h.asks step List.mem_cons_self).request hr
      exact h.layered.enter hg hm
  asks s hs := by
    have ht := h.targets step List.mem_cons_self
    rcases List.mem_append.1 hs with hs | hs
    · exact (hd.asksInLayers s hs).mono ((hd.targets h.wellFormed ht).2 s hs)
        (extends_declareAll writes)
    · have hs' := List.mem_cons_of_mem step hs
      exact (h.asks s hs').mono (h.targets s hs') (extends_after plan step writes)

/-- A run keeps a plan layered, whether it finishes or not. -/
lemma layered_left_run (h : InLayers agenda plan) : (left (run seed agenda plan)).Layered := by
  obtain ⟨_, hleft⟩ := exists_left_run (fun _ _ _ _ _ h hd => h.performed hd) h
  exact hleft.layered

end InLayers

/-- Reachable plans are layered. -/
lemma layered_of_reachable (h : plan.Reachable) : plan.Layered := by
  induction h with
  | empty => exact .singleton (show Kind.global ≠ .media from nofun) ""
  | standalone fragment => exact .singleton (show Kind.element ≠ .media from nofun) fragment
  | build h ht d seed ih =>
    exact (InLayers.ofBody (wellFormed_of_reachable h) ih ht _ d).layered_left_run

end Plan

end Stylesheet
