/-
Orderly builds: what a build asks for, and where.

* `Step.Regular`: which scopes a step asks for;
* `Step.Does.regular`: the steps that a step leaves behind are regular;
* `Plan.Orderly`: a rooted plan whose media blocks are under the root and named by their preludes,
  and an agenda of regular steps about its scopes;
* `Orderly.performed`, `Orderly.of_ofDescriptor`: builds stay orderly, to their end;
* `Orderly.answered_by_media`: of regular requests only those for a mixin or for a body under `&`
  are answered by a media block, and only at the root.
-/
import Stylesheet.Proofs.Build.Reading

namespace Stylesheet

namespace Step

open Plan

variable {seed : Seed} {plan : Plan} {step : Step} {writes : List (Nat × String)}
  {more : List Step}

/-- Which scopes a step asks for: global text and media blocks at the root, and elements there only
for names of rules. -/
def Regular : Step → Prop
  | .keyframes host _ => host = 0
  | .query host _ _ _ => host = 0
  | .scope r _ _ =>
    r.kind = .mixin ∨ r.kind = .nested
      ∨ r.kind = .element ∧ (r.host ≠ 0 ∨ ∃ name, r.fragment = "." ++ name)
  | _ => True

lemma regular_of_mem_ofBody {id : Nat} {path : String} {body : Descriptor}
    (h : step ∈ ofBody id path body) : step.Regular := by
  obtain ⟨e, _, rfl⟩ := List.mem_map.1 h
  exact trivial

lemma DirectiveDoes.regular {id : Nat} {path : String} {d : Directive} (h : plan.Rooted)
    (hd : DirectiveDoes seed plan id path d writes more) : ∀ s ∈ more, s.Regular := by
  cases hd with
  | atRules hh => exact List.forall_mem_nil _
  | keyframes hh =>
    intro s hs
    obtain ⟨rule, _, rfl⟩ := List.mem_map.1 hs
    exact h.globalHost_eq_zero hh
  | mixins hh =>
    intro s hs
    obtain ⟨e, _, rfl⟩ := List.mem_map.1 hs
    exact trivial
  | media hh =>
    intro s hs
    obtain ⟨_, _, rfl⟩ := eq_query_of_mem_ofQueries hs
    exact h.mediaHost_eq_zero hh
  | overrides =>
    intro s hs
    obtain ⟨m, _, rfl⟩ := List.mem_map.1 hs
    exact trivial
  | nested => exact List.forall_mem_singleton.2 (.inr (.inl rfl))
  | rule hk hb => exact List.forall_mem_singleton.2 (.inr (.inr ⟨rfl, .inr ⟨_, rfl⟩⟩))
  | declaration hk hl => exact List.forall_mem_nil _

/-- What a step leaves behind is regular. -/
lemma Does.regular (h : plan.Rooted) (ht : step.target < plan.size)
    (hd : Does seed plan step writes more) : ∀ s ∈ more, s.Regular := by
  cases hd with
  | entry ha hc hd => exact hd.regular h
  | mixin hb => exact List.forall_mem_singleton.2 (.inl rfl)
  | query =>
    exact List.forall_mem_singleton.2
      (.inr (.inr ⟨rfl, .inl (h.wellFormed.answer_ne_zero _ ht)⟩))
  | scope => exact fun s hs => regular_of_mem_ofBody hs
  | _ => exact List.forall_mem_nil _

/-- What a regular step asks for is no stylesheet, and a media block only under its prelude at the
root. -/
lemma Regular.request {r : Request} (hs : step.Regular) (hr : step.request? = some r) :
    r.host = step.target ∧ r.kind ≠ .global
      ∧ (r.kind = .media → r.host = 0 ∧ ∃ q : MediaQuery, r.fragment = q.target) := by
  cases step with
  | query host selector path q =>
    cases hr
    exact ⟨rfl, nofun, fun _ => ⟨hs, q, rfl⟩⟩
  | scope r' path body =>
    cases hr
    rcases hs with hk | hk | ⟨hk, _⟩ <;> rw [hk] <;> exact ⟨rfl, nofun, nofun⟩
  | _ => cases hr

end Step

namespace Plan

variable {seed : Seed} {plan : Plan} {step : Step} {agenda rest more : List Step}
  {writes : List (Nat × String)}

/-- The media blocks of a plan are under the root, and their preludes are their fragments. -/
def MediaAtRoot (plan : Plan) : Prop :=
  ∀ id, plan.kind? id = some .media →
    plan.parent? id = some 0 ∧ ∃ q : MediaQuery, plan.fragment? id = some q.target

lemma MediaAtRoot.enter (h : plan.MediaAtRoot) {r : Request}
    (hr : r.kind = .media → r.host = 0 ∧ ∃ q : MediaQuery, r.fragment = q.target) :
    (plan.enter r).MediaAtRoot := by
  cases hc : plan.child? r.host r.fragment with
  | some c => rwa [enter_of_some hc]
  | none =>
    intro id hk
    rw [kind?_enter hc] at hk
    rw [parent?_enter hc, fragment?_enter hc]
    split at hk
    · rename_i he
      obtain ⟨hhost, q, hq⟩ := hr (Option.some.inj hk)
      rw [if_pos he, if_pos he, hhost, hq]
      exact ⟨rfl, q, rfl⟩
    · rename_i he
      rw [if_neg he, if_neg he]
      exact h id hk

lemma MediaAtRoot.declareAll (h : plan.MediaAtRoot) (writes : List (Nat × String)) :
    (plan.declareAll writes).MediaAtRoot := by
  intro id hk
  rw [kind?_declareAll] at hk
  rw [parent?_declareAll, fragment?_declareAll]
  exact h id hk

/-- A rooted plan whose media blocks are at the root, and an agenda of regular steps about its
scopes. -/
structure Orderly (agenda : List Step) (plan : Plan) : Prop where
  rooted : plan.Rooted
  media : plan.MediaAtRoot
  targets : ∀ step ∈ agenda, step.target < plan.size
  regular : ∀ step ∈ agenda, step.Regular

namespace Orderly

/-- The build of a descriptor starts orderly. -/
lemma build (d : Descriptor) : Orderly (Step.ofBody 0 "" d) empty where
  rooted := rooted_empty
  media id hk := by
    cases id with
    | zero => cases hk
    | succ id => cases hk
  targets step hs := by
    rw [Step.target_of_mem_ofBody hs]
    exact Nat.one_pos
  regular step hs := Step.regular_of_mem_ofBody hs

/-- After a step that was performed, a build is as orderly as before. -/
lemma performed (h : Orderly (step :: rest) plan) (hd : Step.Does seed plan step writes more) :
    Orderly (more ++ rest) (plan.after step writes) := by
  have ht := h.targets step List.mem_cons_self
  have hs := h.regular step List.mem_cons_self
  have hready : Ready (step :: rest) plan := ⟨h.rooted.wellFormed, h.targets⟩
  refine ⟨h.rooted.after ?_ writes, ?_, (hready.performed hd).targets, ?_⟩
  · intro r hr
    obtain ⟨hhost, hk, _⟩ := hs.request hr
    exact ⟨hhost ▸ ht, hk⟩
  · refine MediaAtRoot.declareAll ?_ writes
    cases hreq : step.request? with
    | none => exact h.media
    | some r => exact h.media.enter (hs.request hreq).2.2
  · intro s hm
    rcases List.mem_append.1 hm with hm | hm
    · exact hd.regular h.rooted ht s hm
    · exact h.regular s (List.mem_cons_of_mem _ hm)

/-- Before every step of an orderly run, plan and agenda are orderly. -/
lemma of_mem_trace (h : Orderly agenda plan) {e : Plan × Step} (he : e ∈ trace seed agenda plan) :
    ∃ rest, Orderly (e.2 :: rest) e.1 :=
  forall_mem_trace (P := fun plan step => ∃ rest, Orderly (step :: rest) plan)
    (fun _ rest _ h => ⟨rest, h⟩) (fun _ _ _ _ _ h hd => h.performed hd) h e he

/-- After a finished run, a build is as orderly as before. -/
lemma of_run (h : Orderly agenda plan) {final : Plan} (hrun : run seed agenda plan = .ok final) :
    Orderly [] final :=
  Plan.of_run (fun _ _ _ _ _ h hd => h.performed hd) h hrun

/-- The plan of a descriptor is orderly. -/
lemma of_ofDescriptor {d : Descriptor} (h : ofDescriptor d seed = .ok plan) : Orderly [] plan :=
  (build d).of_run (ofDescriptor_eq_ok.1 h)

/-- A request for a body is answered by a media block only if it is for a mixin or for a body under
`&`, at the root, and its fragment is a prelude. -/
lemma answered_by_media {r : Request} {path : String} {body : Descriptor}
    (h : Orderly (.scope r path body :: rest) plan)
    (hk : (plan.enter r).kind? (plan.answer r) = some .media) :
    r.host = 0 ∧ (r.kind = .mixin ∨ r.kind = .nested)
      ∧ ∃ q : MediaQuery, r.fragment = q.target := by
  have ht : r.host < plan.size := h.targets _ List.mem_cons_self
  have hs := h.regular _ List.mem_cons_self
  have hw := h.rooted.wellFormed
  obtain ⟨hp, q, hq⟩ := (h.media.enter (hs.request rfl).2.2) _ hk
  rw [hw.parent?_answer, Option.some.injEq] at hp
  rw [hw.fragment?_answer, Option.some.injEq] at hq
  refine ⟨hp, ?_, q, hq⟩
  rcases hs with hm | hn | ⟨_, hr⟩
  · exact .inl hm
  · exact .inr hn
  · rcases hr with hr | ⟨name, hr⟩
    · exact absurd hp hr
    · -- a class selector starts with a point, a prelude does not
      rw [hq] at hr
      have hchars := congrArg String.toList hr
      simp [MediaQuery.target, MediaQuery.prelude] at hchars

end Orderly

end Plan

end Stylesheet
