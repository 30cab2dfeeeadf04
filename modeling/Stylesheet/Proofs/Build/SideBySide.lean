/-
Two builds side by side.

* `Step.moveTo`: a step about another scope;
* `Step.Matches`, `Plan.MatchesWrite`: the same step, and the same declaration, in scopes that
  match;
* `Step.Does.matched`: steps that match do the same;
* `SideBySide.exists_run`: a run that finishes on a small plan finishes on the big one beside it,
  and makes the same declarations in scopes that match.
-/
import Stylesheet.Proofs.Build.Orderly
import Stylesheet.Proofs.Plan.SideBySide

namespace Stylesheet

/-- Two declarations are the same text in scopes that match. -/
def Plan.MatchesWrite (plan other : Plan) (w w' : Nat × String) : Prop :=
  plan.Matches other w.1 w'.1 ∧ w'.2 = w.2

namespace Step

open Plan

/-- The same step about another scope. -/
def moveTo (host : Nat) : Step → Step
  | .entry _ path key value => .entry host path key value
  | .keyframes _ rule => .keyframes host rule
  | .override _ mapping => .override host mapping
  | .mixin _ path name value => .mixin host path name value
  | .query _ selector path q => .query host selector path q
  | .scope r path body => .scope (r.moveTo host) path body

/-- Two steps are the same about scopes that match. -/
def Matches (plan other : Plan) (step step' : Step) : Prop :=
  ∃ host, plan.Matches other step.target host ∧ step' = step.moveTo host

variable {seed : Seed} {plan other later later' first second small big : Plan} {step step' : Step}
  {writes : List (Nat × String)} {more : List Step} {id id' host' : Nat} {path : String}

lemma Matches.mono (h : Matches plan other step step') (he : plan.Extends later)
    (he' : other.Extends later') : Matches later later' step step' := by
  obtain ⟨host, hm, hs⟩ := h
  exact ⟨host, hm.mono he he', hs⟩

lemma request?_moveTo (host : Nat) (step : Step) :
    (step.moveTo host).request? = step.request?.map (Request.moveTo host) := by
  cases step <;> rfl

/-! ### Matching agendas -/

lemma matches_map {α : Type} {f : α → Step} (hm : plan.Matches other id id')
    (hf : ∀ x, (f x).target = id) (xs : List α) :
    List.Forall₂ (Matches plan other) (xs.map f) (xs.map fun x => (f x).moveTo id') :=
  forall₂_map (fun x => ⟨id', (hf x).symm ▸ hm, rfl⟩) xs

lemma matches_ofBody (hm : plan.Matches other id id') (path : String) (body : Descriptor) :
    List.Forall₂ (Matches plan other) (ofBody id path body) (ofBody id' path body) :=
  matches_map hm (fun _ => rfl) body.entries

/-! ### One step -/

/-- A directive does the same in scopes that match. -/
lemma DirectiveDoes.matched {d : Directive} (h : plan.Rooted) (h' : other.Rooted)
    (hm : plan.Matches other id id') (hd : DirectiveDoes seed plan id path d writes more) :
    ∃ writes' more', DirectiveDoes seed other id' path d writes' more'
      ∧ List.Forall₂ (plan.MatchesWrite other) writes writes'
      ∧ List.Forall₂ (Matches plan other) more more' := by
  have hroot : plan.Matches other 0 0 := .root h h'
  cases hd with
  | @atRules rules host hh =>
    obtain rfl := h.globalHost_eq_zero hh
    refine ⟨_, _, .atRules (hm.globalHost h h' hh), ?_, .nil⟩
    exact forall₂_map (fun rule => ⟨hroot, rfl⟩) rules
  | @keyframes rules host hh =>
    obtain rfl := h.globalHost_eq_zero hh
    exact ⟨_, _, .keyframes (hm.globalHost h h' hh), .nil, matches_map hroot (fun _ => rfl) rules⟩
  | @mixins body host hh =>
    obtain ⟨host', hh', hmh⟩ := hm.mixinHost h h' hh
    exact ⟨_, _, .mixins hh', .nil, matches_map hmh (fun _ => rfl) body.entries⟩
  | @media queries host hh =>
    obtain rfl := h.mediaHost_eq_zero hh
    refine ⟨_, _, .media (hm.mediaHost h h' hh), .nil, ?_⟩
    rw [hm.selector]
    exact forall₂_ofQueries (fun _ _ => ⟨0, hroot, rfl⟩) 0 queries
  | @overrides mappings => exact ⟨_, _, .overrides, .nil, matches_map hm (fun _ => rfl) mappings⟩
  | nested => exact ⟨_, _, .nested, .nil, .cons ⟨id', hm, rfl⟩ .nil⟩
  | rule hk hb =>
    rw [← hm.kind? h.wellFormed h'.wellFormed] at hk
    exact ⟨_, _, .rule hk hb, .nil, .cons ⟨id', hm, rfl⟩ .nil⟩
  | declaration hk hl =>
    rw [← hm.kind? h.wellFormed h'.wellFormed] at hk
    exact ⟨_, _, .declaration hk hl, .cons ⟨hm, rfl⟩ .nil, .nil⟩

/-- Steps that match do the same. -/
lemma Does.matched (h : SideBySide first small big) (hk : KindsAgree first second)
    (hext : (small.grant step.request?).Extends second)
    (hm : small.Matches big step.target host') (hd : Does seed small step writes more) :
    ∃ writes' more', Does seed big (step.moveTo host') writes' more'
      ∧ List.Forall₂ (small.MatchesWrite big) writes writes'
      ∧ List.Forall₂ (Matches (small.grant step.request?) (big.grant (step.moveTo host').request?))
          more more' := by
  cases hd with
  | absentEntry ha => exact ⟨_, _, .absentEntry ha, .nil, .nil⟩
  | entry ha hc hd =>
    obtain ⟨writes', more', hd', hw, hs⟩ := hd.matched h.rooted h.rooted_big hm
    exact ⟨writes', more', .entry ha hc hd', hw, hs⟩
  | keyframes hr => exact ⟨_, _, .keyframes hr, .cons ⟨hm, rfl⟩ .nil, .nil⟩
  | override ht =>
    refine ⟨_, _, .override ht, ?_, .nil⟩
    split
    · exact .nil
    · exact .cons ⟨hm, rfl⟩ .nil
  | absentMixin ha => exact ⟨_, _, .absentMixin ha, .nil, .nil⟩
  | mixin hb => exact ⟨_, _, .mixin hb, .nil, .cons ⟨host', hm, rfl⟩ .nil⟩
  | @query host selector path q =>
    have hmq := h.matches_answer (r := ⟨host, .media, q.target⟩) hk hm hext
    exact ⟨_, _, .query, .nil, .cons ⟨_, hmq, rfl⟩ .nil⟩
  | @scope r path body =>
    exact ⟨_, _, .scope, .nil, matches_ofBody (h.matches_answer hk hm hext) path body⟩

end Step

namespace Plan

variable {seed : Seed} {first second small big : Plan} {step : Step}
  {agenda agenda' rest : List Step} {writes : List (Nat × String)} {host' : Nat}

/-! ### A run -/

lemma MatchesWrite.mono {plan other later later' : Plan} {w w' : Nat × String}
    (h : plan.MatchesWrite other w w') (he : plan.Extends later) (he' : other.Extends later') :
    later.MatchesWrite later' w w' :=
  ⟨h.1.mono he he', h.2⟩

namespace SideBySide

/-- Regular steps that match keep plans side by side. -/
lemma performed (h : SideBySide first small big) (hk : KindsAgree first second)
    (hs : step.Regular) (hm : small.Matches big step.target host')
    (hext : (small.grant step.request?).Extends second) (writes writes' : List (Nat × String)) :
    SideBySide first (small.after step writes) (big.after (step.moveTo host') writes') := by
  refine declareAll ?_ writes writes'
  cases hreq : step.request? with
  | none =>
    rw [Step.request?_moveTo, hreq]
    exact h
  | some r =>
    obtain ⟨hhost, hglobal, _⟩ := hs.request hreq
    rw [hreq] at hext
    rw [Step.request?_moveTo, hreq]
    exact h.enter hk (hhost ▸ hm) hglobal hext

/-- A run that finishes on a small plan finishes on the big one beside it, and makes the same
declarations in scopes that match. -/
lemma exists_run (hk : KindsAgree first second) (h : SideBySide first small big)
    (ho : Orderly agenda small) (hm : List.Forall₂ (Step.Matches small big) agenda agenda')
    (hrun : run seed agenda small = .ok second) :
    ∃ final, run seed agenda' big = .ok final
      ∧ List.Forall₂ (second.MatchesWrite final) (journal seed agenda small)
          (journal seed agenda' big) := by
  induction agenda, small using run_induction seed generalizing big agenda' with
  | nil small =>
    cases hm
    exact ⟨big, run_nil, by rw [journal_nil, journal_nil]; exact .nil⟩
  | refused step rest small e he =>
    rw [run_refused he] at hrun
    cases hrun
  | performed step rest small writes more he hd ih =>
    obtain ⟨_, rest', ⟨host', hmt, rfl⟩, hrest, rfl⟩ := List.forall₂_cons_left_iff.1 hm
    rw [run_performed he] at hrun
    have hext := extends_of_run hrun
    have hgrant : (small.grant step.request?).Extends second :=
      (extends_declareAll writes).trans hext
    obtain ⟨writes', more', hd', hwrites, hmore⟩ := hd.matched h hk hgrant hmt
    have hnext := h.performed hk (ho.regular step List.mem_cons_self) hmt hgrant writes writes'
    have hmatched : List.Forall₂
        (Step.Matches (small.after step writes) (big.after (step.moveTo host') writes'))
        (more ++ rest) (more' ++ rest') :=
      List.rel_append
        (hmore.imp fun _ _ hs => hs.mono (extends_declareAll _) (extends_declareAll _))
        (hrest.imp fun _ _ hs => hs.mono (extends_after _ _ _) (extends_after _ _ _))
    obtain ⟨final, hrun', hjournal⟩ := ih hnext (ho.performed hd) hmatched hrun
    have hfinal := (extends_after big (step.moveTo host') writes').trans (extends_of_run hrun')
    refine ⟨final, by rw [run_performed hd'.effect]; exact hrun', ?_⟩
    rw [journal_performed he, journal_performed hd'.effect]
    refine List.rel_append (hwrites.imp fun _ _ hw => hw.mono ?_ hfinal) hjournal
    exact (extends_after small step writes).trans hext

end SideBySide

end Plan

end Stylesheet
