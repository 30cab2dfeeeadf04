/-
Which scopes stand under which.

* `Kind.StandsUnder`: the kinds of scopes that stand right under a scope of a kind;
* `Plan.Stacked`: a plan all of whose scopes stand under scopes of such kinds;
* `Step.AsksStacked`: what a step asks for, or is to ask for, may stand under its host;
* `Plan.Stacking`: a tidy build of a stacked plan, with an agenda that keeps it stacked;
* `Stacking.performed`, `Stacking.of_ofDescriptor`: builds stay stacked, to their end.

A scope that is there already answers requests for other kinds too. Then it has the kind that was
asked for first, and what is built into it goes by that kind, so that a mixin that is built into an
element hosts no mixins and a nested scope that answers for an element has its bodies under it.
-/
import Stylesheet.Proofs.Build.Acceptance

namespace Stylesheet

/-- The kinds of scopes that may stand right under a scope of a kind. -/
def Kind.StandsUnder : Kind → Kind → Prop
  | .global, _ => False
  | .media, around => around = .global
  | .element, around => around = .global ∨ around = .media
  | .mixin, around => around = .global ∨ around = .media ∨ around = .mixin
  | .nested, around => around ≠ .media

/-- A kind that hosts mixins. -/
def Kind.HostsMixins (kind : Kind) : Prop :=
  Kind.mixin.StandsUnder kind

namespace Plan

variable {plan : Plan} {r : Request}

/-- Every scope may stand under the scope around it. -/
def Stacked (plan : Plan) : Prop :=
  ∀ (id p : Nat) (kind around : Kind), plan.kind? id = some kind → plan.parent? id = some p →
    plan.kind? p = some around → kind.StandsUnder around

lemma stacked_empty : empty.Stacked := by
  intro id p kind around _ hp _
  cases id with
  | zero => cases hp
  | succ id => cases hp

lemma Stacked.enter (h : plan.Stacked) (hw : plan.WellFormed) (hr : r.host < plan.size)
    (hk : ∀ around, plan.kind? r.host = some around → r.kind.StandsUnder around) :
    (plan.enter r).Stacked := by
  cases hc : plan.child? r.host r.fragment with
  | some c => rwa [enter_of_some hc]
  | none =>
    intro id p kind around hkind hp haround
    rw [parent?_enter hc] at hp
    rw [kind?_enter hc] at hkind
    split at hp
    · rename_i he
      cases hp
      rw [if_pos he, Option.some.injEq] at hkind
      rw [(extends_enter r).kind? hr] at haround
      exact hkind ▸ hk around haround
    · rename_i he
      have hps : p < plan.size := Nat.lt_trans (hw.lt_of_parent? hp) (lt_size_of_parent? hp)
      rw [if_neg he] at hkind
      rw [(extends_enter r).kind? hps] at haround
      exact h id p kind around hkind hp haround

lemma Stacked.declareAll (h : plan.Stacked) (writes : List (Nat × String)) :
    (plan.declareAll writes).Stacked := by
  intro id p kind around hkind hp haround
  rw [kind?_declareAll] at hkind haround
  rw [parent?_declareAll] at hp
  exact h id p kind around hkind hp haround

/-- The host of mixins is of a kind that hosts mixins. -/
lemma hostsMixins_of_mixinHost {id host : Nat} (hh : plan.mixinHost id = .ok host) {kind : Kind}
    (hk : plan.kind? host = some kind) : kind.HostsMixins := by
  rcases mixinHost_eq_ok hh with ⟨rfl, hg | hm⟩ | ⟨_, _, hf⟩
  · exact .inl (Option.some.inj (hk.symm.trans hg))
  · exact .inr (.inr (Option.some.inj (hk.symm.trans hm)))
  · have hfound := List.find?_some hf
    rcases of_decide_eq_true hfound with hg | hm
    · exact .inl (Option.some.inj (hk.symm.trans hg))
    · exact .inr (.inl (Option.some.inj (hk.symm.trans hm)))

end Plan

/-! ### Steps -/

namespace Step

open Plan

variable {seed : Seed} {plan later : Plan} {step : Step} {writes : List (Nat × String)}
  {more : List Step}

/-- What a step asks for, or is to ask for, may stand under its host. -/
def AsksStacked (plan : Plan) : Step → Prop
  | .mixin host _ _ _ => ∀ kind, plan.kind? host = some kind → kind.HostsMixins
  | .query host _ _ _ => ∀ kind, plan.kind? host = some kind → kind = .global
  | .scope r _ _ => ∀ kind, plan.kind? r.host = some kind → r.kind.StandsUnder kind
  | _ => True

lemma AsksStacked.mono (h : step.AsksStacked plan) (ht : step.target < plan.size)
    (he : plan.Extends later) : step.AsksStacked later := by
  have hk : later.kind? step.target = plan.kind? step.target := he.kind? ht
  cases step with
  | mixin host path name value => exact fun kind hkind => h kind (hk.symm.trans hkind)
  | query host selector path q => exact fun kind hkind => h kind (hk.symm.trans hkind)
  | scope r path body => exact fun kind hkind => h kind (hk.symm.trans hkind)
  | _ => exact trivial

lemma DirectiveDoes.asksStacked {id : Nat} {path : String} {d : Directive}
    (hd : DirectiveDoes seed plan id path d writes more) (hm : plan.kind? id ≠ some .media) :
    ∀ s ∈ more, s.AsksStacked plan := by
  cases hd with
  | atRules hh => exact List.forall_mem_nil _
  | keyframes hh => exact List.forall_mem_map.2 fun _ _ => trivial
  | mixins hh =>
    exact List.forall_mem_map.2 fun _ _ _ hkind => hostsMixins_of_mixinHost hh hkind
  | media hh =>
    intro s hs
    obtain ⟨_, _, rfl⟩ := eq_query_of_mem_ofQueries hs
    exact fun kind hkind => Option.some.inj (hkind.symm.trans (mediaHost_eq_ok hh).2.2.2)
  | overrides => exact List.forall_mem_map.2 fun _ _ => trivial
  | nested => exact List.forall_mem_singleton.2 fun kind hkind he => hm (he ▸ hkind)
  | rule hk hb =>
    exact List.forall_mem_singleton.2 fun kind hkind =>
      .inl (Option.some.inj (hkind.symm.trans hk))
  | declaration hk hl => exact List.forall_mem_nil _

end Step

/-! ### Builds -/

namespace Plan

variable {seed : Seed} {plan : Plan} {step : Step} {agenda rest more : List Step}
  {writes : List (Nat × String)} {d : Descriptor}

/-- A tidy build of a stacked plan, with an agenda that keeps it stacked. -/
structure Stacking (agenda : List Step) (plan : Plan) : Prop extends Tidy agenda plan where
  stacked : plan.Stacked
  asks : ∀ step ∈ agenda, step.AsksStacked plan

namespace Stacking

lemma build (hd : d.AvoidsPreludes) : Stacking (Step.ofBody 0 "" d) empty where
  toTidy := .build hd
  stacked := stacked_empty
  asks step hs := by
    obtain ⟨e, _, rfl⟩ := List.mem_map.1 hs
    exact trivial

/-- What a step leaves behind asks for scopes that may stand under their hosts. -/
lemma asks_more (h : Stacking (step :: rest) plan) (hd : Step.Does seed plan step writes more) :
    ∀ s ∈ more, s.AsksStacked (plan.grant step.request?) := by
  have hask := h.asks step List.mem_cons_self
  cases hd with
  | entry ha hc hd => exact hd.asksStacked (h.entries _ _ _ _ List.mem_cons_self)
  | mixin hb => exact List.forall_mem_singleton.2 hask
  | query =>
    exact List.forall_mem_singleton.2 fun kind hkind =>
      .inr (Option.some.inj (hkind.symm.trans h.kind?_answer_query))
  | scope =>
    intro s hs
    obtain ⟨e, _, rfl⟩ := List.mem_map.1 hs
    exact trivial
  | _ => exact List.forall_mem_nil _

/-- After a step that was performed, a plan is as stacked as before. -/
lemma performed (h : Stacking (step :: rest) plan) (hd : Step.Does seed plan step writes more) :
    Stacking (more ++ rest) (plan.after step writes) where
  toTidy := h.toTidy.performed hd
  stacked := by
    have ht := h.targets step List.mem_cons_self
    have hask := h.asks step List.mem_cons_self
    refine Stacked.declareAll ?_ writes
    cases step with
    | query host selector path q => exact h.stacked.enter h.rooted.wellFormed ht hask
    | scope r path body => exact h.stacked.enter h.rooted.wellFormed ht hask
    | _ => exact h.stacked
  asks s hs := by
    rcases List.mem_append.1 hs with hs | hs
    · have ht := h.targets step List.mem_cons_self
      exact (h.asks_more hd s hs).mono ((hd.targets h.rooted.wellFormed ht).2 s hs)
        (extends_declareAll writes)
    · have hs' := List.mem_cons_of_mem step hs
      exact (h.asks s hs').mono (h.targets s hs') (extends_after plan step writes)

/-- The plan of a descriptor that avoids preludes is stacked. -/
lemma of_ofDescriptor (h : ofDescriptor d seed = .ok plan) (hd : d.AvoidsPreludes) :
    Stacking [] plan :=
  of_run (fun _ _ _ _ _ h hd => h.performed hd) (build hd) (ofDescriptor_eq_ok.1 h)

end Stacking

end Plan

end Stylesheet
