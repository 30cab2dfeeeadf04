/-
Two plans that grow side by side.

* `Plan.Matches`: a scope of one plan and a scope of another stand on chains of the same kinds and
  fragments;
* `Matches.selector`, `Matches.context`, `Matches.mixinHost`: scopes that match have the same
  selector and context, and hosts that match;
* `Plan.KindsAgree`: where two plans have scopes of the same path, these are of the same kind;
* `Plan.SideBySide`: a small plan beside a big one, which grew out of a first plan;
* `SideBySide.matches_answer`: if the first plan and what the small one grows into agree in kinds,
  what answers a request in the small plan matches what answers it in the big one.

Only fragments decide which scope answers a request, and only kinds decide where selectors start
anew and where mixins go. A second plan repeats itself beside a first one as long as kinds agree.
-/
import Stylesheet.Proofs.Build.Reachable
import Stylesheet.Proofs.Plan.Settings

namespace Stylesheet.Plan

/-- A scope of one plan and a scope of another stand on chains of the same kinds and fragments. -/
structure Matches (plan other : Plan) (id id' : Nat) : Prop where
  lt : id < plan.size
  lt_other : id' < other.size
  chain : other.chain id' = plan.chain id

variable {plan other later later' : Plan} {id id' host host' : Nat}

/-- A scope is in a media block if there is one on its chain. -/
lemma withinMedia_eq (plan : Plan) (id : Nat) :
    plan.withinMedia id = (plan.chain id).any fun e => decide (e.1 = .media) := by
  rw [withinMedia, chain, List.any_filterMap]
  refine congrArg _ (funext fun a => ?_)
  rw [kind?]
  cases plan.scope? a with
  | none => rfl
  | some s => simp

lemma Extends.path (h : plan.Extends later) (hid : id < plan.size) :
    later.path id = plan.path id := by
  rw [Plan.path, h.chain hid, Plan.path]

/-- No two scopes of a plan stand on the same chain. -/
lemma WellFormed.eq_of_chain (h : plan.WellFormed) (hid : id < plan.size) (hid' : id' < plan.size)
    (hc : plan.chain id' = plan.chain id) : id' = id := by
  have hpath : plan.path id' = plan.path id := by rw [path, hc, path]
  have hlookup := h.lookup_path hid'
  rw [hpath, h.lookup_path hid] at hlookup
  exact (Option.some.inj hlookup).symm

namespace Matches

lemma symm (h : plan.Matches other id id') : other.Matches plan id' id :=
  ⟨h.lt_other, h.lt, h.chain.symm⟩

lemma mono (h : plan.Matches other id id') (he : plan.Extends later) (he' : other.Extends later') :
    later.Matches later' id id' where
  lt := Nat.lt_of_lt_of_le h.lt he.size_le
  lt_other := Nat.lt_of_lt_of_le h.lt_other he'.size_le
  chain := by rw [he'.chain h.lt_other, he.chain h.lt, h.chain]

lemma path (h : plan.Matches other id id') : other.path id' = plan.path id := by
  rw [Plan.path, h.chain, Plan.path]

lemma selector (h : plan.Matches other id id') : other.selector id' = plan.selector id := by
  rw [Plan.selector, h.chain, Plan.selector]

lemma withinMedia (h : plan.Matches other id id') :
    other.withinMedia id' = plan.withinMedia id := by
  rw [withinMedia_eq, h.chain, withinMedia_eq]

section

variable (h : plan.Matches other id id') (hw : plan.WellFormed) (hw' : other.WellFormed)

include h hw hw'

lemma kind? : other.kind? id' = plan.kind? id := by
  rw [← hw'.head?_chain h.lt_other, h.chain, hw.head?_chain h.lt]

lemma context : other.context id' = plan.context id := by
  rw [Plan.context, h.chain, h.kind? hw hw', Plan.context]

/-- Scopes that match have the same fragment, and the scopes around them match. -/
lemma parent {p : Nat} (hp : plan.parent? id = some p) :
    other.fragment? id' = plan.fragment? id
      ∧ ∃ p', other.parent? id' = some p' ∧ plan.Matches other p p' := by
  obtain ⟨kind, fragment, hk, hf⟩ := exists_kind_fragment h.lt
  obtain ⟨kind', fragment', hk', hf'⟩ := exists_kind_fragment h.lt_other
  have hps : p < plan.size := Nat.lt_trans (hw.lt_of_parent? hp) h.lt
  have hc := h.chain
  rw [hw.chain_of_parent? hp hk hf] at hc
  cases hp' : other.parent? id' with
  | none =>
    obtain rfl := (hw'.parent?_eq_none h.lt_other).1 hp'
    obtain ⟨kindp, fragmentp, hkp, hfp⟩ := exists_kind_fragment hps
    obtain ⟨around, hcp⟩ := hw.chain_eq_cons hkp hfp
    rw [hw'.chain_root hk' hf', hcp] at hc
    cases hc
  | some p' =>
    rw [hw'.chain_of_parent? hp' hk' hf', List.cons.injEq, Prod.mk.injEq] at hc
    obtain ⟨⟨_, rfl⟩, hc⟩ := hc
    have hps' : p' < other.size := Nat.lt_trans (hw'.lt_of_parent? hp') h.lt_other
    exact ⟨hf'.trans hf.symm, p', rfl, hps, hps', hc⟩

/-- The nearest global or media scopes around scopes that match do so as well. -/
lemma find? (hf : (plan.ancestors id).find?
    (fun a => plan.kind? a = some .global ∨ plan.kind? a = some .media) = some host) :
    ∃ host', (other.ancestors id').find?
        (fun a => other.kind? a = some .global ∨ other.kind? a = some .media) = some host'
      ∧ plan.Matches other host host' := by
  obtain ⟨hlt, hlt', hc⟩ := h
  induction id, hlt using hw.parent_induction generalizing id' with
  | root =>
    have hm : plan.Matches other 0 id' := ⟨hw.size_pos, hlt', hc⟩
    rw [hw.ancestors_root] at hf
    obtain rfl := List.mem_singleton.1 (List.mem_of_find?_eq_some hf)
    have hk := List.find?_some hf
    rw [← hm.kind? hw hw'] at hk
    obtain ⟨around, ha⟩ := other.ancestors_eq_cons id'
    exact ⟨id', by rw [ha, List.find?_cons, hk], hm⟩
  | under id p hid _ hp ih =>
    have hm : plan.Matches other id id' := ⟨hid, hlt', hc⟩
    obtain ⟨_, p', hp', hmp⟩ := hm.parent hw hw' hp
    rw [hw.ancestors_of_parent? hp, List.find?_cons, ← hm.kind? hw hw'] at hf
    rw [hw'.ancestors_of_parent? hp', List.find?_cons]
    split at hf
    · cases hf
      exact ⟨id', rfl, hm⟩
    · exact ih hf hmp.lt_other hmp.chain

end

/-- A scope right under a host matches the one of its fragment under the host that matches. -/
lemma child?_eq_some (hw : plan.WellFormed) (hw' : other.WellFormed) {c c' : Nat}
    {fragment : String} (hr : plan.Matches other host host')
    (hc : plan.child? host fragment = some c) (hm : plan.Matches other c c') :
    other.child? host' fragment = some c' := by
  obtain ⟨hp, hf⟩ := hw.child?_eq_some.1 hc
  obtain ⟨hf', p', hp', hmp⟩ := hm.parent hw hw' hp
  obtain rfl := hw'.eq_of_chain hr.lt_other hmp.lt_other (hmp.chain.trans hr.chain.symm)
  exact hw'.child?_eq_some.2 ⟨hp', hf'.trans hf⟩

/-! ### Hosts -/

section

variable (h : plan.Matches other id id') (hr : plan.Rooted) (hr' : other.Rooted)

include h hr hr'

lemma globalHost {directive : Directive.Reserved} (hh : plan.globalHost id directive = .ok host) :
    other.globalHost id' directive = .ok host := by
  rw [hr.globalHost_eq_zero hh]
  exact hr'.globalHost_eq_ok_zero h.lt_other directive

lemma mediaHost (hh : plan.mediaHost id = .ok host) : other.mediaHost id' = .ok host := by
  obtain ⟨hm, hk, _, _⟩ := mediaHost_eq_ok hh
  rw [← h.withinMedia] at hm
  rw [← h.kind? hr.wellFormed hr'.wellFormed] at hk
  rw [Plan.mediaHost, hm, if_neg Bool.false_ne_true, if_neg hk, hr.mediaHost_eq_zero hh]
  exact hr'.globalHost_eq_ok_zero h.lt_other _

lemma mixinHost (hh : plan.mixinHost id = .ok host) :
    ∃ host', other.mixinHost id' = .ok host' ∧ plan.Matches other host host' := by
  have hkind := h.kind? hr.wellFormed hr'.wellFormed
  rcases mixinHost_eq_ok hh with ⟨rfl, hk⟩ | ⟨hg, hm, hf⟩
  · rw [← hkind] at hk
    exact ⟨id', by rw [Plan.mixinHost, if_pos hk], h⟩
  · have h₀ : 0 < id := Nat.pos_of_ne_zero fun h₀ => hg (hr.kind?_eq_global.2 h₀)
    obtain ⟨p, hp, _⟩ := hr.wellFormed.parent_lt h₀ h.lt
    obtain ⟨_, p', hp', hmp⟩ := h.parent hr.wellFormed hr'.wellFormed hp
    rw [hr.wellFormed.ancestors_of_parent? hp, List.tail_cons] at hf
    obtain ⟨host', hf', hmatches⟩ := hmp.find? hr.wellFormed hr'.wellFormed hf
    rw [← hkind] at hg hm
    refine ⟨host', ?_, hmatches⟩
    rw [Plan.mixinHost, if_neg (not_or.2 ⟨hg, hm⟩), hr'.wellFormed.ancestors_of_parent? hp',
      List.tail_cons, hf']

end

/-- The roots of two stylesheets match. -/
lemma root (hr : plan.Rooted) (hr' : other.Rooted) : plan.Matches other 0 0 where
  lt := hr.wellFormed.size_pos
  lt_other := hr'.wellFormed.size_pos
  chain := by rw [hr.chain_root, hr'.chain_root]

end Matches

/-! ### Growing side by side -/

/-- Where two plans have scopes of the same path, these are of the same kind. -/
def KindsAgree (first second : Plan) : Prop :=
  ∀ i < first.size, ∀ j < second.size, first.path i = second.path j →
    first.kind? i = second.kind? j

instance (first second : Plan) : Decidable (KindsAgree first second) :=
  decidable_of_iff
    (∀ i ∈ List.range first.size, ∀ j ∈ List.range second.size, first.path i = second.path j →
      first.kind? i = second.kind? j)
    (by simp only [KindsAgree, List.mem_range])

/-- A small plan beside a big one that grew out of a first plan. The big plan has a scope for each
scope of the small one, and has no others but those of the first plan. -/
structure SideBySide (first small big : Plan) : Prop where
  rooted : small.Rooted
  rooted_big : big.Rooted
  before : first.Extends big
  covered : ∀ id < small.size, ∃ id', small.Matches big id id'
  source : ∀ id' < big.size, first.size ≤ id' → ∃ id, small.Matches big id id'

/-- There is no scope after a request but those that were there and the one that answers it. -/
lemma lt_size_enter {r : Request} (hid : id < (plan.enter r).size) :
    id < plan.size ∨ id = plan.answer r := by
  cases hc : plan.child? r.host r.fragment with
  | some c =>
    rw [enter_of_some hc] at hid
    exact .inl hid
  | none =>
    rw [size_enter_of_none hc] at hid
    rw [answer_of_none hc]
    omega

/-- The same request under another host. -/
def Request.moveTo (host : Nat) (r : Request) : Request :=
  { r with host := host }

@[simp] lemma Request.host_moveTo (host : Nat) (r : Request) : (r.moveTo host).host = host := rfl

@[simp] lemma Request.kind_moveTo (host : Nat) (r : Request) : (r.moveTo host).kind = r.kind := rfl

@[simp] lemma Request.fragment_moveTo (host : Nat) (r : Request) :
    (r.moveTo host).fragment = r.fragment := rfl

namespace SideBySide

variable {first second small big : Plan} {r : Request}

/-- A plan starts beside the first one. -/
lemma start (hf : first.Rooted) : SideBySide first empty first where
  rooted := rooted_empty
  rooted_big := hf
  before := .refl first
  covered id hid := by
    rw [Nat.lt_one_iff.1 hid]
    exact ⟨0, .root rooted_empty hf⟩
  source id' hid hle := absurd hid (Nat.not_lt.2 hle)

/-- What answers a request in one plan is of the kind of what answers it in the other. -/
lemma kind?_answer (h : SideBySide first small big) (hk : KindsAgree first second)
    (hm : small.Matches big r.host host') (hext : (small.enter r).Extends second) :
    (big.enter (r.moveTo host')).kind? (big.answer (r.moveTo host'))
      = (small.enter r).kind? (small.answer r) := by
  have hw := h.rooted.wellFormed
  have hw' := h.rooted_big.wellFormed
  cases hc : small.child? r.host r.fragment with
  | some c =>
    -- the scope is there in both
    obtain ⟨hp, _⟩ := hw.child?_eq_some.1 hc
    obtain ⟨c', hmc⟩ := h.covered c (lt_size_of_parent? hp)
    have hc' := Matches.child?_eq_some hw hw' hm hc hmc
    rw [enter_of_some (r := r.moveTo host') hc',
      answer_of_some (r := r.moveTo host') hc', enter_of_some hc, answer_of_some hc,
      hmc.kind? hw hw']
  | none =>
    cases hc' : big.child? host' r.fragment with
    | none =>
      -- the scope is new in both
      rw [answer_of_none (r := r.moveTo host') hc',
        kind?_enter (r := r.moveTo host') hc', if_pos rfl, answer_of_none hc, kind?_enter hc,
        if_pos rfl, Request.kind_moveTo]
    | some c' =>
      -- the scope is there in the big plan alone, so that it is one of the first plan
      obtain ⟨hp', hf'⟩ := hw'.child?_eq_some.1 hc'
      have hlt' := lt_size_of_parent? hp'
      have hfirst : c' < first.size := by
        by_contra hle
        obtain ⟨c, hmc⟩ := h.source c' hlt' (Nat.not_lt.1 hle)
        rw [Matches.child?_eq_some hw' hw hm.symm hc' hmc.symm] at hc
        cases hc
      have hlt := hw.answer_lt r
      have hpath : first.path c' = second.path (small.answer r) := by
        rw [← h.before.path hfirst, hw'.path_of_parent? hp' hf', hext.path hlt,
          (hw.enter hm.lt).path_of_parent? (hw.parent?_answer r) (hw.fragment?_answer r),
          (extends_enter r).path hm.lt, hm.path]
      rw [enter_of_some (r := r.moveTo host') hc',
        answer_of_some (r := r.moveTo host') hc', h.before.kind? hfirst,
        ← hext.kind? hlt]
      exact hk c' hfirst _ (Nat.lt_of_lt_of_le hlt hext.size_le) hpath

/-- What answers a request in one plan matches what answers it in the other. -/
lemma matches_answer (h : SideBySide first small big) (hk : KindsAgree first second)
    (hm : small.Matches big r.host host') (hext : (small.enter r).Extends second) :
    (small.enter r).Matches (big.enter (r.moveTo host')) (small.answer r)
      (big.answer (r.moveTo host')) where
  lt := h.rooted.wellFormed.answer_lt r
  lt_other := h.rooted_big.wellFormed.answer_lt _
  chain := by
    obtain ⟨kind, _, hkind, _⟩ := exists_kind_fragment (h.rooted.wellFormed.answer_lt r)
    have hkind' := (h.kind?_answer hk hm hext).trans hkind
    rw [h.rooted.wellFormed.chain_answer hm.lt hkind,
      h.rooted_big.wellFormed.chain_answer hm.lt_other hkind', Request.fragment_moveTo,
      Request.host_moveTo, hm.chain]

/-- A request in both plans keeps them side by side. -/
lemma enter (h : SideBySide first small big) (hk : KindsAgree first second)
    (hm : small.Matches big r.host host') (hg : r.kind ≠ .global)
    (hext : (small.enter r).Extends second) :
    SideBySide first (small.enter r) (big.enter (r.moveTo host')) where
  rooted := h.rooted.enter hm.lt hg
  rooted_big := h.rooted_big.enter hm.lt_other hg
  before := h.before.trans (extends_enter _)
  covered id hid := by
    rcases lt_size_enter hid with hid | rfl
    · obtain ⟨id', hmid⟩ := h.covered id hid
      exact ⟨id', hmid.mono (extends_enter r) (extends_enter _)⟩
    · exact ⟨_, h.matches_answer hk hm hext⟩
  source id' hid hle := by
    rcases lt_size_enter hid with hid | rfl
    · obtain ⟨id, hmid⟩ := h.source id' hid hle
      exact ⟨id, hmid.mono (extends_enter r) (extends_enter _)⟩
    · exact ⟨_, h.matches_answer hk hm hext⟩

/-- Declarations in both plans keep them side by side. -/
lemma declareAll (h : SideBySide first small big) (writes writes' : List (Nat × String)) :
    SideBySide first (small.declareAll writes) (big.declareAll writes') where
  rooted := h.rooted.declareAll writes
  rooted_big := h.rooted_big.declareAll writes'
  before := h.before.trans (extends_declareAll writes')
  covered id hid := by
    rw [size_declareAll] at hid
    obtain ⟨id', hmid⟩ := h.covered id hid
    exact ⟨id', hmid.mono (extends_declareAll writes) (extends_declareAll writes')⟩
  source id' hid hle := by
    rw [size_declareAll] at hid
    obtain ⟨id, hmid⟩ := h.source id' hid hle
    exact ⟨id, hmid.mono (extends_declareAll writes) (extends_declareAll writes')⟩

end SideBySide

end Stylesheet.Plan
