/-
Where a scope stands in the stylesheet.

* `chainBlock`, `chainOuter`: the media block around the first scope of a chain, and the selector
  from which the selectors under it go on;
* `Plan.context`: the context of a scope, as it is written out;
* `Plan.Rooted`: a well-formed plan in which the root is the stylesheet, and nothing else is;
* `Plan.Keeps`: what answers a request is of the kind that was asked for;
* `Stands`, `Opens`: a scope, or what will answer a request, stands for a context;
* `Opens.stands`, `Stands.opens_mixin`: the contexts of what answers a request, and of mixins.
-/
import Stylesheet.Proofs.Meaning
import Stylesheet.Proofs.Plan.Chain

namespace Stylesheet.Plan

variable {plan later : Plan}

/-! ### Chains -/

/-- The prelude of the innermost media block on a chain. -/
def chainBlock : List (Kind × String) → Option String
  | [] => none
  | (kind, fragment) :: around => if kind = .media then some fragment else chainBlock around

/-- The selector from which the selectors under the first scope of a chain go on. -/
def chainOuter : List (Kind × String) → String
  | [] => ""
  | (kind, fragment) :: around =>
    if kind = .global ∨ kind = .media then "" else chainOuter around ++ fragment

/-- The context of a scope. -/
def context (plan : Plan) (id : Nat) : Context :=
  ⟨chainBlock (plan.chain id), chainOuter (plan.chain id), (plan.kind? id).getD .global⟩

lemma kind_context {id : Nat} {kind : Kind} (hk : plan.kind? id = some kind) :
    (plan.context id).kind = kind := by
  rw [context, hk, Option.getD_some]

lemma Extends.context (h : plan.Extends later) {id : Nat} (hid : id < plan.size) :
    later.context id = plan.context id := by
  rw [Plan.context, h.chain hid, h.kind? hid, Plan.context]

/-! ### Rooted plans -/

/-- A well-formed plan whose root is the stylesheet itself, and only the root. -/
structure Rooted (plan : Plan) : Prop where
  wellFormed : plan.WellFormed
  fragment?_root : plan.fragment? 0 = some ""
  kind?_eq_global : ∀ {id}, plan.kind? id = some .global ↔ id = 0

lemma rooted_empty : Rooted empty where
  wellFormed := wellFormed_singleton .global ""
  fragment?_root := rfl
  kind?_eq_global {id} := by
    cases id with
    | zero => exact ⟨fun _ => rfl, fun _ => rfl⟩
    | succ id => exact ⟨nofun, nofun⟩

namespace Rooted

lemma enter (h : plan.Rooted) {r : Request} (hr : r.host < plan.size) (hk : r.kind ≠ .global) :
    (plan.enter r).Rooted where
  wellFormed := h.wellFormed.enter hr
  fragment?_root := by
    rw [(extends_enter r).fragment? h.wellFormed.size_pos]
    exact h.fragment?_root
  kind?_eq_global {id} := by
    cases hc : plan.child? r.host r.fragment with
    | some c =>
      rw [enter_of_some hc]
      exact h.kind?_eq_global
    | none =>
      rw [kind?_enter hc]
      split
      · rename_i he
        have hpos := h.wellFormed.size_pos
        rw [Option.some.injEq]
        exact ⟨fun hg => absurd hg hk, fun h₀ => by omega⟩
      · exact h.kind?_eq_global

lemma declareAll (h : plan.Rooted) (writes : List (Nat × String)) :
    (plan.declareAll writes).Rooted where
  wellFormed := h.wellFormed.declareAll writes
  fragment?_root := by
    rw [fragment?_declareAll]
    exact h.fragment?_root
  kind?_eq_global {id} := by
    rw [kind?_declareAll]
    exact h.kind?_eq_global

section

variable (h : plan.Rooted)

include h

lemma chain_root : plan.chain 0 = [(.global, "")] :=
  h.wellFormed.chain_root (h.kind?_eq_global.2 rfl) h.fragment?_root

lemma context_root : plan.context 0 = .top := by
  rw [context, h.chain_root, h.kind?_eq_global.2 rfl]
  rfl

/-- The host of global text is the root. -/
lemma globalHost_eq_zero {id host : Nat} {directive : Directive.Reserved}
    (hh : plan.globalHost id directive = .ok host) : host = 0 :=
  h.kind?_eq_global.1 (globalHost_eq_ok hh).2

lemma mediaHost_eq_zero {id host : Nat} (hh : plan.mediaHost id = .ok host) : host = 0 :=
  h.kind?_eq_global.1 (mediaHost_eq_ok hh).2.2.2

end

end Rooted

/-! ### Hosts of mixins -/

/-- Selectors start anew in the nearest global or media scope, and it is in the same media block. -/
lemma WellFormed.chain_of_find? (h : plan.WellFormed) {id host : Nat} (hid : id < plan.size)
    (hf : (plan.ancestors id).find?
      (fun a => plan.kind? a = some .global ∨ plan.kind? a = some .media) = some host) :
    chainBlock (plan.chain host) = chainBlock (plan.chain id)
      ∧ chainOuter (plan.chain host) = "" := by
  have hhost := List.find?_some hf
  simp only [decide_eq_true_eq] at hhost
  refine ⟨?_, ?_⟩
  · induction id, hid using h.parent_induction with
    | root =>
      have hm := List.mem_of_find?_eq_some hf
      rw [h.ancestors_root] at hm
      rw [List.mem_singleton.1 hm]
    | under id p hid _ hp ih =>
      rw [h.ancestors_of_parent? hp, List.find?_cons] at hf
      split at hf
      · cases hf
        rfl
      · rename_i hn
        obtain ⟨kind, fragment, hk, hfr⟩ := exists_kind_fragment hid
        have hm : kind ≠ .media := by
          rintro rfl
          simp [hk] at hn
        rw [ih hf, h.chain_of_parent? hp hk hfr, chainBlock, if_neg hm]
  · have hm := List.mem_of_find?_eq_some hf
    obtain ⟨kind, fragment, hk, hfr⟩ :=
      exists_kind_fragment (Nat.lt_of_le_of_lt (le_of_mem_ancestors hm) hid)
    obtain ⟨around, hc⟩ := h.chain_eq_cons hk hfr
    rw [hk, Option.some.injEq, Option.some.injEq] at hhost
    rw [hc, chainOuter, if_pos hhost]

/-! ### Scopes in contexts -/

/-- What answers a request is of the kind that was asked for. -/
def Keeps (plan : Plan) (r : Request) : Prop :=
  (plan.enter r).kind? (plan.answer r) = some r.kind
  deriving Decidable

/-- A scope stands for a context. As long as requests are `kept`, it is written out there. -/
structure Stands (kept : Prop) (plan : Plan) (id : Nat) (c : Context) : Prop where
  lt_size : id < plan.size
  eq_zero : id = 0 ↔ c.kind = .global
  agrees : kept → plan.context id = c ∧ plan.selector id = c.selector ∧ c.kind ≠ .media

/-- What answers a request will stand for a context. -/
structure Opens (kept : Prop) (plan : Plan) (r : Request) (c : Context) : Prop where
  host_lt : r.host < plan.size
  kind : r.kind = c.kind
  ne_global : c.kind ≠ .global
  ne_media : c.kind ≠ .media
  agrees : kept → chainBlock (plan.chain r.host) = c.block
    ∧ chainOuter (plan.chain r.host) ++ r.fragment = c.selector
    ∧ chainSelector ((r.kind, r.fragment) :: plan.chain r.host) = c.selector

variable {kept : Prop} {id host : Nat} {r : Request} {c : Context}

lemma Stands.mono (hs : Stands kept plan id c) (h : plan.Extends later) :
    Stands kept later id c where
  lt_size := Nat.lt_of_lt_of_le hs.lt_size h.size_le
  eq_zero := hs.eq_zero
  agrees hk := by
    rw [h.context hs.lt_size, h.selector hs.lt_size]
    exact hs.agrees hk

lemma Opens.mono (ho : Opens kept plan r c) (h : plan.Extends later) : Opens kept later r c where
  host_lt := Nat.lt_of_lt_of_le ho.host_lt h.size_le
  kind := ho.kind
  ne_global := ho.ne_global
  ne_media := ho.ne_media
  agrees hk := by
    rw [h.chain ho.host_lt]
    exact ho.agrees hk

/-- What answers a request stands for the context that the request opens. -/
lemma Opens.stands (ho : Opens kept plan r c) (h : plan.Rooted) (hr : kept → plan.Keeps r) :
    Stands kept (plan.enter r) (plan.answer r) c where
  lt_size := h.wellFormed.answer_lt r
  eq_zero :=
    ⟨fun h₀ => absurd h₀ (h.wellFormed.answer_ne_zero r ho.host_lt),
      fun hg => absurd hg ho.ne_global⟩
  agrees hk := by
    obtain ⟨hblock, houter, hselector⟩ := ho.agrees hk
    have hkind : (plan.enter r).kind? (plan.answer r) = some r.kind := hr hk
    have hglobal : r.kind ≠ .global := ho.kind ▸ ho.ne_global
    have hmedia : r.kind ≠ .media := ho.kind ▸ ho.ne_media
    refine ⟨?_, ?_, ho.ne_media⟩
    · rw [context, h.wellFormed.chain_answer ho.host_lt hkind, hkind, chainBlock, chainOuter,
        if_neg hmedia, if_neg (not_or.2 ⟨hglobal, hmedia⟩), hblock, houter, Option.getD_some,
        ho.kind]
    · rw [selector, h.wellFormed.chain_answer ho.host_lt hkind, hselector]

namespace Stands

/-- The whole descriptor stands in the root. -/
lemma root (h : plan.Rooted) : Stands kept plan 0 .top where
  lt_size := h.wellFormed.size_pos
  eq_zero := ⟨fun _ => rfl, fun _ => rfl⟩
  agrees _ := by
    refine ⟨h.context_root, ?_, nofun⟩
    rw [selector, h.chain_root]
    rfl

lemma kind_eq_global (hs : Stands kept plan id c) (h : plan.Rooted) :
    plan.kind? id = some .global ↔ c.kind = .global :=
  h.kind?_eq_global.trans hs.eq_zero

lemma opens_nested (hs : Stands kept plan id c) (suffix : String) :
    Opens kept plan ⟨id, .nested, suffix⟩ (c.nested suffix) where
  host_lt := hs.lt_size
  kind := rfl
  ne_global := nofun
  ne_media := nofun
  agrees hk := by
    obtain ⟨rfl, hselector, _⟩ := hs.agrees hk
    refine ⟨rfl, rfl, ?_⟩
    rw [chainSelector, Kind.goesOn, if_pos rfl, ← selector, hselector]
    rfl

lemma opens_rule (hs : Stands kept plan id c) (h : plan.Rooted) (hk : plan.kind? id = some .global)
    (seed : Seed) (key : String) :
    Opens kept plan ⟨id, .element, "." ++ seed.apply key⟩ (.rule seed key) where
  host_lt := hs.lt_size
  kind := rfl
  ne_global := nofun
  ne_media := nofun
  agrees _ := by
    obtain rfl := h.kind?_eq_global.1 hk
    rw [h.chain_root]
    exact ⟨rfl, String.empty_append, rfl⟩

lemma opens_mixin (hs : Stands kept plan id c) (h : plan.Rooted)
    (hh : plan.mixinHost id = .ok host) (name : String) :
    Opens kept plan ⟨host, .mixin, name⟩ (c.mixin name) where
  host_lt := Nat.lt_of_le_of_lt (mixinHost_le hh) hs.lt_size
  kind := rfl
  ne_global := nofun
  ne_media := nofun
  agrees hk := by
    obtain ⟨hc, hselector, hmedia⟩ := hs.agrees hk
    have hw := h.wellFormed
    have hkind : plan.kind? id = some c.kind := by
      obtain ⟨kind, _, hkind, _⟩ := exists_kind_fragment hs.lt_size
      rw [← hc, context, hkind, Option.getD_some]
    have hblock : chainBlock (plan.chain id) = c.block := congrArg Context.block hc
    have houter : chainOuter (plan.chain id) = c.selector := congrArg Context.selector hc
    have hhead := hw.head?_chain (Nat.lt_of_le_of_lt (mixinHost_le hh) hs.lt_size)
    rcases mixinHost_eq_ok hh with ⟨rfl, hg | hm⟩ | ⟨hg, hm, hf⟩
    · -- the stylesheet itself is the host
      obtain rfl := h.kind?_eq_global.1 hg
      obtain rfl : c = .top := hc.symm.trans h.context_root
      rw [h.chain_root]
      exact ⟨rfl, String.empty_append, rfl⟩
    · -- a mixin is the host, and its selector goes on
      have hcm : c.kind = .mixin := Option.some.inj (hkind.symm.trans hm)
      refine ⟨hblock, ?_, ?_⟩
      · rw [houter, Context.mixin, if_pos hcm]
      · rw [chainSelector, hhead, hm, Kind.goesOn, if_pos (decide_eq_true rfl), ← selector,
          hselector, Context.mixin, if_pos hcm]
    · -- the host is further out, and selectors start anew there
      have hcm : c.kind ≠ .mixin := fun hcm => hm (hcm ▸ hkind)
      have h₀ : 0 < id := Nat.pos_of_ne_zero fun h₀ => hg (h.kind?_eq_global.2 h₀)
      obtain ⟨p, hp, hlt⟩ := hw.parent_lt h₀ hs.lt_size
      obtain ⟨_, fragment, _, hfragment⟩ := exists_kind_fragment hs.lt_size
      have hkhost := List.find?_some hf
      rw [hw.ancestors_of_parent? hp, List.tail_cons] at hf
      obtain ⟨hb, ho⟩ := hw.chain_of_find? (Nat.lt_trans hlt hs.lt_size) hf
      rw [hw.chain_of_parent? hp hkind hfragment, chainBlock, if_neg hmedia, ← hb] at hblock
      have hgoes : Kind.goesOn .mixin (plan.kind? host) = false := by
        rcases of_decide_eq_true hkhost with hk | hk
        · rw [hk]
          rfl
        · rw [hk]
          rfl
      refine ⟨hblock, ?_, ?_⟩
      · rw [ho, String.empty_append, Context.mixin, if_neg hcm]
      · rw [chainSelector, hhead, hgoes, if_neg Bool.false_ne_true, Context.mixin, if_neg hcm]

end Stands

/-- In a media block that answers a request, a query opens its body for the selector it was written
for. -/
lemma Rooted.opens_query (h : plan.Rooted) {selector : String} {q : MediaQuery}
    (hlt : host < plan.size) (hr : kept → plan.Keeps ⟨host, .media, q.target⟩)
    (hs : kept → selector = c.selector) :
    Opens kept (plan.enter ⟨host, .media, q.target⟩)
      ⟨plan.answer ⟨host, .media, q.target⟩, .element, selector⟩ (c.media q.target) where
  host_lt := h.wellFormed.answer_lt _
  kind := rfl
  ne_global := nofun
  ne_media := nofun
  agrees hk := by
    rw [h.wellFormed.chain_answer hlt (hr hk), hs hk]
    refine ⟨rfl, ?_, rfl⟩
    rw [chainOuter, if_pos (.inr rfl), String.empty_append]
    rfl

end Stylesheet.Plan
