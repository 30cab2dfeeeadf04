/-
The selectors of scopes are those that are written.

* `Tree.visits`, `Plan.visits`: the scopes that are written as rules, each with the selector under
  which the stylesheet comes to it;
* `Plan.rules`: the rules of the stylesheet, those in media blocks among them;
* `WellFormed.visits_eq`, `rules_eq`: selectors are put together on the way down, and the rules of
  the stylesheet are those of the visits;
* `Stacking.selector_eq`: the selector that a scope finds for itself on the way up is the one that
  is put together on the way down;
* `mem_visits_iff`: where names keep clear of preludes, a scope is visited under the selector that
  hoisted media rules take over from it, and under no other.
-/
import Stylesheet.Proofs.Build.Stacked
import Stylesheet.Proofs.Plan.Emission

namespace Stylesheet

/-- Whether a scope is written as a rule. -/
def Kind.isRule : Kind → Bool
  | .global => false
  | .media => false
  | _ => true

/-- Whether a statement is a rule. -/
def Statement.isRule : Statement → Bool
  | .rule _ _ => true
  | _ => false

/-! ### Visits -/

namespace Tree

mutual

/-- The scopes of a tree that are written as rules, each with its selector, where selectors go on
from the given one. A scope without declarations is visited all the same. -/
def visits (outer : String) : Tree → List (Nat × String)
  | .node id s ts =>
    match s.kind with
    | .global => visitsAll "" ts
    | .media => visitsAll "" ts
    | _ => (id, outer ++ s.fragment) :: visitsAll (outer ++ s.fragment) ts

/-- The visits of some trees, one tree after another. -/
def visitsAll (outer : String) : List Tree → List (Nat × String)
  | [] => []
  | t :: ts => visits outer t ++ visitsAll outer ts

end

lemma visitsAll_eq_flatMap (outer : String) (ts : List Tree) :
    visitsAll outer ts = ts.flatMap (visits outer) := by
  induction ts with
  | nil => rfl
  | cons t ts ih => rw [visitsAll, ih, List.flatMap_cons]

end Tree

namespace Plan

variable {plan : Plan} {id : Nat}

/-- The scopes of a plan that are written as rules, each with its selector. -/
def visits (plan : Plan) : List (Nat × String) :=
  plan.tree.visits ""

/-- The rules of the stylesheet of a plan, those in media blocks among them. -/
def rules (plan : Plan) : List Statement :=
  (plan.leaves.map (·.2)).filter Statement.isRule

/-- The visits of a scope and of what is under it, where selectors go on from the given one. -/
def visitsUnder (plan : Plan) (outer : String) (id : Nat) : List (Nat × String) :=
  ((plan.tree? id).map (Tree.visits outer)).getD []

/-- The visit of a scope itself, if it is written as a rule. -/
def visitOf (plan : Plan) (id : Nat) : List (Nat × String) :=
  if (plan.context id).kind.isRule then [(id, (plan.context id).selector)] else []

namespace WellFormed

variable (h : plan.WellFormed)

include h

lemma visitsUnder_eq {s : Scope} (hs : plan.scope? id = some s) (outer : String) :
    plan.visitsUnder outer id = match s.kind with
      | .global => (plan.children id).flatMap (plan.visitsUnder "")
      | .media => (plan.children id).flatMap (plan.visitsUnder "")
      | _ => (id, outer ++ s.fragment)
          :: (plan.children id).flatMap (plan.visitsUnder (outer ++ s.fragment)) := by
  rw [visitsUnder, h.tree?_eq hs, Option.map_some, Option.getD_some, Tree.visits]
  simp only [Tree.visitsAll_eq_flatMap, h.flatMap_subtrees]
  rfl

/-- The visits under a scope are those of each scope under it. -/
lemma visitsUnder_chainOuter (hid : id < plan.size) {head : Kind × String}
    {around : List (Kind × String)} (hc : plan.chain id = head :: around) :
    plan.visitsUnder (chainOuter around) id = (plan.visited id).flatMap plan.visitOf := by
  induction id, hid using h.child_induction generalizing head around with
  | host id hid ih =>
    obtain ⟨s, hs⟩ := exists_scope hid
    have hk := kind?_of_scope? hs
    obtain ⟨_, hhead⟩ := h.chain_eq_cons hk (fragment?_of_scope? hs)
    obtain rfl : head = (s.kind, s.fragment) := (List.cons.inj (hc.symm.trans hhead)).1
    have hunder : (plan.children id).flatMap (plan.visitsUnder (chainOuter (plan.chain id)))
        = (plan.children id).flatMap fun c => (plan.visited c).flatMap plan.visitOf := by
      refine List.flatMap_congr fun c hm => ?_
      have hp := h.mem_children.1 hm
      have hcs := lt_size_of_parent? hp
      obtain ⟨kind, fragment, hkc, hfc⟩ := exists_kind_fragment hcs
      exact ih c hcs hp (h.chain_of_parent? hp hkc hfc)
    rw [h.visited_eq hid, List.flatMap_cons, List.flatMap_assoc, ← hunder, h.visitsUnder_eq hs,
      visitOf, kind_context hk, context, hc]
    cases s.kind with
    | global => rfl
    | media => rfl
    | _ => rfl

/-- Selectors are put together on the way down to a scope. -/
lemma visits_eq : plan.visits = (plan.visited 0).flatMap plan.visitOf := by
  obtain ⟨s, hs⟩ := exists_scope h.size_pos
  have hc := h.chain_root (kind?_of_scope? hs) (fragment?_of_scope? hs)
  rw [← h.visitsUnder_chainOuter h.size_pos hc, visits, tree, visitsUnder, h.tree?_eq hs]
  rfl

lemma mem_visits {selector : String} :
    (id, selector) ∈ plan.visits
      ↔ id < plan.size ∧ (plan.context id).kind.isRule = true
        ∧ selector = (plan.context id).selector := by
  rw [h.visits_eq, List.mem_flatMap]
  constructor
  · rintro ⟨a, ha, hm⟩
    rw [visitOf] at hm
    split at hm
    · rename_i hr
      cases List.mem_singleton.1 hm
      exact ⟨((h.mem_visited h.size_pos).1 ha).1, hr, rfl⟩
    · cases hm
  · rintro ⟨hid, hr, rfl⟩
    refine ⟨id, (h.mem_visited h.size_pos).2 ⟨hid, h.zero_mem_ancestors hid⟩, ?_⟩
    rw [visitOf, if_pos hr]
    exact List.mem_singleton_self _

end WellFormed

/-! ### Rules -/

/-- What is written of a scope as a rule is its declarations, under the selector of its visit. -/
lemma rules_leavesAt (plan : Plan) (id : Nat) :
    ((plan.leavesAt id).map (·.2)).filter Statement.isRule
      = (plan.visitOf id).flatMap fun v => Tree.rule v.2 (plan.declarations v.1) := by
  have hrule : ∀ block selector (ds : List String),
      (((Tree.rule selector ds).map fun s => ((block : Option String), s)).map (·.2)).filter
        Statement.isRule = Tree.rule selector ds ++ [] := by
    intro block selector ds
    rw [Tree.rule]
    split <;> rfl
  rw [leavesAt, visitOf]
  cases (plan.context id).kind with
  | global =>
    refine List.filter_eq_nil_iff.2 fun s hs => ?_
    obtain ⟨leaf, hleaf, rfl⟩ := List.mem_map.1 hs
    obtain ⟨text, _, rfl⟩ := List.mem_map.1 hleaf
    exact Bool.false_ne_true
  | media => rfl
  | _ => exact hrule _ _ _

/-- The rules of the stylesheet are the declarations of the visited scopes. -/
lemma WellFormed.rules_eq (h : plan.WellFormed) :
    plan.rules = plan.visits.flatMap fun v => Tree.rule v.2 (plan.declarations v.1) := by
  rw [rules, h.leaves_eq, h.visits_eq, List.map_flatMap, List.filter_flatMap, List.flatMap_assoc]
  exact List.flatMap_congr fun id _ => plan.rules_leavesAt id

/-! ### Agreement -/

/-- Selectors start anew in a stylesheet and in a media block. -/
lemma WellFormed.chainOuter_eq_empty (h : plan.WellFormed) {kind : Kind}
    (hk : plan.kind? id = some kind) (hb : kind = .global ∨ kind = .media) :
    chainOuter (plan.chain id) = "" := by
  obtain ⟨_, fragment, _, hf⟩ := exists_kind_fragment (lt_size_of_kind? hk)
  obtain ⟨around, hc⟩ := h.chain_eq_cons hk hf
  rw [hc, chainOuter, if_pos hb]

/-- The selector that a scope finds for itself on the way up is the one that is put together on the
way down. -/
lemma Stacked.selector_eq (hs : plan.Stacked) (h : plan.Rooted) {kind : Kind}
    (hk : plan.kind? id = some kind) (hm : kind ≠ .media) :
    plan.selector id = chainOuter (plan.chain id) := by
  have hid := lt_size_of_kind? hk
  rw [selector]
  induction id, hid using h.wellFormed.parent_induction generalizing kind with
  | root =>
    rw [h.chain_root]
    rfl
  | under id p hid hps hp ih =>
    obtain ⟨_, fragment, _, hf⟩ := exists_kind_fragment hid
    obtain ⟨around, _, haround, _⟩ := exists_kind_fragment hps
    have hstands := hs id p kind around hk hp haround
    have hg : kind ≠ .global := by
      rintro rfl
      exact hstands
    have hboundary := h.wellFormed.chainOuter_eq_empty haround
    rw [h.wellFormed.chain_of_parent? hp hk hf, chainSelector, chainOuter,
      h.wellFormed.head?_chain hps, haround, if_neg (not_or.2 ⟨hg, hm⟩)]
    cases kind with
    | global => exact absurd rfl hg
    | media => exact absurd rfl hm
    | element =>
      -- an element brings its whole selector
      have hgoes : Kind.goesOn .element (some around) = false := rfl
      rw [hboundary hstands, hgoes, if_neg Bool.false_ne_true, String.empty_append]
    | nested => rw [Kind.goesOn, if_pos rfl, ih haround hstands]
    | mixin =>
      by_cases hmixin : around = .mixin
      · rw [Kind.goesOn, if_pos (decide_eq_true (congrArg some hmixin)),
          ih haround (by rw [hmixin]; decide)]
      · have hb : around = .global ∨ around = .media :=
          hstands.imp_right fun hor => hor.resolve_right hmixin
        rw [hboundary hb, Kind.goesOn, if_neg (by simp [hmixin]), String.empty_append]

/-- **Selectors agree**: if none of its mixins is named, and none of its bodies under `&` suffixed,
as preludes begin, then in the plan of a descriptor a scope that is written as a rule is visited
under the selector that hoisted media rules take over from it, and under no other. The rules of the
stylesheet are those of the visits, one for each visited scope that has declarations. -/
theorem mem_visits_iff {d : Descriptor} {seed : Seed} (h : ofDescriptor d seed = .ok plan)
    (hd : d.AvoidsPreludes) :
    (∀ id kind selector, plan.kind? id = some kind → kind.isRule = true →
        ((id, selector) ∈ plan.visits ↔ selector = plan.selector id))
      ∧ plan.rules = plan.visits.flatMap fun v => Tree.rule v.2 (plan.declarations v.1) := by
  have hs := Stacking.of_ofDescriptor h hd
  have hw := hs.rooted.wellFormed
  refine ⟨fun id kind selector hk hr => ?_, hw.rules_eq⟩
  have hm : kind ≠ .media := by
    rintro rfl
    cases hr
  have hselector : (plan.context id).selector = plan.selector id :=
    (hs.stacked.selector_eq hs.rooted hk hm).symm
  rw [hw.mem_visits, kind_context hk, hselector, and_iff_right hr,
    and_iff_right (lt_size_of_kind? hk)]

/-- A body under `&`, a rule and a mixin of one selector, with bodies in each of them. -/
def threeOfOneSelector : Descriptor :=
  ⟨[("&.a", .block [("left", .literal (.text "0"))]),
    ("a", .block [("& b", .block [("media", .list [.block [
      ("print", .literal (.text "")), ("css", .block [("color", .literal (.text "red"))])]])])]),
    ("mixins", .block [(".a", .block [("top", .literal (.text "0")),
      ("mixins", .block [("c", .block [("mixins", .block [
        (" d", .block [("right", .literal (.text "0"))])])])])])])]⟩

/-- Where a body under `&`, a rule and a mixin share one scope, selectors agree. -/
theorem mem_visits_threeOfOneSelector :
    ∃ plan, ofDescriptor threeOfOneSelector .identity = .ok plan
      ∧ threeOfOneSelector.AvoidsPreludes
      ∧ (∀ id kind selector, plan.kind? id = some kind → kind.isRule = true →
          ((id, selector) ∈ plan.visits ↔ selector = plan.selector id))
      ∧ plan.rules = plan.visits.flatMap fun v => Tree.rule v.2 (plan.declarations v.1) := by
  have hd : threeOfOneSelector.AvoidsPreludes := by decide +kernel
  obtain ⟨plan, h, _⟩ : ∃ plan, ofDescriptor threeOfOneSelector .identity = .ok plan ∧ _ :=
    exists_ok_of_any (p := fun plan => plan.size = 7) (by decide +kernel)
  exact ⟨plan, h, hd, mem_visits_iff h hd⟩

end Plan

end Stylesheet
