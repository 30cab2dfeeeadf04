/-
The tree of a plan, read off its scopes.

* `WellFormed.child_induction`: what holds of a scope as soon as it holds of all scopes right under
  it holds of every scope;
* `WellFormed.tree?_eq`: the tree under a scope has the trees of exactly the scopes right under it,
  so that the bound in the descent never cuts it off;
* `Plan.visited`: the numbers in a tree, hosts before what is under them;
* `WellFormed.mem_visited`, `nodup_visited`, `visited_perm`: the tree under a scope has each scope
  that the scope stands around, once, and the tree of the plan has all scopes.
-/
import Mathlib.Data.List.Nodup
import Stylesheet.Plan.Tree
import Stylesheet.Proofs.Plan.Chain

namespace Stylesheet

/-- The scopes of some trees are those of each of them. -/
lemma Tree.scopesAll_eq_flatMap (ts : List Tree) : Tree.scopesAll ts = ts.flatMap Tree.scopes := by
  induction ts with
  | nil => rfl
  | cons t ts ih => rw [Tree.scopesAll, ih, List.flatMap_cons]

namespace Plan

variable {plan : Plan}

/-- The trees under the scopes right under a scope. -/
def subtrees (plan : Plan) (id : Nat) : List Tree :=
  (plan.children id).filterMap plan.tree?

/-- The numbers of a scope and of all scopes under it, hosts before what is under them. -/
def visited (plan : Plan) (id : Nat) : List Nat :=
  ((plan.tree? id).map fun t => t.scopes.map (·.1)).getD []

namespace WellFormed

variable (h : plan.WellFormed)

include h

/-- What holds of a scope as soon as it holds of all scopes right under it holds of every scope. -/
lemma child_induction {motive : (id : Nat) → id < plan.size → Prop}
    (host : ∀ id (hid : id < plan.size),
      (∀ c (hc : c < plan.size), plan.parent? c = some id → motive c hc) → motive id hid)
    (id : Nat) (hid : id < plan.size) : motive id hid := by
  -- by induction on the number of scopes that were entered later
  obtain ⟨n, hn⟩ : ∃ n, n = plan.size - id := ⟨_, rfl⟩
  induction n using Nat.strongRecOn generalizing id with
  | _ n ih =>
    refine host id hid fun c hc hp => ?_
    have hlt := h.lt_of_parent? hp
    exact ih (plan.size - c) (by omega) c hc rfl

lemma tree?_eq {id : Nat} {s : Scope} (hs : plan.scope? id = some s) :
    plan.tree? id = some (.node id s (plan.subtrees id)) := by
  rw [tree?]
  split
  · rename_i hn
    rw [hs] at hn
    cases hn
  · rename_i s' hs'
    rw [hs] at hs'
    cases hs'
    have hchildren := children_of_scope? hs
    refine congrArg (fun ts => some (Tree.node id s ts)) ?_
    rw [subtrees, hchildren]
    refine List.filterMap_congr fun c hc => ?_
    rw [← hchildren, h.mem_children] at hc
    rw [dif_pos (h.lt_of_parent? hc)]

/-- Every scope that a scope lists has a tree. -/
lemma flatMap_subtrees {α : Type} (f : Tree → List α) (id : Nat) :
    (plan.subtrees id).flatMap f
      = (plan.children id).flatMap fun c => ((plan.tree? c).map f).getD [] := by
  rw [subtrees]
  have hall : ∀ c ∈ plan.children id, ∃ t, plan.tree? c = some t := by
    intro c hc
    obtain ⟨s, hs⟩ := exists_scope (lt_size_of_parent? (h.mem_children.1 hc))
    exact ⟨_, h.tree?_eq hs⟩
  generalize plan.children id = cs at hall
  induction cs with
  | nil => rfl
  | cons c cs ih =>
    obtain ⟨t, ht⟩ := hall c List.mem_cons_self
    rw [List.filterMap_cons, ht, List.flatMap_cons, List.flatMap_cons, ht,
      ih fun d hd => hall d (List.mem_cons_of_mem _ hd)]
    rfl

/-- A scope comes before what is under it, and that scope by scope. -/
lemma visited_eq {id : Nat} (hid : id < plan.size) :
    plan.visited id = id :: (plan.children id).flatMap plan.visited := by
  obtain ⟨s, hs⟩ := exists_scope hid
  rw [visited, h.tree?_eq hs, Option.map_some, Option.getD_some, Tree.scopes, List.map_cons,
    Tree.scopesAll_eq_flatMap, List.map_flatMap, h.flatMap_subtrees]
  rfl

/-- The tree under a scope has the scopes that the scope stands around. -/
lemma mem_visited {id a : Nat} (hid : id < plan.size) :
    a ∈ plan.visited id ↔ a < plan.size ∧ id ∈ plan.ancestors a := by
  induction id, hid using h.child_induction with
  | host id hid ih =>
    rw [h.visited_eq hid, List.mem_cons, List.mem_flatMap]
    constructor
    · rintro (rfl | ⟨c, hc, ha⟩)
      · exact ⟨hid, h.self_mem_ancestors hid⟩
      · have hp := h.mem_children.1 hc
        obtain ⟨hlt, hm⟩ := (ih c (lt_size_of_parent? hp) hp).1 ha
        exact ⟨hlt, (h.mem_ancestors_under hlt).2 (.inr ⟨c, hp, hm⟩)⟩
    · rintro ⟨hlt, hm⟩
      rcases (h.mem_ancestors_under hlt).1 hm with rfl | ⟨c, hp, hc⟩
      · exact .inl rfl
      · exact .inr ⟨c, h.mem_children.2 hp, (ih c (lt_size_of_parent? hp) hp).2 ⟨hlt, hc⟩⟩

/-- The tree under a scope has no scope twice. -/
lemma nodup_visited {id : Nat} (hid : id < plan.size) : (plan.visited id).Nodup := by
  induction id, hid using h.child_induction with
  | host id hid ih =>
    have hchild : ∀ {c}, c ∈ plan.children id → plan.parent? c = some id ∧ c < plan.size :=
      fun hc => ⟨h.mem_children.1 hc, lt_size_of_parent? (h.mem_children.1 hc)⟩
    rw [h.visited_eq hid, List.nodup_cons, List.nodup_flatMap]
    refine ⟨?_, fun c hc => ih c (hchild hc).2 (hchild hc).1, ?_⟩
    · -- what is under a scope has a larger number
      rw [List.mem_flatMap]
      rintro ⟨c, hc, hm⟩
      obtain ⟨hp, hlt⟩ := hchild hc
      have hle := le_of_mem_ancestors ((h.mem_visited hlt).1 hm).2
      have hgt := h.lt_of_parent? hp
      omega
    · -- no scope is under two scopes that stand side by side
      refine List.Pairwise.imp_of_mem ?_ (h.pairwise_children id)
      intro c e hc he hlt a hac hae
      obtain ⟨hcp, hcs⟩ := hchild hc
      obtain ⟨hep, hes⟩ := hchild he
      obtain ⟨ha, hma⟩ := (h.mem_visited hcs).1 hac
      have heq := h.ancestors_linear ha hcp hep hma ((h.mem_visited hes).1 hae).2
      omega

/-- The tree of a plan has every scope once. -/
lemma visited_perm : (plan.visited 0).Perm (List.range plan.size) := by
  rw [List.perm_ext_iff_of_nodup (h.nodup_visited h.size_pos) List.nodup_range]
  intro a
  rw [h.mem_visited h.size_pos, List.mem_range]
  exact ⟨fun ha => ha.1, fun ha => ⟨ha, h.zero_mem_ancestors ha⟩⟩

end WellFormed

end Plan

end Stylesheet
