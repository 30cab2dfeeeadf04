/-
Plans as trees.

* `Tree`: a scope with its number, and the trees of the scopes under it;
* `Plan.tree?`, `Plan.tree`: the tree under a scope, and that of the whole plan;
* `Tree.scopes`: the scopes of a tree with their numbers, hosts before what is under them;
* `Plan.listing`: the scopes of a plan in that order.
-/
import Stylesheet.Plan

namespace Stylesheet

/-- A scope with its number, and the trees of the scopes under it, in the order in which they were
entered. -/
inductive Tree where
  | node (id : Nat) (scope : Scope) (children : List Tree)

namespace Tree

mutual

/-- The scopes of a tree with their numbers, hosts before what is under them. -/
def scopes : Tree → List (Nat × Scope)
  | .node id s ts => (id, s) :: scopesAll ts

/-- The scopes of some trees, one tree after another. -/
def scopesAll : List Tree → List (Nat × Scope)
  | [] => []
  | t :: ts => scopes t ++ scopesAll ts

end

end Tree

namespace Plan

/-- The tree under a scope. A scope under another has the larger number, which ends the descent. -/
def tree? (plan : Plan) (id : Nat) : Option Tree :=
  match _hs : plan.scope? id with
  | none => none
  | some s =>
    some (.node id s (s.children.filterMap fun c => if _hc : id < c then plan.tree? c else none))
termination_by plan.size - id
decreasing_by
  have := (List.getElem?_eq_some_iff.1 _hs).1
  rw [size]
  omega

/-- The tree of a plan: that of its root. -/
def tree (plan : Plan) : Tree :=
  (plan.tree? 0).getD (.node 0 { kind := .global, fragment := "" } [])

/-- The scopes of a plan with their numbers, hosts before what is under them. -/
def listing (plan : Plan) : List (Nat × Scope) :=
  plan.tree.scopes

end Plan

end Stylesheet
