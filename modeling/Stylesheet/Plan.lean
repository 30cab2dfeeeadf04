/-
Plans: the scopes of a stylesheet.

* `Plan`: the scopes, each at the position that is its number; the root has the number 0;
* `Plan.child?`, `Plan.lookup`: the scope under a key, or at the end of a path of keys;
* `Plan.Request`: a fragment under a scope, and the kind of scope that is wanted for it;
* `Plan.enter`, `Plan.answer`: the plan after a request, and the number of the scope that answers
  it;
* `Plan.declare`: a further declaration in a scope.

A scope answers to its fragment alone. Where the fragment is there already, the scope that is there
is the answer, whatever kind was asked for.
-/
import Stylesheet.Scope

namespace Stylesheet

/-- The scopes of a stylesheet, in the order in which they were entered. -/
structure Plan where
  scopes : List Scope
  deriving DecidableEq, Repr

namespace Plan

/-- The plan of a stylesheet without rules. -/
def empty : Plan :=
  ⟨[{ kind := .global, fragment := "" }]⟩

/-- The plan of a single rule without declarations. It has no global scope, so that nothing in it
can be hoisted. -/
def standalone (fragment : String) : Plan :=
  ⟨[{ kind := .element, fragment := fragment }]⟩

/-! ### Scopes -/

/-- The number of scopes. -/
def size (plan : Plan) : Nat :=
  plan.scopes.length

/-- The scope with a number. -/
def scope? (plan : Plan) (id : Nat) : Option Scope :=
  plan.scopes[id]?

/-- The kind of the scope with a number. -/
def kind? (plan : Plan) (id : Nat) : Option Kind :=
  (plan.scope? id).map (·.kind)

/-- The number of the scope around a scope. -/
def parent? (plan : Plan) (id : Nat) : Option Nat :=
  (plan.scope? id).bind (·.parent)

/-- Whether nothing was built into the plan. -/
def isEmpty (plan : Plan) : Bool :=
  match plan.scopes with
  | [s] => s.children.isEmpty && s.declarations.isEmpty
  | _ => false

/-- The number of the scope with a given fragment under a scope. -/
def child? (plan : Plan) (host : Nat) (fragment : String) : Option Nat :=
  (plan.scope? host).bind fun s => s.index.lookup fragment

/-- The number of the scope at the end of a path of fragments that starts at a scope. -/
def follow (plan : Plan) (id : Nat) : List String → Option Nat
  | [] => some id
  | fragment :: rest => (plan.child? id fragment).bind fun c => plan.follow c rest

/-- The number of the scope at the end of a path of fragments that starts at the root. -/
def lookup (plan : Plan) (path : List String) : Option Nat :=
  plan.follow 0 path

/-! ### Growth -/

/-- A fragment under a scope, and the kind of scope that is wanted for it. -/
structure Request where
  host : Nat
  kind : Kind
  fragment : String
  deriving DecidableEq, Repr

/-- The number of the scope that answers a request: of the one that is there, or else of the next
one to be entered. -/
def answer (plan : Plan) (r : Request) : Nat :=
  (plan.child? r.host r.fragment).getD plan.size

/-- The plan with a scope that answers a request. -/
def enter (plan : Plan) (r : Request) : Plan :=
  match plan.child? r.host r.fragment with
  | some _ => plan
  | none =>
    ⟨plan.scopes.modify r.host (fun s => s.adopt r.fragment plan.size)
      ++ [{ kind := r.kind, fragment := r.fragment, parent := some r.host }]⟩

/-- The plan after a request, if there is one. -/
def grant (plan : Plan) : Option Request → Plan
  | none => plan
  | some r => plan.enter r

/-- The plan with a further declaration in a scope. -/
def declare (plan : Plan) (write : Nat × String) : Plan :=
  ⟨plan.scopes.modify write.1 fun s => s.declare write.2⟩

/-- The plan with further declarations, made in order. -/
def declareAll (plan : Plan) (writes : List (Nat × String)) : Plan :=
  writes.foldl declare plan

end Plan

end Stylesheet
