/-
The scopes around a scope.

* `Plan.ancestors`: a scope and all scopes around it, from the inside out;
* `Plan.globalHost`, `mixinHost`, `mediaHost`: the scope to which a directive attaches its output,
  or the reason why there is none;
* `Plan.selector`: the selector that a scope stands for.
-/
import Stylesheet.CompileError
import Stylesheet.Plan

namespace Stylesheet

/-- Whether the selector of a scope goes on from that of the scope around it. A nested scope goes
on, and so does a mixin in a mixin; any other scope starts anew. -/
def Kind.goesOn : Kind → Option Kind → Bool
  | .nested, _ => true
  | .mixin, around => around = some .mixin
  | _, _ => false

namespace Plan

/-! ### The chain of scopes -/

/-- The numbers of a scope and of all scopes around it, from the inside out. A scope has a larger
number than the scope around it, which ends the walk. -/
def ancestors (plan : Plan) (id : Nat) : List Nat :=
  match plan.parent? id with
  | some p => if p < id then id :: plan.ancestors p else [id]
  | none => [id]
termination_by id

/-- The kinds and fragments of a scope and of all scopes around it, from the inside out. -/
def chain (plan : Plan) (id : Nat) : List (Kind × String) :=
  (plan.ancestors id).filterMap fun a => (plan.scope? a).map fun s => (s.kind, s.fragment)

/-- Whether a scope is in a media block, or is one. -/
def withinMedia (plan : Plan) (id : Nat) : Bool :=
  (plan.ancestors id).any fun a => plan.kind? a = some .media

/-! ### Hosts -/

/-- The nearest global scope, the scope itself included. -/
def globalHost (plan : Plan) (id : Nat) (directive : Directive.Reserved) :
    Except CompileError Nat :=
  match (plan.ancestors id).find? fun a => plan.kind? a = some .global with
  | some host => .ok host
  | none => .error (.orphanedScope directive .global)

/-- The host of mixins. A global scope and a mixin host them themselves; from anywhere else they go
to the nearest global or media scope around the scope. -/
def mixinHost (plan : Plan) (id : Nat) : Except CompileError Nat :=
  if plan.kind? id = some .global ∨ plan.kind? id = some .mixin then .ok id
  else
    match (plan.ancestors id).tail.find? fun a =>
      plan.kind? a = some .global ∨ plan.kind? a = some .media with
    | some host => .ok host
    | none => .error (.orphanedScope .mixins .globalOrMedia)

/-- The host of the media blocks of a rule. A media block has no rules with media blocks of their
own, and the stylesheet is no rule. -/
def mediaHost (plan : Plan) (id : Nat) : Except CompileError Nat :=
  if plan.withinMedia id then .error (.unsupportedNesting .media)
  else if plan.kind? id = some .global then .error (.orphanedScope .media .rule)
  else plan.globalHost id .media

/-! ### Selectors -/

/-- The selector of the first scope of a chain. -/
def chainSelector : List (Kind × String) → String
  | [] => ""
  | (kind, fragment) :: around =>
    if kind.goesOn (around.head?.map (·.1)) then chainSelector around ++ fragment else fragment

/-- The selector that a scope stands for. -/
def selector (plan : Plan) (id : Nat) : String :=
  chainSelector (plan.chain id)

end Plan

end Stylesheet
