/-
Building a descriptor into a plan.

* `Step`: one thing to be done, such as an entry of a body or a rule of a mixin;
* `Step.request?`, `Step.effect`: the scope that a step asks for, the declarations that it makes,
  and the steps that come next in its stead;
* `Step.perform`: does a step to a plan, or refuses and leaves the plan as it is;
* `Plan.run`: performs an agenda of steps, front first; the steps that a step leaves behind come
  before all others, so that a body is built before what follows it;
* `Plan.build`: builds a descriptor into a scope. A build that fails keeps what it did before;
* `Step.weightAll_lt_of_perform`: a step leaves behind less than itself, so that every run ends.
-/
import Stylesheet.Directive
import Stylesheet.Plan.Ancestry
import Stylesheet.Seed

namespace Stylesheet

/-! ### Steps -/

/-- One thing to be done in a build. -/
inductive Step where
  /-- Build the entry of a body into a scope; the path is that of the body. -/
  | entry (id : Nat) (path key : String) (value : Value)
  /-- Declare a keyframes rule. -/
  | keyframes (host : Nat) (rule : Keyframes)
  /-- Declare the declarations of an override. -/
  | override (id : Nat) (mapping : Descriptor)
  /-- Build a mixin under a host; the path is that of the mapping it is named in. -/
  | mixin (host : Nat) (path name : String) (value : Value)
  /-- Build the body of a media query for the rule of a selector. -/
  | query (host : Nat) (selector path : String) (query : MediaQuery)
  /-- Build a body into the scope that answers a request. -/
  | scope (request : Plan.Request) (path : String) (body : Descriptor)

namespace Step

/-- What a step does to the scopes that are there: the declarations that it makes, each with the
number of its scope, and the steps that come next in its stead. -/
structure Effect where
  writes : List (Nat × String) := []
  more : List Step := []

/-- The steps of a body: one for each entry, in order. -/
def ofBody (id : Nat) (path : String) (body : Descriptor) : List Step :=
  body.entries.map fun e => .entry id path e.1 e.2

/-- The steps of the queries of a `media` entry, from position `i` on. -/
def ofQueries (host : Nat) (selector path : String) : Nat → List MediaQuery → List Step
  | _, [] => []
  | i, q :: rest =>
    .query host selector (Path.field (Path.item path i) MediaQuery.cssKey) q
      :: ofQueries host selector path (i + 1) rest

/-- An at-rule with its end marked: a statement needs a semicolon, a block has its brace. -/
def terminated (rule : String) : String :=
  let text := Text.trimEnd rule
  match text.toList.getLast? with
  | some ';' => text
  | some '\x7d' => text
  | _ => text ++ ";"

/-- The effect of a member of a body: a rule of its own in a global scope, a declaration in any
other. -/
def memberEffect (seed : Seed) (plan : Plan) (id : Nat) (path key : String) (value : Value) :
    Except CompileError Effect :=
  if plan.kind? id = some .global then do
    let body ← Directive.blockOf key .ruleBody value
    .ok { more := [.scope ⟨id, .element, "." ++ seed.apply key⟩ path body] }
  else
    match value.literal? with
    | some l => .ok { writes := [(id, Declaration.text key l)] }
    | none => .error (.unexpectedValue key .propertyLiteral value.shape)

/-- The effect of a directive in a scope; the path is that of its entry. -/
def directiveEffect (seed : Seed) (plan : Plan) (id : Nat) (path : String) :
    Directive → Except CompileError Effect
  | .atRules rules => do
    let host ← plan.globalHost id .atRules
    .ok { writes := rules.map fun rule => (host, terminated rule) }
  | .keyframes rules => do
    let host ← plan.globalHost id .keyframes
    .ok { more := rules.map (.keyframes host) }
  | .mixins body => do
    let host ← plan.mixinHost id
    .ok { more := body.entries.map fun e => .mixin host path e.1 e.2 }
  | .media queries => do
    let host ← plan.mediaHost id
    .ok { more := ofQueries host (plan.selector id) path 0 queries }
  | .overrides mappings => .ok { more := mappings.map (.override id) }
  | .nested suffix body => .ok { more := [.scope ⟨id, .nested, suffix⟩ path body] }
  | .member key value => memberEffect seed plan id path key value

/-- The effect of a step on the scopes that are there, or the reason why it is refused. -/
def effect (seed : Seed) (plan : Plan) : Step → Except CompileError Effect
  | .entry id path key value =>
    if value.isAbsent then .ok {}
    else do
      let here := Path.child path key
      let directive ← Directive.classify key value here
      directiveEffect seed plan id here directive
  | .keyframes host rule => do
    let text ← rule.css
    .ok { writes := [(host, text)] }
  | .override id mapping => do
    let text ← Declaration.textOf mapping
    .ok { writes := if text.isEmpty then [] else [(id, text)] }
  | .mixin host path name value =>
    if value.isAbsent then .ok {}
    else do
      let body ← Directive.blockOf name .mixinBody value
      .ok { more := [.scope ⟨host, .mixin, name⟩ (Path.child path name) body] }
  | .query host selector path q =>
    .ok { more := [.scope ⟨plan.answer ⟨host, .media, q.target⟩, .element, selector⟩ path q.css] }
  | .scope request path body => .ok { more := ofBody (plan.answer request) path body }

/-- The scope that a step asks for. -/
def request? : Step → Option Plan.Request
  | .query host _ _ q => some ⟨host, .media, q.target⟩
  | .scope request _ _ => some request
  | _ => none

/-- Performs a step. The answer is the plan after it and the steps that it leaves behind. -/
def perform (seed : Seed) (plan : Plan) (step : Step) : Except CompileError (Plan × List Step) := do
  let effect ← step.effect seed plan
  .ok ((plan.grant step.request?).declareAll effect.writes, effect.more)

/-- What performing a step comes to. -/
theorem perform_eq_ok {seed : Seed} {plan plan' : Plan} {step : Step} {more : List Step} :
    step.perform seed plan = .ok (plan', more) ↔
      ∃ writes, step.effect seed plan = .ok ⟨writes, more⟩
        ∧ plan' = (plan.grant step.request?).declareAll writes := by
  rw [perform, bind_eq_ok]
  constructor
  · rintro ⟨⟨writes, more'⟩, he, h⟩
    cases h
    exact ⟨writes, he, rfl⟩
  · rintro ⟨writes, he, rfl⟩
    exact ⟨⟨writes, more⟩, he, rfl⟩

/-! ### Weight -/

/-- The weight of what a step has before it. -/
def weight : Step → Nat
  | .entry _ _ _ value => 1 + value.weight
  | .keyframes _ _ => 1
  | .override _ _ => 1
  | .mixin _ _ _ value => 1 + value.weight
  | .query _ _ _ q => 2 + q.css.weight
  | .scope _ _ body => 1 + body.weight

/-- The weight of an agenda. -/
def weightAll : List Step → Nat
  | [] => 0
  | step :: rest => weight step + weightAll rest

/-- Nothing to do weighs nothing. -/
@[simp] theorem weightAll_nil : weightAll [] = 0 := rfl

/-- The weight of an agenda is that of its first step and that of the others. -/
@[simp] theorem weightAll_cons (step : Step) (agenda : List Step) :
    weightAll (step :: agenda) = step.weight + weightAll agenda := rfl

/-- Weights add up over an append. -/
@[simp] theorem weightAll_append (agenda later : List Step) :
    weightAll (agenda ++ later) = weightAll agenda + weightAll later := by
  induction agenda with
  | nil => rw [List.nil_append, weightAll_nil, Nat.zero_add]
  | cons step rest ih => rw [List.cons_append, weightAll_cons, weightAll_cons, ih, Nat.add_assoc]

/-- The steps of a body weigh as much as the body. -/
@[simp] theorem weightAll_ofBody (id : Nat) (path : String) (body : Descriptor) :
    weightAll (ofBody id path body) = body.weight := by
  obtain ⟨entries⟩ := body
  simp only [ofBody, Descriptor.weight]
  induction entries with
  | nil => rfl
  | cons e es ih =>
    obtain ⟨key, value⟩ := e
    rw [List.map_cons, weightAll_cons, ih, Value.weightEntries, weight]

/-- The steps of mixins weigh as much as the mapping that names them. -/
theorem weightAll_mixins (host : Nat) (path : String) (entries : List (String × Value)) :
    weightAll (entries.map fun e => .mixin host path e.1 e.2) = Value.weightEntries entries := by
  induction entries with
  | nil => rfl
  | cons e es ih =>
    obtain ⟨name, value⟩ := e
    rw [List.map_cons, weightAll_cons, ih, Value.weightEntries, weight]

/-- The steps of media queries weigh as much as their bodies, and two more each. -/
theorem weightAll_ofQueries (host : Nat) (selector path : String) (i : Nat)
    (queries : List MediaQuery) :
    weightAll (ofQueries host selector path i queries)
      = Payload.total (fun q => 2 + q.css.weight) queries := by
  induction queries generalizing i with
  | nil => rfl
  | cons q rest ih => rw [ofQueries, weightAll_cons, ih, weight, Payload.total]

/-- Steps of weight one weigh as many as they are. -/
theorem weightAll_map {α : Type} {f : α → Step} (hf : ∀ x, (f x).weight = 1) (xs : List α) :
    weightAll (xs.map f) = xs.length := by
  induction xs with
  | nil => rfl
  | cons x xs ih => rw [List.map_cons, weightAll_cons, ih, hf, List.length_cons, Nat.add_comm]

/-- A member leaves behind no more than its value. -/
theorem weightAll_le_of_memberEffect {seed : Seed} {plan : Plan} {id : Nat} {path key : String}
    {value : Value} {e : Effect} (h : memberEffect seed plan id path key value = .ok e) :
    weightAll e.more ≤ value.weight := by
  rw [memberEffect] at h
  split at h
  · obtain ⟨body, hb, h⟩ := bind_eq_ok.1 h
    cases h
    have h₁ := Directive.weight_lt_of_blockOf hb
    simp only [weightAll_cons, weightAll_nil, weight]
    omega
  · split at h
    · cases h
      exact Nat.zero_le _
    · cases h

/-- A directive leaves behind no more than itself. -/
theorem weightAll_le_of_directiveEffect {seed : Seed} {plan : Plan} {id : Nat} {path : String}
    {d : Directive} {e : Effect} (h : directiveEffect seed plan id path d = .ok e) :
    weightAll e.more ≤ d.weight := by
  cases d with
  | atRules rules =>
    obtain ⟨host, _, h⟩ := bind_eq_ok.1 h
    cases h
    exact Nat.zero_le _
  | keyframes rules =>
    obtain ⟨host, _, h⟩ := bind_eq_ok.1 h
    cases h
    exact Nat.le_of_eq (weightAll_map (fun _ => rfl) rules)
  | mixins body =>
    obtain ⟨host, _, h⟩ := bind_eq_ok.1 h
    cases h
    exact Nat.le_of_eq (weightAll_mixins _ _ _)
  | media queries =>
    obtain ⟨host, _, h⟩ := bind_eq_ok.1 h
    cases h
    exact Nat.le_of_eq (weightAll_ofQueries _ _ _ _ _)
  | overrides mappings =>
    cases h
    exact Nat.le_of_eq (weightAll_map (fun _ => rfl) mappings)
  | nested suffix body =>
    cases h
    simp only [weightAll_cons, weightAll_nil, weight, Directive.weight]
    omega
  | member key value => exact weightAll_le_of_memberEffect h

/-- What a step leaves behind weighs less than the step. -/
theorem weightAll_lt_of_effect {seed : Seed} {plan : Plan} {step : Step} {e : Effect}
    (h : step.effect seed plan = .ok e) : weightAll e.more < step.weight := by
  cases step with
  | entry id path key value =>
    rw [effect] at h
    rw [weight]
    split at h
    · cases h
      rw [weightAll_nil]
      omega
    · obtain ⟨d, hd, h⟩ := bind_eq_ok.1 h
      have h₁ := Directive.weight_le_of_classify hd
      have h₂ := weightAll_le_of_directiveEffect h
      omega
  | keyframes host rule =>
    obtain ⟨text, _, h⟩ := bind_eq_ok.1 h
    cases h
    exact Nat.one_pos
  | override id mapping =>
    obtain ⟨text, _, h⟩ := bind_eq_ok.1 h
    cases h
    exact Nat.one_pos
  | mixin host path name value =>
    rw [effect] at h
    rw [weight]
    split at h
    · cases h
      rw [weightAll_nil]
      omega
    · obtain ⟨body, hb, h⟩ := bind_eq_ok.1 h
      cases h
      have h₁ := Directive.weight_lt_of_blockOf hb
      simp only [weightAll_cons, weightAll_nil, weight]
      omega
  | query host selector path q =>
    cases h
    simp only [weightAll_cons, weightAll_nil, weight]
    omega
  | scope request path body =>
    cases h
    rw [weightAll_ofBody, weight]
    omega

/-- A step leaves behind less than itself. -/
theorem weightAll_lt_of_perform {seed : Seed} {plan plan' : Plan} {step : Step} {more : List Step}
    (h : step.perform seed plan = .ok (plan', more)) : weightAll more < step.weight := by
  obtain ⟨writes, he, _⟩ := perform_eq_ok.1 h
  exact weightAll_lt_of_effect he

end Step

/-! ### Runs -/

/-- A build that failed: why, and the plan as it was by then. -/
structure Failure where
  error : CompileError
  plan : Plan

namespace Plan

/-- Performs the steps of an agenda on a plan, front first, until none is left or one is refused. -/
def run (seed : Seed) (agenda : List Step) (plan : Plan) : Except Failure Plan :=
  match agenda with
  | [] => .ok plan
  | step :: rest =>
    match _h : step.perform seed plan with
    | .error e => .error ⟨e, plan⟩
    | .ok (plan', more) => run seed (more ++ rest) plan'
termination_by Step.weightAll agenda
decreasing_by
  have := Step.weightAll_lt_of_perform _h
  simp only [Step.weightAll_append, Step.weightAll_cons]
  omega

/-- Builds a descriptor into a scope. Paths in errors start at its fragment. -/
def build (plan : Plan) (target : Nat) (d : Descriptor) (seed : Seed) : Except Failure Plan :=
  run seed (Step.ofBody target (((plan.scope? target).map (·.fragment)).getD "") d) plan

/-- The plan that a build leaves behind, finished or not. -/
def left : Except Failure Plan → Plan
  | .ok plan => plan
  | .error failure => failure.plan

/-- The plan of a descriptor. -/
def ofDescriptor (d : Descriptor) (seed : Seed) : Except CompileError Plan :=
  match empty.build 0 d seed with
  | .ok plan => .ok plan
  | .error failure => .error failure.error

end Plan

end Stylesheet
