/-
Refusals for the fault of a payload.

* `Faultless`: a computation that is not refused for the fault of a payload;
* `Faultless.directiveEffect`: once its payload was read, an entry has no fault;
* `Step.exists_finding_of_classify`: a payload is refused at one of its findings;
* `Step.exists_finding_of_effect`: a step that is refused for the fault of a payload is an entry,
  and the fault is one of those that are found in its payload.
-/
import Stylesheet.Plan.Build
import Stylesheet.Proofs.Bodies

namespace Stylesheet

/-! ### Computations without faults -/

/-- A computation is not refused for the fault of a payload. -/
def Faultless {α : Type} (x : Except CompileError α) : Prop :=
  ∀ fault, x ≠ .error (.payload fault)

namespace Faultless

variable {α β : Type} {x : Except CompileError α} {f : α → Except CompileError β}

lemma ok (a : α) : Faultless (.ok a) := by
  intro fault h
  cases h

lemma bind (hx : Faultless x) (hf : ∀ a, Faultless (f a)) : Faultless (x >>= f) := by
  intro fault h
  rcases bind_eq_error.1 h with h | ⟨a, _, h⟩
  · exact hx fault h
  · exact hf a fault h

lemma map (hx : Faultless x) (g : α → β) : Faultless (x >>= fun a => .ok (g a)) :=
  hx.bind fun a => .ok (g a)

lemma unexpectedValue (key : String) (expected : Expectation) (found : Shape) :
    Faultless (.error (.unexpectedValue key expected found) : Except CompileError α) := by
  intro fault h
  cases h

lemma listOf (key : String) (value : Value) : Faultless (Directive.listOf key value) := by
  rw [Directive.listOf]
  split
  · exact ok _
  · exact unexpectedValue _ _ _

lemma blockOf (key : String) (expected : Expectation) (value : Value) :
    Faultless (Directive.blockOf key expected value) := by
  rw [Directive.blockOf]
  split
  · exact ok _
  · exact unexpectedValue _ _ _

lemma readItems {read : Value → String → Except CompileError α}
    (h : ∀ v path, Faultless (read v path)) (path : String) (i : Nat) (items : List Value) :
    Faultless (Payload.readItems read path i items) := by
  induction items generalizing i with
  | nil => exact ok _
  | cons v rest ih =>
    rw [Payload.readItems]
    split
    · exact ih (i + 1)
    · exact (h v _).bind fun x => (ih (i + 1)).map (x :: ·)

lemma itemsOf (key : String) (expected : Expectation) (as? : Value → Option α)
    (items : List Value) : Faultless (Directive.itemsOf key expected as? items) := by
  refine readItems (fun v _ => ?_) "" 0 items
  rw [Directive.itemOf]
  split
  · exact ok _
  · exact unexpectedValue _ _ _

lemma textOf (mapping : Descriptor) : Faultless (Declaration.textOf mapping) := by
  have htexts : ∀ entries, Faultless (Declaration.textsOf entries) := fun entries => by
    induction entries with
    | nil => exact ok _
    | cons e rest ih =>
      obtain ⟨key, value⟩ := e
      cases value with
      | absent => exact ih
      | literal l => exact ih.map (Declaration.text key l :: ·)
      | _ => exact unexpectedValue _ _ _
  exact (htexts mapping.entries).map _

lemma keyframesCss (rule : Keyframes) : Faultless rule.css := by
  have hblock : ∀ selector css, Faultless (Keyframes.block selector css) := fun selector css =>
    (textOf css).map _
  have hstep : ∀ step : Keyframes.Step, Faultless step.css := fun step => by
    cases step with
    | ends start finish => exact (hblock "from" start).bind fun _ => (hblock "to" finish).map _
    | percentage share css => exact hblock (share ++ "%") css
  have hsteps : ∀ steps, Faultless (Keyframes.stepsCss steps) := fun steps => by
    induction steps with
    | nil => exact ok _
    | cons step rest ih => exact (hstep step).bind fun _ => ih.map _
  exact (hsteps rule.steps).map _

lemma globalHost (plan : Plan) (id : Nat) (directive : Directive.Reserved) :
    Faultless (plan.globalHost id directive) := by
  rw [Plan.globalHost]
  split
  · exact ok _
  · intro fault h
    cases h

lemma mixinHost (plan : Plan) (id : Nat) : Faultless (plan.mixinHost id) := by
  rw [Plan.mixinHost]
  split
  · exact ok _
  · split
    · exact ok _
    · intro fault h
      cases h

lemma mediaHost (plan : Plan) (id : Nat) : Faultless (plan.mediaHost id) := by
  rw [Plan.mediaHost]
  split
  · intro fault h
    cases h
  · split
    · intro fault h
      cases h
    · exact globalHost plan id .media

/-- Once its payload was read, an entry has no fault. -/
lemma directiveEffect (seed : Seed) (plan : Plan) (id : Nat) (path : String) (d : Directive) :
    Faultless (Step.directiveEffect seed plan id path d) := by
  cases d with
  | atRules rules => exact (globalHost plan id .atRules).map _
  | keyframes rules => exact (globalHost plan id .keyframes).map _
  | mixins body => exact (mixinHost plan id).map _
  | media queries => exact (mediaHost plan id).map _
  | overrides mappings => exact ok _
  | nested suffix body => exact ok _
  | member key value =>
    rw [Step.directiveEffect, Step.memberEffect]
    split
    · exact (blockOf key .ruleBody value).map _
    · split
      · exact ok _
      · exact unexpectedValue _ _ _

end Faultless

/-! ### Refused steps -/

namespace Step

open Plan

variable {seed : Seed} {plan : Plan} {step : Step} {key path : String} {value : Value}
  {fault : Payload.Fault}

/-- A payload is refused at one of its findings. -/
lemma exists_finding_of_classify (ha : value.isAbsent = false)
    (h : Directive.classify key value path = .error (.payload fault)) :
    ∃ f ∈ Descriptor.payloadFindings key value, f.fault path = fault := by
  have hpayload : ∀ {α : Type} {fs : List Payload.Finding} {x : Except Payload.Fault α}
      {g : α → Directive}, Payload.JustifiedBy path fs x →
      (Directive.ofPayload x >>= fun a => .ok (g a)) = .error (.payload fault) →
      ∃ f ∈ fs, f.fault path = fault := by
    intro α fs x g hx hr
    cases x with
    | ok a => cases hr
    | error fault' =>
      cases hr
      exact hx
  rw [Descriptor.payloadFindings, if_neg (by rw [ha]; exact Bool.false_ne_true)]
  rw [Directive.classify] at h
  split at h
  · rename_i reserved hk
    rw [hk]
    cases reserved with
    | atRules =>
      exact absurd h ((Faultless.listOf _ value).bind
        (fun items => (Faultless.itemsOf _ _ _ items).map _) fault)
    | keyframes =>
      exact hpayload (Payload.readList_justified Keyframes.read_justified _ value path) h
    | mixins => exact absurd h ((Faultless.blockOf _ _ value).map _ fault)
    | media => exact hpayload (Payload.readList_justified MediaQuery.read_justified _ value path) h
    | overrides =>
      exact absurd h ((Faultless.listOf _ value).bind
        (fun items => (Faultless.itemsOf _ _ _ items).map _) fault)
  · split at h
    · split at h
      · cases h
      · exact absurd h ((Faultless.blockOf key _ value).map _ fault)
    · cases h

/-- A step that is refused for the fault of a payload is an entry with a finding in its payload. -/
lemma exists_finding_of_effect (h : step.effect seed plan = .error (.payload fault)) :
    ∃ id path key value, step = .entry id path key value
      ∧ ∃ f ∈ Descriptor.payloadFindings key value, f.fault (Path.child path key) = fault := by
  cases step with
  | entry id path key value =>
    refine ⟨id, path, key, value, rfl, ?_⟩
    rw [effect] at h
    split at h
    · cases h
    · rename_i ha
      rcases bind_eq_error.1 h with h | ⟨d, _, h⟩
      · exact exists_finding_of_classify (Bool.eq_false_iff.2 ha) h
      · exact absurd h (Faultless.directiveEffect seed plan id _ d fault)
  | keyframes host rule => exact absurd h ((Faultless.keyframesCss rule).map _ fault)
  | override id mapping => exact absurd h ((Faultless.textOf mapping).map _ fault)
  | mixin host path name value =>
    rw [effect] at h
    split at h
    · cases h
    · exact absurd h ((Faultless.blockOf name _ value).map _ fault)
  | query host selector path q => cases h
  | scope r path body => cases h

end Step

end Stylesheet
