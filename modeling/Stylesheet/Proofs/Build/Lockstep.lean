/-
Two builds in lockstep, on one plan.

* `Plan.SameOutcome`: two runs both finish or are both refused, and they leave the same plan behind;
* `Step.Follows`: an agenda that goes along with another one, step by step, but for steps that have
  nothing to do;
* `Step.EffectsAlike`: two steps are both refused, or make the same declarations and leave agendas
  behind that go along;
* `Step.Lockstep`: what has to be shown of each step;
* `Lockstep.sameOutcome`: agendas that go along have the same outcome.

The two builds may have two seeds, and errors may differ, as they tell of keys and of paths.
-/
import Stylesheet.Proofs.Build.Run

namespace Stylesheet

/-! ### Outcomes -/

/-- Two runs both finish or are both refused, and leave the same plan behind. -/
inductive Plan.SameOutcome : Except Failure Plan → Except Failure Plan → Prop where
  | finished (plan : Plan) : SameOutcome (.ok plan) (.ok plan)
  | refused (e e' : CompileError) (plan : Plan) :
      SameOutcome (.error ⟨e, plan⟩) (.error ⟨e', plan⟩)

namespace Plan.SameOutcome

variable {x y : Except Failure Plan}

lemma left_eq (h : SameOutcome x y) : left x = left y := by
  cases h <;> rfl

lemma eq_ok_iff (h : SameOutcome x y) {plan : Plan} : x = .ok plan ↔ y = .ok plan := by
  cases h with
  | finished plan => rfl
  | refused e e' plan => exact ⟨nofun, nofun⟩

lemma exists_ok_iff (h : SameOutcome x y) : (∃ plan, x = .ok plan) ↔ ∃ plan, y = .ok plan :=
  exists_congr fun _ => h.eq_ok_iff

end Plan.SameOutcome

namespace Step

variable {seed seed' : Seed} {idle : Step → Prop} {R : Step → Step → Prop}
  {agenda agenda' later later' : List Step}

/-! ### Agendas -/

/-- An agenda goes along with another one: it has the steps of the other one up to a relation, and
leaves out idle ones. -/
inductive Follows (idle : Step → Prop) (R : Step → Step → Prop) : List Step → List Step → Prop where
  | nil : Follows idle R [] []
  | skip {step : Step} {agenda agenda' : List Step} (hi : idle step)
      (h : Follows idle R agenda agenda') : Follows idle R (step :: agenda) agenda'
  | cons {step step' : Step} {agenda agenda' : List Step} (hs : R step step')
      (h : Follows idle R agenda agenda') : Follows idle R (step :: agenda) (step' :: agenda')

/-- No step is left out. -/
def NoIdle (_ : Step) : Prop := False

lemma Follows.append (h : Follows idle R agenda agenda') (hl : Follows idle R later later') :
    Follows idle R (agenda ++ later) (agenda' ++ later') := by
  induction h with
  | nil => exact hl
  | skip hi _ ih => exact .skip hi ih
  | cons hs _ ih => exact .cons hs ih

lemma Follows.map {α : Type} {f g : α → Step} {xs : List α} (h : ∀ x ∈ xs, R (f x) (g x)) :
    Follows idle R (xs.map f) (xs.map g) := by
  induction xs with
  | nil => exact .nil
  | cons x xs ih =>
    obtain ⟨hx, hxs⟩ := List.forall_mem_cons.1 h
    exact .cons hx (ih hxs)

/-! ### Effects -/

/-- Two steps are both refused, or make the same declarations and leave agendas behind that go
along. -/
inductive EffectsAlike (idle : Step → Prop) (R : Step → Step → Prop) :
    Except CompileError Effect → Except CompileError Effect → Prop where
  | refused (e e' : CompileError) : EffectsAlike idle R (.error e) (.error e')
  | performed {more more' : List Step} (writes : List (Nat × String))
      (h : Follows idle R more more') :
      EffectsAlike idle R (.ok ⟨writes, more⟩) (.ok ⟨writes, more'⟩)

/-- Effects that start with two computations are alike, if the computations come to results together
and go on alike from there. -/
lemma EffectsAlike.bind {α β : Type} {x : Except CompileError α} {y : Except CompileError β}
    {f : α → Except CompileError Effect} {g : β → Except CompileError Effect} (t : α → β)
    (hxy : y.toOption = x.toOption.map t)
    (h : ∀ a, x = .ok a → EffectsAlike idle R (f a) (g (t a))) :
    EffectsAlike idle R (x >>= f) (y >>= g) := by
  cases x with
  | error e =>
    cases y with
    | error e' => exact .refused e e'
    | ok b => cases hxy
  | ok a =>
    cases y with
    | error e' => cases hxy
    | ok b =>
      cases hxy
      exact h a rfl

/-- Effects that start with one computation, up to its error, are alike if they go on alike. -/
lemma EffectsAlike.bind_same {α : Type} {x y : Except CompileError α}
    {f g : α → Except CompileError Effect} (hxy : y.toOption = x.toOption)
    (h : ∀ a, x = .ok a → EffectsAlike idle R (f a) (g a)) :
    EffectsAlike idle R (x >>= f) (y >>= g) :=
  .bind id (by rw [hxy, Option.map_id, id]) h

/-- What makes two builds go along, under an invariant of the first one: idle steps do nothing, and
related steps have the same request and effects that are alike. -/
structure Lockstep (seed seed' : Seed) (idle : Step → Prop) (R : Step → Step → Prop)
    (I : List Step → Plan → Prop) : Prop where
  next : ∀ step rest plan writes more, I (step :: rest) plan → Does seed plan step writes more →
    I (more ++ rest) (plan.after step writes)
  skip : ∀ step plan, idle step → step.request? = none ∧ step.effect seed plan = .ok {}
  alike : ∀ step step' rest plan, R step step' → I (step :: rest) plan →
    step'.request? = step.request?
      ∧ EffectsAlike idle R (step.effect seed plan) (step'.effect seed' plan)

open Plan

/-- Agendas that go along have the same outcome. -/
lemma Lockstep.sameOutcome {I : List Step → Plan → Prop} (hl : Lockstep seed seed' idle R I)
    {plan : Plan} (h : Follows idle R agenda agenda') (hi : I agenda plan) :
    SameOutcome (run seed agenda plan) (run seed' agenda' plan) := by
  induction agenda, plan using run_induction seed generalizing agenda' with
  | nil plan =>
    cases h
    rw [run_nil, run_nil]
    exact .finished plan
  | refused step rest plan e he =>
    have heffect := effect_of_refused he
    cases h with
    | skip hidle _ =>
      rw [(hl.skip step plan hidle).2] at heffect
      cases heffect
    | @cons _ step' _ rest' hs _ =>
      obtain ⟨_, ha⟩ := hl.alike step step' rest plan hs hi
      rw [heffect] at ha
      generalize he' : step'.effect seed' plan = effect' at ha
      cases ha with
      | refused _ e' =>
        rw [run_refused he, run_refused (bind_eq_error.2 (.inl he'))]
        exact .refused e e' plan
  | performed step rest plan writes more he hd ih =>
    have hnext := hl.next step rest plan writes more hi hd
    cases h with
    | skip hidle hrest =>
      obtain ⟨hr, hnone⟩ := hl.skip step plan hidle
      rw [he] at hnone
      cases hnone
      have hsame : plan.after step [] = plan := by
        rw [after, hr]
        rfl
      rw [run_performed he]
      rw [hsame] at ih hnext ⊢
      exact ih hrest hnext
    | @cons _ step' _ rest' hs hrest =>
      obtain ⟨hr, ha⟩ := hl.alike step step' rest plan hs hi
      rw [he] at ha
      generalize he' : step'.effect seed' plan = effect' at ha
      cases ha with
      | performed _ hmore =>
        have hsame : plan.after step' writes = plan.after step writes := by
          rw [after, hr, after]
        rw [run_performed he, run_performed he', hsame]
        exact ih (hmore.append hrest) hnext

end Step

end Stylesheet
