/-
What a run does, step by step.

* `Plan.trace`: the steps of a run in their order, each with the plan on which it is performed;
* `Plan.journal`: the declarations of a run in their order, each with the number of its scope;
* `Plan.run_induction`: what holds of the empty agenda and before a refused step, and before a step
  that is performed if it holds after it, holds of every agenda;
* `Plan.run_append`, `journal_append`: a run over two agendas is one run after the other;
* `Plan.of_run`, `exists_left_run`, `exists_refused`, `forall_mem_trace`: what holds after a
  finished run, after any run, where a run is refused and during a run, by an invariant;
* `Plan.rel_left_run`: how a run leads on, by a reflexive and transitive relation;
* `Plan.does_of_mem_trace`: all that a step of a finished run leaves behind is performed;
* `Plan.Ready`: a well-formed plan, and an agenda about its scopes;
* `Ready.wellFormed_left_run`, `extends_left_run`: a run keeps a plan well-formed and its scopes in
  their places, whether it finishes or not;
* `Ready.declarations_left_run`: a scope ends up with its entries in the journal, in their order.
-/
import Stylesheet.Proofs.Build.Steps

namespace Stylesheet

/-- The declarations that a step makes on a plan; none if it is refused. -/
def Step.writes (seed : Seed) (plan : Plan) (step : Step) : List (Nat × String) :=
  match step.effect seed plan with
  | .ok e => e.writes
  | .error _ => []

namespace Plan

variable {seed : Seed} {plan : Plan} {step : Step} {rest agenda more : List Step}
  {writes : List (Nat × String)} {e : CompileError}

/-- The plan after a step that makes some declarations. -/
def after (plan : Plan) (step : Step) (writes : List (Nat × String)) : Plan :=
  (plan.grant step.request?).declareAll writes

/-- The steps of a run in their order, each with the plan on which it is performed. The last step
of a run that fails is the one that is refused. -/
def trace (seed : Seed) (agenda : List Step) (plan : Plan) : List (Plan × Step) :=
  match agenda with
  | [] => []
  | step :: rest =>
    (plan, step) ::
      match _h : step.perform seed plan with
      | .error _ => []
      | .ok (plan', more) => trace seed (more ++ rest) plan'
termination_by Step.weightAll agenda
decreasing_by
  have := Step.weightAll_lt_of_perform _h
  simp only [Step.weightAll_append, Step.weightAll_cons]
  omega

/-- The declarations of a run in their order, each with the number of its scope. -/
def journal (seed : Seed) (agenda : List Step) (plan : Plan) : List (Nat × String) :=
  (trace seed agenda plan).flatMap fun e => e.2.writes seed e.1

/-! ### One step of a run -/

lemma perform_of_effect (he : step.effect seed plan = .ok ⟨writes, more⟩) :
    step.perform seed plan = .ok (plan.after step writes, more) :=
  Step.perform_eq_ok.2 ⟨writes, he, rfl⟩

lemma effect_of_refused (h : step.perform seed plan = .error e) :
    step.effect seed plan = .error e := by
  rcases bind_eq_error.1 h with he | ⟨_, _, he⟩
  · exact he
  · cases he

@[simp] lemma run_nil : run seed [] plan = .ok plan := by
  rw [run]

lemma run_cons : run seed (step :: rest) plan = match step.perform seed plan with
    | .error e => .error ⟨e, plan⟩
    | .ok (plan', more) => run seed (more ++ rest) plan' := by
  rw [run]
  split <;> simp_all

lemma run_refused (h : step.perform seed plan = .error e) :
    run seed (step :: rest) plan = .error ⟨e, plan⟩ := by
  rw [run_cons, h]

lemma run_performed (he : step.effect seed plan = .ok ⟨writes, more⟩) :
    run seed (step :: rest) plan = run seed (more ++ rest) (plan.after step writes) := by
  rw [run_cons, perform_of_effect he]

/-- The plan of a descriptor is that of a finished run over its entries. -/
lemma ofDescriptor_eq_ok {d : Descriptor} :
    ofDescriptor d seed = .ok plan ↔ run seed (Step.ofBody 0 "" d) empty = .ok plan := by
  have hbuild : empty.build 0 d seed = run seed (Step.ofBody 0 "" d) empty := rfl
  rw [ofDescriptor, hbuild]
  cases run seed (Step.ofBody 0 "" d) empty with
  | ok final => simp
  | error failure => simp

/-- A descriptor is refused where a run over its entries is. -/
lemma ofDescriptor_eq_error {d : Descriptor} :
    ofDescriptor d seed = .error e
      ↔ ∃ plan, run seed (Step.ofBody 0 "" d) empty = .error ⟨e, plan⟩ := by
  have hbuild : empty.build 0 d seed = run seed (Step.ofBody 0 "" d) empty := rfl
  rw [ofDescriptor, hbuild]
  cases run seed (Step.ofBody 0 "" d) empty with
  | ok final => exact iff_of_false nofun nofun
  | error failure =>
    obtain ⟨e', plan⟩ := failure
    constructor
    · intro h
      cases h
      exact ⟨plan, rfl⟩
    · rintro ⟨_, h⟩
      cases h
      rfl

@[simp] lemma trace_nil : trace seed [] plan = [] := by
  rw [trace]

lemma trace_cons : trace seed (step :: rest) plan = (plan, step) ::
    match step.perform seed plan with
    | .error _ => []
    | .ok (plan', more) => trace seed (more ++ rest) plan' := by
  rw [trace]
  split <;> simp_all

lemma trace_refused (h : step.perform seed plan = .error e) :
    trace seed (step :: rest) plan = [(plan, step)] := by
  rw [trace_cons, h]

lemma trace_performed (he : step.effect seed plan = .ok ⟨writes, more⟩) :
    trace seed (step :: rest) plan
      = (plan, step) :: trace seed (more ++ rest) (plan.after step writes) := by
  rw [trace_cons, perform_of_effect he]

@[simp] lemma journal_nil : journal seed [] plan = [] := by
  rw [journal, trace_nil, List.flatMap_nil]

lemma journal_refused (h : step.perform seed plan = .error e) :
    journal seed (step :: rest) plan = [] := by
  simp only [journal, trace_refused h, Step.writes, effect_of_refused h, List.flatMap_cons,
    List.flatMap_nil, List.append_nil]

lemma journal_performed (he : step.effect seed plan = .ok ⟨writes, more⟩) :
    journal seed (step :: rest) plan
      = writes ++ journal seed (more ++ rest) (plan.after step writes) := by
  simp only [journal, trace_performed he, Step.writes, he, List.flatMap_cons]

/-- Induction along a run: over a step that is refused, and over one that is performed and leaves
its steps before the rest of the agenda. -/
@[elab_as_elim]
lemma run_induction (seed : Seed) {motive : List Step → Plan → Prop}
    (nil : ∀ plan, motive [] plan)
    (refused : ∀ step rest plan e, step.perform seed plan = .error e →
      motive (step :: rest) plan)
    (performed : ∀ step rest plan writes more, step.effect seed plan = .ok ⟨writes, more⟩ →
      Step.Does seed plan step writes more → motive (more ++ rest) (plan.after step writes) →
      motive (step :: rest) plan)
    (agenda : List Step) (plan : Plan) : motive agenda plan := by
  induction agenda, plan using run.induct seed with
  | case1 plan => exact nil plan
  | case2 plan step rest e h => exact refused step rest plan e h
  | case3 plan step rest plan' more h ih =>
    obtain ⟨writes, he, hd, rfl⟩ := Step.does_of_perform h
    exact performed step rest plan writes more he hd ih

/-- A run over two agendas is one run after the other, and goes no further where the first fails. -/
lemma run_append_eq_bind (agenda later : List Step) (plan : Plan) :
    run seed (agenda ++ later) plan = run seed agenda plan >>= run seed later := by
  induction agenda, plan using run_induction seed with
  | nil plan =>
    rw [run_nil]
    rfl
  | refused step rest plan e he =>
    rw [List.cons_append, run_refused he, run_refused he]
    rfl
  | performed step rest plan writes more he hd ih =>
    rw [List.cons_append, run_performed he, run_performed he, ← List.append_assoc, ih]

/-- A run over two agendas goes on where the run over the first one finished. -/
lemma run_append {later : List Step} {mid : Plan} (hrun : run seed agenda plan = .ok mid) :
    run seed (agenda ++ later) plan = run seed later mid := by
  rw [run_append_eq_bind, hrun]
  rfl

lemma journal_append {later : List Step} {mid : Plan} (hrun : run seed agenda plan = .ok mid) :
    journal seed (agenda ++ later) plan = journal seed agenda plan ++ journal seed later mid := by
  induction agenda, plan using run_induction seed with
  | nil plan =>
    rw [run_nil] at hrun
    cases hrun
    rw [journal_nil, List.nil_append, List.nil_append]
  | refused step rest plan e he =>
    rw [run_refused he] at hrun
    cases hrun
  | performed step rest plan writes more he hd ih =>
    rw [run_performed he] at hrun
    rw [List.cons_append, journal_performed he, journal_performed he, ← List.append_assoc, ih hrun,
      List.append_assoc]

/-- What holds before every step of a run: what follows from an invariant that every step keeps. -/
lemma forall_mem_trace {I : List Step → Plan → Prop} {P : Plan → Step → Prop}
    (head : ∀ step rest plan, I (step :: rest) plan → P plan step)
    (next : ∀ step rest plan writes more, I (step :: rest) plan →
      Step.Does seed plan step writes more → I (more ++ rest) (plan.after step writes))
    (h : I agenda plan) : ∀ e ∈ trace seed agenda plan, P e.1 e.2 := by
  induction agenda, plan using run_induction seed with
  | nil plan =>
    rw [trace_nil]
    exact List.forall_mem_nil _
  | refused step rest plan e he =>
    rw [trace_refused he]
    exact List.forall_mem_singleton.2 (head step rest plan h)
  | performed step rest plan writes more he hd ih =>
    rw [trace_performed he]
    exact List.forall_mem_cons.2 ⟨head step rest plan h, ih (next _ _ _ _ _ h hd)⟩

/-- What holds after a finished run: an invariant that every step keeps. -/
lemma of_run {I : List Step → Plan → Prop}
    (next : ∀ step rest plan writes more, I (step :: rest) plan →
      Step.Does seed plan step writes more → I (more ++ rest) (plan.after step writes))
    (h : I agenda plan) {final : Plan} (hrun : run seed agenda plan = .ok final) : I [] final := by
  induction agenda, plan using run_induction seed with
  | nil plan =>
    rw [run_nil] at hrun
    cases hrun
    exact h
  | refused step rest plan e he =>
    rw [run_refused he] at hrun
    cases hrun
  | performed step rest plan writes more he hd ih =>
    rw [run_performed he] at hrun
    exact ih (next _ _ _ _ _ h hd) hrun

/-- What holds after a run, finished or not: an invariant that every step keeps. -/
lemma exists_left_run {I : List Step → Plan → Prop}
    (next : ∀ step rest plan writes more, I (step :: rest) plan →
      Step.Does seed plan step writes more → I (more ++ rest) (plan.after step writes))
    (h : I agenda plan) : ∃ rest, I rest (left (run seed agenda plan)) := by
  induction agenda, plan using run_induction seed with
  | nil plan =>
    rw [run_nil]
    exact ⟨[], h⟩
  | refused step rest plan e he =>
    rw [run_refused he]
    exact ⟨step :: rest, h⟩
  | performed step rest plan writes more he hd ih =>
    rw [run_performed he]
    exact ih (next _ _ _ _ _ h hd)

/-- A run leads on by a reflexive and transitive relation by which every step leads on, whether it
finishes or not. -/
lemma rel_left_run {R : Plan → Plan → Prop} (refl : ∀ plan, R plan plan)
    (trans : ∀ {plan later last}, R plan later → R later last → R plan last)
    (after : ∀ plan step writes, R plan (plan.after step writes)) :
    R plan (left (run seed agenda plan)) := by
  have hleft : ∃ _ : List Step, R plan (left (run seed agenda plan)) :=
    exists_left_run (fun _ _ later _ _ h _ => trans h (after later _ _)) (refl plan)
  obtain ⟨_, h⟩ := hleft
  exact h

/-- A run that fails is refused at a step, before which an invariant holds that every step keeps. -/
lemma exists_refused {I : List Step → Plan → Prop}
    (next : ∀ step rest plan writes more, I (step :: rest) plan →
      Step.Does seed plan step writes more → I (more ++ rest) (plan.after step writes))
    (h : I agenda plan) {failure : Failure} (hrun : run seed agenda plan = .error failure) :
    ∃ step rest, I (step :: rest) failure.plan
      ∧ step.effect seed failure.plan = .error failure.error := by
  induction agenda, plan using run_induction seed with
  | nil plan =>
    rw [run_nil] at hrun
    cases hrun
  | refused step rest plan e he =>
    rw [run_refused he] at hrun
    cases hrun
    exact ⟨step, rest, h, effect_of_refused he⟩
  | performed step rest plan writes more he hd ih =>
    rw [run_performed he] at hrun
    exact ih (next _ _ _ _ _ h hd) hrun

/-- All of its agenda is performed in a finished run. -/
lemma exists_mem_trace {final : Plan} (hrun : run seed agenda plan = .ok final)
    (hs : step ∈ agenda) : ∃ p, (p, step) ∈ trace seed agenda plan := by
  induction agenda, plan using run_induction seed with
  | nil plan => cases hs
  | refused s rest plan e he =>
    rw [run_refused he] at hrun
    cases hrun
  | performed s rest plan writes more he hd ih =>
    rw [run_performed he] at hrun
    rw [trace_performed he]
    rcases List.mem_cons.1 hs with rfl | hs
    · exact ⟨plan, List.mem_cons_self⟩
    · obtain ⟨p, hp⟩ := ih hrun (List.mem_append_right more hs)
      exact ⟨p, List.mem_cons_of_mem _ hp⟩

/-- Each step of a finished run is performed, and so is all that it leaves behind. -/
lemma does_of_mem_trace {final : Plan} (hrun : run seed agenda plan = .ok final) {e : Plan × Step}
    (he : e ∈ trace seed agenda plan) :
    ∃ writes more, Step.Does seed e.1 e.2 writes more
      ∧ ∀ s ∈ more, ∃ p, (p, s) ∈ trace seed agenda plan := by
  induction agenda, plan using run_induction seed with
  | nil plan =>
    rw [trace_nil] at he
    cases he
  | refused step rest plan e' h =>
    rw [run_refused h] at hrun
    cases hrun
  | performed step rest plan writes more h hd ih =>
    rw [run_performed h] at hrun
    rw [trace_performed h] at he ⊢
    rcases List.mem_cons.1 he with rfl | he
    · refine ⟨writes, more, hd, fun s hs => ?_⟩
      obtain ⟨p, hp⟩ := exists_mem_trace hrun (List.mem_append_left rest hs)
      exact ⟨p, List.mem_cons_of_mem _ hp⟩
    · obtain ⟨writes', more', hd', hmore⟩ := ih hrun he
      refine ⟨writes', more', hd', fun s hs => ?_⟩
      obtain ⟨p, hp⟩ := hmore s hs
      exact ⟨p, List.mem_cons_of_mem _ hp⟩

/-! ### Runs on well-formed plans -/

/-- A well-formed plan, and an agenda about scopes of the plan. -/
structure Ready (agenda : List Step) (plan : Plan) : Prop where
  wellFormed : plan.WellFormed
  targets : ∀ step ∈ agenda, step.target < plan.size

lemma extends_after (plan : Plan) (step : Step) (writes : List (Nat × String)) :
    plan.Extends (plan.after step writes) :=
  (extends_grant step.request?).trans (extends_declareAll writes)

/-- A request of a step that is about a scope of the plan keeps the plan well-formed. -/
lemma WellFormed.grant (h : plan.WellFormed) (ht : step.target < plan.size) :
    (plan.grant step.request?).WellFormed := by
  cases step with
  | query host selector path q => exact h.enter (r := ⟨host, .media, q.target⟩) ht
  | scope r path body => exact h.enter ht
  | _ => exact h

namespace Ready

/-- The steps of a body are about its scope. -/
lemma ofBody (h : plan.WellFormed) {id : Nat} (hid : id < plan.size) (path : String)
    (body : Descriptor) : Ready (Step.ofBody id path body) plan where
  wellFormed := h
  targets step hs := by
    rw [Step.target_of_mem_ofBody hs]
    exact hid

/-- After a step that was performed, plan and agenda are ready for the next one. -/
lemma performed (h : Ready (step :: rest) plan) (hd : Step.Does seed plan step writes more) :
    Ready (more ++ rest) (plan.after step writes) where
  wellFormed := (h.wellFormed.grant (h.targets step List.mem_cons_self)).declareAll writes
  targets s hs := by
    have ht := h.targets step List.mem_cons_self
    rw [after, size_declareAll]
    rcases List.mem_append.1 hs with hs | hs
    · exact (hd.targets h.wellFormed ht).2 s hs
    · exact Nat.lt_of_lt_of_le (h.targets s (List.mem_cons_of_mem _ hs))
        (extends_grant step.request?).size_le

/-- A run keeps a plan well-formed, whether it finishes or not. -/
lemma wellFormed_left_run (h : Ready agenda plan) : (left (run seed agenda plan)).WellFormed := by
  obtain ⟨_, hleft⟩ := exists_left_run (fun _ _ _ _ _ h hd => h.performed hd) h
  exact hleft.wellFormed

end Ready

/-- A run keeps all scopes in their places, whether it finishes or not. -/
lemma extends_left_run : plan.Extends (left (run seed agenda plan)) :=
  rel_left_run .refl .trans extends_after

lemma extends_of_run {final : Plan} (hrun : run seed agenda plan = .ok final) :
    plan.Extends final := by
  have hext : plan.Extends (left (run seed agenda plan)) := extends_left_run
  rwa [hrun] at hext

/-- The plan that a run leaves behind has the scope that answered any request of the run. -/
lemma extends_of_mem_trace {e : Plan × Step} (he : e ∈ trace seed agenda plan)
    {final : Plan} (hrun : run seed agenda plan = .ok final) :
    (e.1.grant e.2.request?).Extends final := by
  induction agenda, plan using run_induction seed with
  | nil plan =>
    rw [trace_nil] at he
    cases he
  | refused step rest plan e' h =>
    rw [run_refused h] at hrun
    cases hrun
  | performed step rest plan writes more h hd ih =>
    rw [run_performed h] at hrun
    rw [trace_performed h] at he
    rcases List.mem_cons.1 he with rfl | he
    · exact (extends_declareAll writes).trans (extends_of_run hrun)
    · exact ih he hrun

/-! ### The journal -/

lemma declarations_grant (request : Option Request) (id : Nat) :
    (plan.grant request).declarations id = plan.declarations id := by
  cases request with
  | none => rfl
  | some r => exact declarations_enter r id

/-- A step adds to a scope what it declares there. -/
lemma declarations_after (hw : ∀ w ∈ writes, w.1 < plan.size) (id : Nat) :
    (plan.after step writes).declarations id = plan.declarations id ++ textsAt id writes := by
  have hsize : plan.size ≤ (plan.grant step.request?).size :=
    (extends_grant step.request?).size_le
  by_cases hid : id < (plan.grant step.request?).size
  · rw [after, declarations_declareAll hid, declarations_grant]
  · have hnone : textsAt id writes = [] := textsAt_eq_nil fun w hm => by
      have := hw w hm
      omega
    rw [after, declarations, scope?_declareAll, scope?_eq_none.2 (Nat.not_lt.1 hid),
      declarations, scope?_eq_none.2 (by omega), hnone]
    rfl

namespace Ready

/-- Every declaration of a run is made in a scope that ends up in the plan. -/
lemma lt_size_of_mem_journal (h : Ready agenda plan) {w : Nat × String}
    (hw : w ∈ journal seed agenda plan) : w.1 < (left (run seed agenda plan)).size := by
  induction agenda, plan using run_induction seed with
  | nil plan =>
    rw [journal_nil] at hw
    cases hw
  | refused step rest plan e he =>
    rw [journal_refused he] at hw
    cases hw
  | performed step rest plan writes more he hd ih =>
    rw [journal_performed he] at hw
    rw [run_performed he]
    rcases List.mem_append.1 hw with hw | hw
    · have hlt := (hd.targets h.wellFormed (h.targets step List.mem_cons_self)).1 w hw
      exact Nat.lt_of_lt_of_le hlt
        ((extends_after plan step writes).trans extends_left_run).size_le
    · exact ih (h.performed hd) hw

/-- A scope ends up with the declarations that it had and those that the journal has for it. -/
lemma declarations_left_run (h : Ready agenda plan) (id : Nat) :
    (left (run seed agenda plan)).declarations id
      = plan.declarations id ++ textsAt id (journal seed agenda plan) := by
  induction agenda, plan using run_induction seed with
  | nil plan => rw [run_nil, journal_nil, textsAt_nil, List.append_nil, left]
  | refused step rest plan e he =>
    rw [run_refused he, journal_refused he, textsAt_nil, List.append_nil, left]
  | performed step rest plan writes more he hd ih =>
    have hw := (hd.targets h.wellFormed (h.targets step List.mem_cons_self)).1
    rw [run_performed he, journal_performed he, ih (h.performed hd), declarations_after hw,
      textsAt_append, List.append_assoc]

end Ready

end Plan

end Stylesheet
