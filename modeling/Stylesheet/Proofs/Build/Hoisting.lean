/-
What builds declare in the root.

* `Step.hoistedTexts`: the at-rules and animations of a step, for the root from wherever it stands;
* `Step.rootOverrides`: the overrides of a step that stands in the root itself;
* `Step.Does.textsAt_root`: a step declares these in the root, and nothing else;
* `Descriptor.overrideTexts`, `Step.pendingOverrides`: the overrides at the top of a descriptor, and
  those that a step still has before it in the root;
* `Plan.orderly_of_reachable`: reachable plans with a stylesheet as their root are orderly, so that
  builds into any of their scopes are;
* `Plan.buildTrace`, `hoisted`, `rootOverrides`: the steps of a build, and what they have for the
  root;
* `Orderly.textsAt_root_journal`: a run declares these in the root, and nothing else;
* `Orderly.overrides_isPrefix`, `overrides_of_run`: its overrides in the root are those at the top
  of the descriptor, as far as it goes.
-/
import Stylesheet.Proofs.Build.Layered
import Stylesheet.Proofs.Build.Orderly
import Stylesheet.Proofs.OwnTexts
import Stylesheet.Proofs.Plan.Settings

namespace Stylesheet

open Plan

namespace Step

variable {seed : Seed} {plan : Plan} {step : Step} {more : List Step}
  {writes : List (Nat × String)} {id : Nat} {path : String}

/-- The at-rules and animations that a step declares in the root. -/
def hoistedTexts : Step → List String
  | .entry _ path key value =>
    match Directive.classify key value (Path.child path key) with
    | .ok (.atRules rules) => rules.map terminated
    | _ => []
  | .keyframes _ rule => rule.css.toOption.toList
  | _ => []

/-- The overrides that a step declares in the root, if it stands there. -/
def rootOverrides : Step → List String
  | .override id mapping => if id = 0 then Directive.overrideTexts mapping else []
  | _ => []

lemma hoistedTexts_of_isAbsent {key : String} {value : Value} (ha : value.isAbsent = true) :
    hoistedTexts (.entry id path key value) = [] := by
  rw [hoistedTexts]
  split
  · rename_i rules hc
    cases Directive.classify_eq_ok.1 hc with
    | atRules _ hv _ =>
      rw [Value.list?_eq_some.1 hv] at ha
      cases ha
  · rfl

/-! ### One step -/

/-- Declarations of one scope are all in that scope. -/
lemma textsAt_map_self (id : Nat) (texts : List String) :
    textsAt id (texts.map fun text => (id, text)) = texts := by
  induction texts with
  | nil => rfl
  | cons text texts ih => rw [List.map_cons, textsAt_cons, if_pos rfl, ih]

lemma DirectiveDoes.textsAt_root {d : Directive} {key : String} {value : Value} (h : plan.Rooted)
    (hc : Directive.classify key value (Path.child path key) = .ok d)
    (hd : DirectiveDoes seed plan id (Path.child path key) d writes more) :
    textsAt 0 writes = hoistedTexts (.entry id path key value) := by
  rw [hoistedTexts, hc]
  cases hd with
  | @atRules rules host hh =>
    obtain rfl := h.globalHost_eq_zero hh
    have hself := textsAt_map_self 0 (rules.map terminated)
    rwa [List.map_map] at hself
  | declaration hk hl =>
    -- a literal under a plain key in the root is no declaration
    have hid : id ≠ 0 := fun h₀ => hk (h.kind?_eq_global.2 h₀)
    rw [textsAt_cons, if_neg hid, textsAt_nil]
  | _ => exact textsAt_nil 0

/-- What a step declares in the root: at-rules and animations, and overrides if it stands there. -/
lemma Does.textsAt_root (h : plan.Rooted) (hs : step.Regular)
    (hd : Does seed plan step writes more) :
    textsAt 0 writes = step.hoistedTexts ++ step.rootOverrides := by
  cases hd with
  | absentEntry ha =>
    rw [hoistedTexts_of_isAbsent ha]
    rfl
  | entry ha hc hd =>
    rw [hd.textsAt_root h hc]
    exact (List.append_nil _).symm
  | keyframes hr =>
    obtain rfl := hs
    rw [textsAt_cons, if_pos rfl, textsAt_nil, hoistedTexts, hr]
    rfl
  | @override id mapping text ht =>
    have hnone : hoistedTexts (.override id mapping) = [] := rfl
    rw [hnone, rootOverrides, Directive.overrideTexts_of_textOf ht, List.nil_append]
    by_cases hid : id = 0
    · rw [if_pos hid]
      split <;> simp [hid]
    · rw [if_neg hid]
      split <;> simp [hid]
  | _ => exact textsAt_nil 0

/-- A step that is refused has nothing for the root. -/
lemma root_of_refused {e : CompileError} (h : plan.Rooted) (ht : step.target < plan.size)
    (he : step.effect seed plan = .error e) :
    step.hoistedTexts = [] ∧ step.rootOverrides = [] := by
  cases step with
  | entry id path key value =>
    refine ⟨?_, rfl⟩
    rw [hoistedTexts]
    split
    · rename_i rules hc
      -- at-rules have a host everywhere
      have hhost : plan.globalHost id .atRules = .ok 0 := h.globalHost_eq_ok_zero ht .atRules
      rw [effect] at he
      split at he
      · cases he
      · rcases bind_eq_error.1 he with he | ⟨d, hd, he⟩
        · rw [hc] at he
          cases he
        · obtain rfl : d = .atRules rules := Except.ok.inj (hd.symm.trans hc)
          rcases bind_eq_error.1 he with he | ⟨_, _, he⟩
          · rw [hhost] at he
            cases he
          · cases he
    · rfl
  | keyframes host rule =>
    refine ⟨?_, rfl⟩
    rcases bind_eq_error.1 he with he | ⟨_, _, he⟩
    · rw [hoistedTexts, he]
      rfl
    · cases he
  | override id mapping =>
    refine ⟨rfl, ?_⟩
    rcases bind_eq_error.1 he with he | ⟨_, _, he⟩
    · rw [rootOverrides, Directive.overrideTexts_of_error he, ite_self]
    · cases he
  | _ => exact ⟨rfl, rfl⟩

end Step

/-! ### Overrides at the top of a descriptor -/

/-- The overrides of an entry, a text for each mapping with a literal. -/
def Directive.overridesOf (key : String) (value : Value) : List String :=
  match classify key value "" with
  | .ok (.overrides mappings) => mappings.flatMap overrideTexts
  | _ => []

/-- The overrides at the top of a descriptor, a text for each mapping with a literal. -/
def Descriptor.overrideTexts (d : Descriptor) : List String :=
  d.entries.flatMap fun e => Directive.overridesOf e.1 e.2

lemma Directive.overridesOf_of_isAbsent {key : String} {value : Value}
    (ha : value.isAbsent = true) : overridesOf key value = [] := by
  rw [overridesOf]
  split
  · rename_i mappings hc
    cases classify_eq_ok.1 hc with
    | overrides _ hv _ =>
      rw [Value.list?_eq_some.1 hv] at ha
      cases ha
  · rfl

namespace Step

variable {seed : Seed} {plan : Plan} {step : Step} {more : List Step}
  {writes : List (Nat × String)} {id : Nat}

/-- The overrides that a step has before it in the root. -/
def pendingOverrides : Step → List String
  | .entry id _ key value => if id = 0 then Directive.overridesOf key value else []
  | .override id mapping => if id = 0 then Directive.overrideTexts mapping else []
  | _ => []

lemma flatMap_pendingOverrides_ofBody (id : Nat) (path : String) (body : Descriptor) :
    (ofBody id path body).flatMap pendingOverrides = if id = 0 then body.overrideTexts else [] := by
  rw [ofBody, List.flatMap_map]
  by_cases hid : id = 0
  · simp only [pendingOverrides, if_pos hid]
    rfl
  · simp only [pendingOverrides, if_neg hid]
    exact List.flatMap_eq_nil_iff.2 fun _ _ => rfl

lemma DirectiveDoes.flatMap_pendingOverrides {key path : String} {value : Value} {d : Directive}
    (hc : Directive.classify key value (Path.child path key) = .ok d)
    (hd : DirectiveDoes seed plan id (Path.child path key) d writes more) :
    more.flatMap pendingOverrides = pendingOverrides (.entry id path key value) := by
  rw [pendingOverrides, Directive.overridesOf, Directive.classify_path hc ""]
  cases hd with
  | @overrides mappings =>
    rw [List.flatMap_map]
    by_cases hid : id = 0
    · simp only [pendingOverrides, if_pos hid]
    · simp only [pendingOverrides, if_neg hid]
      exact List.flatMap_eq_nil_iff.2 fun _ _ => rfl
  | keyframes hh =>
    rw [ite_self, List.flatMap_map]
    exact List.flatMap_eq_nil_iff.2 fun _ _ => rfl
  | mixins hh =>
    rw [ite_self, List.flatMap_map]
    exact List.flatMap_eq_nil_iff.2 fun _ _ => rfl
  | media hh =>
    rw [ite_self]
    refine List.flatMap_eq_nil_iff.2 fun s hs => ?_
    obtain ⟨_, _, rfl⟩ := eq_query_of_mem_ofQueries hs
    rfl
  | _ => exact (ite_self _).symm

/-- What a step has before it is what it declares itself and what it leaves to the steps after it.
No step leaves a body for the root. -/
lemma Does.pendingOverrides_eq (h : plan.WellFormed) (ht : step.target < plan.size)
    (hd : Does seed plan step writes more) :
    step.pendingOverrides = step.rootOverrides ++ more.flatMap pendingOverrides := by
  cases hd with
  | @absentEntry id path key value ha =>
    rw [pendingOverrides, Directive.overridesOf_of_isAbsent ha, ite_self]
    rfl
  | entry ha hc hd => exact (hd.flatMap_pendingOverrides hc).symm
  | override ht => exact (List.append_nil _).symm
  | @scope r path body =>
    rw [flatMap_pendingOverrides_ofBody, if_neg (h.answer_ne_zero r ht)]
    rfl
  | _ => rfl

end Step

/-! ### Runs -/

namespace Plan

variable {seed : Seed} {plan : Plan} {agenda : List Step} {target : Nat} {d : Descriptor}

/-- The build of a body into a scope of an orderly plan is orderly. -/
lemma Orderly.ofBody (h : Orderly [] plan) (ht : target < plan.size) (path : String)
    (body : Descriptor) : Orderly (Step.ofBody target path body) plan where
  rooted := h.rooted
  media := h.media
  targets step hs := by
    rw [Step.target_of_mem_ofBody hs]
    exact ht
  regular _ hs := Step.regular_of_mem_ofBody hs

/-- An orderly run leaves an orderly plan behind, whether it finishes or not. -/
lemma Orderly.left_run (h : Orderly agenda plan) : Orderly [] (left (run seed agenda plan)) := by
  obtain ⟨rest, hleft⟩ := exists_left_run (fun _ _ _ _ _ h hd => h.performed hd) h
  exact ⟨hleft.rooted, hleft.media, List.forall_mem_nil _, List.forall_mem_nil _⟩

/-- Reachable plans whose root is a stylesheet are orderly. -/
lemma orderly_of_reachable (h : plan.Reachable) (hroot : plan.kind? 0 = some .global) :
    Orderly [] plan := by
  induction h with
  | empty => exact ⟨rooted_empty, (Orderly.build .empty).media, List.forall_mem_nil _,
      List.forall_mem_nil _⟩
  | standalone fragment => cases hroot
  | @build plan h target ht d seed ih =>
    have hkept : plan.Extends (left (plan.build target d seed)) := extends_left_run
    rw [hkept.kind? (wellFormed_of_reachable h).size_pos] at hroot
    exact ((ih hroot).ofBody ht _ d).left_run

/-- The steps of a build in their order, each with the plan on which it is performed. -/
def buildTrace (plan : Plan) (target : Nat) (d : Descriptor) (seed : Seed) : List (Plan × Step) :=
  trace seed (Step.ofBody target (((plan.scope? target).map (·.fragment)).getD "") d) plan

/-- The at-rules and animations that a build declares in the root, in their order. -/
def hoisted (plan : Plan) (target : Nat) (d : Descriptor) (seed : Seed) : List String :=
  (plan.buildTrace target d seed).flatMap fun e => e.2.hoistedTexts

/-- The overrides that a build declares in the root, in their order. -/
def rootOverrides (plan : Plan) (target : Nat) (d : Descriptor) (seed : Seed) : List String :=
  (plan.buildTrace target d seed).flatMap fun e => e.2.rootOverrides

/-- A run declares in the root the at-rules and animations of its steps, and the overrides of those
that stand there. -/
lemma Orderly.textsAt_root_journal (h : Orderly agenda plan) :
    textsAt 0 (journal seed agenda plan)
      = (trace seed agenda plan).flatMap fun e => e.2.hoistedTexts ++ e.2.rootOverrides := by
  induction agenda, plan using run_induction seed with
  | nil plan => rw [journal_nil, trace_nil, textsAt_nil, List.flatMap_nil]
  | refused step rest plan e he =>
    obtain ⟨hhoisted, hoverrides⟩ := Step.root_of_refused h.rooted
      (h.targets step List.mem_cons_self) (effect_of_refused he)
    rw [journal_refused he, trace_refused he, textsAt_nil, List.flatMap_singleton, hhoisted,
      hoverrides, List.append_nil]
  | performed step rest plan writes more he hd ih =>
    rw [journal_performed he, trace_performed he, textsAt_append, List.flatMap_cons,
      hd.textsAt_root h.rooted (h.regular step List.mem_cons_self), ih (h.performed hd)]

/-- After a build the root has declared, behind what it had, the at-rules and animations of the
build and the overrides of its steps in the root. -/
lemma Orderly.declarations_root_build (h : Orderly [] plan) (ht : target < plan.size)
    (d : Descriptor) (seed : Seed) :
    (left (plan.build target d seed)).declarations 0 = plan.declarations 0
      ++ (plan.buildTrace target d seed).flatMap fun e =>
          e.2.hoistedTexts ++ e.2.rootOverrides := by
  rw [buildTrace, ← (h.ofBody ht _ d).textsAt_root_journal]
  exact (Ready.ofBody h.rooted.wellFormed ht _ d).declarations_left_run 0

/-- A run declares in the root overrides that its agenda has for it, in their order. -/
lemma Orderly.overrides_isPrefix (h : Orderly agenda plan) (seed : Seed) :
    ((trace seed agenda plan).flatMap fun e => e.2.rootOverrides)
      <+: agenda.flatMap Step.pendingOverrides := by
  induction agenda, plan using run_induction seed with
  | nil plan =>
    rw [trace_nil]
    exact List.nil_prefix
  | refused step rest plan e he =>
    have hnone := (Step.root_of_refused h.rooted (h.targets step List.mem_cons_self)
      (effect_of_refused he)).2
    rw [trace_refused he, List.flatMap_singleton, hnone]
    exact List.nil_prefix
  | performed step rest plan writes more he hd ih =>
    rw [trace_performed he, List.flatMap_cons, List.flatMap_cons,
      hd.pendingOverrides_eq h.rooted.wellFormed (h.targets step List.mem_cons_self),
      List.append_assoc, ← List.flatMap_append]
    exact (List.prefix_append_right_inj _).2 (ih (h.performed hd))

/-- A finished run declares in the root all overrides that its agenda has for it. -/
lemma Orderly.overrides_of_run (h : Orderly agenda plan) {final : Plan}
    (hrun : run seed agenda plan = .ok final) :
    ((trace seed agenda plan).flatMap fun e => e.2.rootOverrides)
      = agenda.flatMap Step.pendingOverrides := by
  induction agenda, plan using run_induction seed with
  | nil plan =>
    rw [trace_nil]
    rfl
  | refused step rest plan e he =>
    rw [run_refused he] at hrun
    cases hrun
  | performed step rest plan writes more he hd ih =>
    rw [run_performed he] at hrun
    rw [trace_performed he, List.flatMap_cons, List.flatMap_cons,
      hd.pendingOverrides_eq h.rooted.wellFormed (h.targets step List.mem_cons_self),
      ih (h.performed hd) hrun, List.append_assoc, ← List.flatMap_append]

/-- The overrides of a build in the root are at the top of the descriptor, which is built into the
root. -/
lemma Orderly.of_mem_rootOverrides (h : Orderly [] plan) (ht : target < plan.size) {text : String}
    (hm : text ∈ plan.rootOverrides target d seed) : target = 0 ∧ text ∈ d.overrideTexts := by
  have hsub := ((h.ofBody ht _ d).overrides_isPrefix seed).subset hm
  rw [Step.flatMap_pendingOverrides_ofBody] at hsub
  split at hsub
  · rename_i hroot
    exact ⟨hroot, hsub⟩
  · cases hsub

end Plan

end Stylesheet
