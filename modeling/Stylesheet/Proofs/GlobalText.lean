/-
The text before the rules of a stylesheet.

* `Terminated`: whether a text is complete, so that a rule can follow it;
* `Step.terminated_of_mem_hoistedTexts`: what steps have for the root from anywhere is complete;
* `Plan.Build`, `afterBuilds`, `Admits`: builds one after another, each into a scope that is there
  by then;
* `Orderly.unterminated_afterBuilds`: what is incomplete in the root are overrides;
* `Plan.terminated_root_iff`: all of it together.

Overrides are declarations, which are joined by semicolons and have none at the end. In the root
they are written as they are, so that they run into the rule after them.
-/
import Stylesheet.Proofs.Build.Hoisting
import Stylesheet.Proofs.Build.Reachable
import Stylesheet.Proofs.Plan.Emission

namespace Stylesheet

open Plan

/-- Whether a text ends with a semicolon or with a brace, as a complete statement does. -/
def Terminated (text : String) : Prop :=
  text.toList.getLast? = some ';' ∨ text.toList.getLast? = some '\x7d'
  deriving Decidable

/-- The texts that are not complete. -/
def unterminated (texts : List String) : List String :=
  texts.filter fun text => ¬ Terminated text

lemma unterminated_append (texts more : List String) :
    unterminated (texts ++ more) = unterminated texts ++ unterminated more :=
  List.filter_append texts more

lemma unterminated_eq_nil {texts : List String} :
    unterminated texts = [] ↔ ∀ text ∈ texts, Terminated text := by
  simp [unterminated, List.filter_eq_nil_iff]

/-! ### What is complete -/

lemma getLast?_toList_append_singleton {text mark : String} {c : Char} (h : mark.toList = [c]) :
    (text ++ mark).toList.getLast? = some c := by
  rw [String.toList_append, h, List.getLast?_concat]

lemma terminated_terminated (rule : String) : Terminated (Step.terminated rule) := by
  rw [Step.terminated]
  split
  · rename_i hlast
    exact .inl hlast
  · rename_i hlast
    exact .inr hlast
  · exact .inl (getLast?_toList_append_singleton rfl)

lemma Keyframes.terminated_css {rule : Keyframes} {text : String} (h : rule.css = .ok text) :
    Terminated text := by
  obtain ⟨steps, _, h⟩ := bind_eq_ok.1 h
  cases h
  exact .inr (getLast?_toList_append_singleton rfl)

namespace Step

variable {seed : Seed} {plan : Plan} {step : Step} {more : List Step}
  {writes : List (Nat × String)}

/-- The at-rules and animations of a step are complete. -/
lemma terminated_of_mem_hoistedTexts {text : String} (h : text ∈ step.hoistedTexts) :
    Terminated text := by
  cases step with
  | entry id path key value =>
    rw [hoistedTexts] at h
    split at h
    · obtain ⟨rule, _, rfl⟩ := List.mem_map.1 h
      exact terminated_terminated rule
    · cases h
  | keyframes host rule =>
    rw [hoistedTexts, Option.mem_toList, toOption_eq_some] at h
    exact Keyframes.terminated_css h
  | _ => cases h

/-- What is incomplete of what a step declares in the root are overrides. -/
lemma unterminated_root (step : Step) :
    unterminated (step.hoistedTexts ++ step.rootOverrides) = unterminated step.rootOverrides := by
  rw [unterminated_append, unterminated_eq_nil.2 fun _ h => terminated_of_mem_hoistedTexts h,
    List.nil_append]

lemma unterminated_roots (steps : List (Plan × Step)) :
    unterminated (steps.flatMap fun e => e.2.hoistedTexts ++ e.2.rootOverrides)
      = unterminated (steps.flatMap fun e => e.2.rootOverrides) := by
  induction steps with
  | nil => rfl
  | cons e rest ih =>
    rw [List.flatMap_cons, unterminated_append, ih, unterminated_root, List.flatMap_cons,
      unterminated_append]

end Step

namespace Plan

variable {seed : Seed} {plan : Plan} {target : Nat} {d : Descriptor}

/-! ### Builds, one after another -/

/-- A build: what is built, in which scope, and under which seed. -/
structure Build where
  target : Nat
  descriptor : Descriptor
  seed : Seed

/-- The plan that a build leaves behind, finished or not. -/
def Build.leave (b : Build) (plan : Plan) : Plan :=
  left (plan.build b.target b.descriptor b.seed)

/-- The plan after some builds. -/
def afterBuilds (plan : Plan) : List Build → Plan
  | [] => plan
  | b :: rest => (b.leave plan).afterBuilds rest

/-- Whether each of some builds is into a scope that is there by then. -/
def Admits (plan : Plan) : List Build → Prop
  | [] => True
  | b :: rest => b.target < plan.size ∧ (b.leave plan).Admits rest

/-- The overrides that some builds declare in the root, in their order. -/
def overridesOf (plan : Plan) : List Build → List String
  | [] => []
  | b :: rest =>
    plan.rootOverrides b.target b.descriptor b.seed ++ (b.leave plan).overridesOf rest

instance decidableAdmits : (plan : Plan) → (builds : List Build) → Decidable (plan.Admits builds)
  | _, [] => .isTrue trivial
  | plan, b :: rest =>
    haveI := decidableAdmits (b.leave plan) rest
    inferInstanceAs (Decidable (b.target < plan.size ∧ (b.leave plan).Admits rest))

namespace Orderly

variable {builds : List Build} {b : Build}

lemma leave (h : Orderly [] plan) (ht : b.target < plan.size) : Orderly [] (b.leave plan) :=
  (h.ofBody ht _ b.descriptor).left_run

/-- Builds leave an orderly plan behind. -/
lemma afterBuilds (h : Orderly [] plan) (hb : plan.Admits builds) :
    Orderly [] (plan.afterBuilds builds) := by
  induction builds generalizing plan with
  | nil => exact h
  | cons b rest ih => exact ih (h.leave hb.1) hb.2

/-- What is incomplete in the root after a build was there before, or is an override of the
build. -/
lemma unterminated_leave (h : Orderly [] plan) (ht : b.target < plan.size) :
    unterminated ((b.leave plan).declarations 0) = unterminated (plan.declarations 0)
      ++ unterminated (plan.rootOverrides b.target b.descriptor b.seed) := by
  rw [Build.leave, h.declarations_root_build ht, unterminated_append, Step.unterminated_roots,
    rootOverrides]

/-- What is incomplete in the root after some builds was there before, or is an override of one of
them. -/
lemma unterminated_afterBuilds (h : Orderly [] plan) (hb : plan.Admits builds) :
    unterminated ((plan.afterBuilds builds).declarations 0)
      = unterminated (plan.declarations 0) ++ unterminated (plan.overridesOf builds) := by
  induction builds generalizing plan with
  | nil => exact (List.append_nil _).symm
  | cons b rest ih =>
    rw [Plan.afterBuilds, ih (h.leave hb.1) hb.2, h.unterminated_leave hb.1, Plan.overridesOf,
      unterminated_append, List.append_assoc]

/-- The overrides that some builds declare in the root are at the top of what is built there. -/
lemma exists_build_of_mem_overridesOf (h : Orderly [] plan) (hb : plan.Admits builds)
    {text : String} (hm : text ∈ plan.overridesOf builds) :
    ∃ b ∈ builds, b.target = 0 ∧ text ∈ b.descriptor.overrideTexts := by
  induction builds generalizing plan with
  | nil => cases hm
  | cons b rest ih =>
    rcases List.mem_append.1 hm with hm | hm
    · exact ⟨b, List.mem_cons_self, h.of_mem_rootOverrides hb.1 hm⟩
    · obtain ⟨b', hb', hfound⟩ := ih (h.leave hb.1) hb.2 hm
      exact ⟨b', List.mem_cons_of_mem _ hb', hfound⟩

end Orderly

/-- The plan of a descriptor has in its root the overrides at the top of the descriptor. -/
lemma overridesOf_of_ofDescriptor (h : ofDescriptor d seed = .ok plan) :
    empty.overridesOf [⟨0, d, seed⟩] = d.overrideTexts := by
  have hall := (Orderly.build d).overrides_of_run (ofDescriptor_eq_ok.1 h)
  rw [Step.flatMap_pendingOverrides_ofBody, if_pos rfl] at hall
  rw [overridesOf, overridesOf, List.append_nil]
  exact hall

/-- What is incomplete in the root after some builds are overrides. -/
lemma unterminated_root_afterBuilds {builds : List Build} (hb : empty.Admits builds) :
    unterminated ((empty.afterBuilds builds).declarations 0)
      = unterminated (empty.overridesOf builds) := by
  rw [(orderly_of_reachable .empty rfl).unterminated_afterBuilds hb]
  rfl

/-- A stylesheet starts with the text of its root as it is, and goes on with rules. -/
lemma Rooted.css_eq (h : plan.Rooted) :
    plan.css = String.join (plan.declarations 0)
      ++ Statement.cssAll ((plan.children 0).flatMap (plan.statementsAt "")) := by
  rw [css, h.statements_eq, Statement.cssAll_append, Statement.cssAll_map_raw]

/-- **Global text**: after any builds into an empty plan, finished or not, the text before the rules
is complete statements up to overrides that are built right into the stylesheet: what is incomplete
there are exactly those of them that are incomplete themselves. So the text is complete if and only
if they are. For a descriptor that is built, they are all of the overrides at its top. -/
theorem terminated_root_iff {builds : List Build} {plan : Plan} (hb : empty.Admits builds)
    (hplan : empty.afterBuilds builds = plan) :
    plan.css = String.join (plan.declarations 0)
        ++ Statement.cssAll ((plan.children 0).flatMap (plan.statementsAt ""))
      ∧ unterminated (plan.declarations 0) = unterminated (empty.overridesOf builds)
      ∧ ((∀ text ∈ plan.declarations 0, Terminated text)
        ↔ ∀ text ∈ empty.overridesOf builds, Terminated text)
      ∧ (∀ text ∈ empty.overridesOf builds,
        ∃ b ∈ builds, b.target = 0 ∧ text ∈ b.descriptor.overrideTexts)
      ∧ ∀ d seed, builds = [⟨0, d, seed⟩] → ofDescriptor d seed = .ok plan →
          empty.overridesOf builds = d.overrideTexts := by
  have hempty : Orderly [] empty := orderly_of_reachable .empty rfl
  have hroot := unterminated_root_afterBuilds hb
  rw [hplan] at hroot
  refine ⟨?_, hroot, ?_, fun text hm => hempty.exists_build_of_mem_overridesOf hb hm, ?_⟩
  · rw [← hplan]
    exact (hempty.afterBuilds hb).rooted.css_eq
  · rw [← unterminated_eq_nil, ← unterminated_eq_nil, hroot]
  · rintro d seed rfl h
    exact overridesOf_of_ofDescriptor h

/-- A rule whose animation and at-rules come before it. -/
def pulsing : Descriptor :=
  ⟨[("overrides", .list [.block [("color", .literal (.text "red;"))], .block []]),
    ("a", .block [("keyframes", .list [.block [("name", .literal (.text "pulse")),
        ("steps", .list [.block [("percentage", .literal (.text "50%")),
          ("css", .block [("top", .literal (.text "0"))])]])]]),
      ("atRules", .list [.literal (.text "@import 'a.css' ")])])]⟩

/-- Overrides in a rule, after which the build is refused. -/
def refusedLate : Descriptor :=
  ⟨[("overrides", .list [.block [("margin", .literal (.text "0"))]]),
    ("atRules", .list [.literal (.text "@charset 'utf-8';")]), ("& b", .literal (.text "red"))]⟩

/-- Two builds, of which the second one is into a rule of the first one and does not finish. The
text in the root is complete, as the override at the top is. -/
theorem terminated_root_iff_pulsing :
    empty.Admits [⟨0, pulsing, .identity⟩, ⟨1, refusedLate, .identity⟩]
      ∧ (empty.afterBuilds
          [⟨0, pulsing, .identity⟩, ⟨1, refusedLate, .identity⟩]).declarations 0
        = ["color:red;", "@keyframes pulse\x7b50% \x7btop:0\x7d\x7d", "@import 'a.css';",
          "@charset 'utf-8';"]
      ∧ (∀ text ∈ (empty.afterBuilds
          [⟨0, pulsing, .identity⟩, ⟨1, refusedLate, .identity⟩]).declarations 0, Terminated text)
      ∧ empty.Admits [⟨0, pulsing, .identity⟩]
      ∧ (∃ plan, ofDescriptor pulsing .identity = .ok plan)
      ∧ empty.overridesOf [⟨0, pulsing, .identity⟩] = pulsing.overrideTexts := by
  have hadmits : empty.Admits [⟨0, pulsing, .identity⟩, ⟨1, refusedLate, .identity⟩] := by
    decide +kernel
  have hadmits' : empty.Admits [⟨0, pulsing, .identity⟩] := by decide +kernel
  obtain ⟨plan, hbuilt, _⟩ : ∃ plan, ofDescriptor pulsing .identity = .ok plan ∧ _ :=
    exists_ok_of_any (p := fun plan => plan.size = 2) (by decide +kernel)
  have hplan : empty.afterBuilds [⟨0, pulsing, .identity⟩] = plan :=
    congrArg left (ofDescriptor_eq_ok.1 hbuilt)
  exact ⟨hadmits, by decide +kernel, (terminated_root_iff hadmits rfl).2.2.1.2 (by decide +kernel),
    hadmits', ⟨plan, hbuilt⟩, (terminated_root_iff hadmits' hplan).2.2.2.2 _ _ rfl hbuilt⟩

/-- Overrides at the top of a descriptor, and a rule. -/
def bareOverride : Descriptor :=
  ⟨[("overrides", .list [.block [("color", .literal (.text "red"))]]),
    ("a", .block [("margin", .literal (.number 0))])]⟩

/-- Overrides at the top of a descriptor are incomplete, and run into the rule after them. -/
theorem not_terminated_bareOverride :
    empty.Admits [⟨0, bareOverride, .identity⟩]
      ∧ (empty.afterBuilds [⟨0, bareOverride, .identity⟩]).css = "color:red.a \x7bmargin:0\x7d"
      ∧ ¬ ∀ text ∈ (empty.afterBuilds [⟨0, bareOverride, .identity⟩]).declarations 0,
          Terminated text := by
  decide +kernel

end Plan

end Stylesheet
