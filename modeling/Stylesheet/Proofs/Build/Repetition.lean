/-
Building the same again.

* `Extends.globalHost`, `mixinHost`, `mediaHost`: a scope keeps its hosts while a plan grows;
* `Step.Does.again`: on a later plan that has the answers to its request, a step does what it did
  before;
* `Ready.run_again`: over the plan that a run has left, the same agenda enters no scope and makes
  the same declarations;
* `repeats_build`: a build that is done twice does the second time what it did the first time, but
  for the scopes, which are all there by then.

The first run decides on hosts while scopes are still missing, the second one finds them all, some
of them perhaps of another kind than was asked for. Both decide alike, because a decision looks at
nothing but headings of scopes that were there at the time.
-/
import Mathlib.Data.List.Find
import Stylesheet.Proofs.Build.Appending
import Stylesheet.Proofs.Build.Reachable
import Stylesheet.Proofs.Plan.Settings

namespace Stylesheet

/-! ### Hosts -/

namespace Plan.Extends

variable {plan later : Plan} {id : Nat}

/-- Of the scopes on a chain the same one is found by its kind, whatever was entered since. -/
lemma find?_ancestors (h : plan.Extends later) (hid : id < plan.size) {as : List Nat}
    (has : as ⊆ plan.ancestors id) (p : Option Kind → Bool) :
    (as.find? fun a => p (later.kind? a)) = as.find? fun a => p (plan.kind? a) := by
  refine List.find?_congr fun a ha => ?_
  rw [h.kind? (Nat.lt_of_le_of_lt (le_of_mem_ancestors (has ha)) hid)]

lemma globalHost (h : plan.Extends later) (hid : id < plan.size)
    (directive : Directive.Reserved) :
    later.globalHost id directive = plan.globalHost id directive := by
  rw [Plan.globalHost, Plan.globalHost, h.ancestors hid,
    h.find?_ancestors hid (List.Subset.refl _) fun k => k = some .global]

lemma mixinHost (h : plan.Extends later) (hid : id < plan.size) :
    later.mixinHost id = plan.mixinHost id := by
  rw [Plan.mixinHost, Plan.mixinHost, h.kind? hid, h.ancestors hid,
    h.find?_ancestors hid (List.tail_sublist _).subset fun k => k = some .global ∨ k = some .media]

lemma mediaHost (h : plan.Extends later) (hid : id < plan.size) :
    later.mediaHost id = plan.mediaHost id := by
  rw [Plan.mediaHost, Plan.mediaHost, h.withinMedia hid, h.kind? hid, h.globalHost hid]

end Plan.Extends

/-! ### Steps -/

namespace Step

open Plan

variable {seed : Seed} {plan later : Plan} {step : Step} {writes : List (Nat × String)}
  {more : List Step}

/-- A directive does the same in a scope of a later plan. -/
lemma DirectiveDoes.again {id : Nat} {path : String} {d : Directive}
    (hd : DirectiveDoes seed plan id path d writes more) (h : plan.Extends later)
    (hid : id < plan.size) : DirectiveDoes seed later id path d writes more := by
  cases hd with
  | atRules hh => exact .atRules ((h.globalHost hid _).trans hh)
  | keyframes hh => exact .keyframes ((h.globalHost hid _).trans hh)
  | mixins hh => exact .mixins ((h.mixinHost hid).trans hh)
  | media hh =>
    rw [← h.selector hid]
    exact .media ((h.mediaHost hid).trans hh)
  | overrides => exact .overrides
  | nested => exact .nested
  | rule hk hb => exact .rule ((h.kind? hid).trans hk) hb
  | declaration hk hl => exact .declaration (by rwa [h.kind? hid]) hl

/-- A step does the same on a later plan that has the answers to its request. -/
lemma Does.again (hd : Does seed plan step writes more) (h : plan.Extends later)
    (ht : step.target < plan.size)
    (hr : ∀ r ∈ step.request?, later.child? r.host r.fragment = some (plan.answer r)) :
    Does seed later step writes more := by
  cases hd with
  | absentEntry ha => exact .absentEntry ha
  | entry ha hc hd => exact .entry ha hc (hd.again h ht)
  | keyframes htext => exact .keyframes htext
  | override htext => exact .override htext
  | absentMixin ha => exact .absentMixin ha
  | mixin hb => exact .mixin hb
  | query =>
    rw [← answer_of_some (hr _ rfl)]
    exact .query
  | scope =>
    rw [← answer_of_some (hr _ rfl)]
    exact .scope

end Step

/-! ### Runs -/

namespace Plan

variable {seed : Seed} {plan final : Plan} {step : Step} {agenda : List Step} {target : Nat}
  {d : Descriptor}

/-- A plan on which every request of a step is answered stays as it is. -/
lemma grant_of_child? {request : Option Request} {answer : Request → Nat}
    (h : ∀ r ∈ request, plan.child? r.host r.fragment = some (answer r)) :
    plan.grant request = plan := by
  cases request with
  | none => rfl
  | some r => exact enter_of_some (h r rfl)

/-- After a request, what answers it is found under its fragment. -/
lemma WellFormed.child?_enter_answer (h : plan.WellFormed) {r : Request} (hr : r.host < plan.size) :
    (plan.enter r).child? r.host r.fragment = some (plan.answer r) :=
  (h.enter hr).child?_eq_some.2 ⟨h.parent?_answer r, h.fragment?_answer r⟩

lemma declareAll_declareAll (writes later : List (Nat × String)) :
    (plan.declareAll writes).declareAll later = plan.declareAll (writes ++ later) :=
  List.foldl_append.symm

/-- What answers a request of a step is found in every plan that grows out of the one after it. -/
lemma Ready.child?_of_growsInto {rest : List Step} (h : Ready (step :: rest) plan)
    (hg : (plan.grant step.request?).GrowsInto final) {r : Request} (hr : r ∈ step.request?) :
    final.child? r.host r.fragment = some (plan.answer r) := by
  have ht := h.targets step List.mem_cons_self
  cases step with
  | query host selector path q =>
    cases hr
    exact hg.child? (h.wellFormed.child?_enter_answer ht)
  | scope r' path body =>
    cases hr
    exact hg.child? (h.wellFormed.child?_enter_answer ht)
  | _ => cases hr

/-- Over the plan that a finished run has left, whatever was declared there since, the same agenda
enters no scope and makes the same declarations. -/
lemma Ready.run_again (h : Ready agenda plan) (hrun : run seed agenda plan = .ok final)
    (writes : List (Nat × String)) :
    run seed agenda (final.declareAll writes)
      = .ok (final.declareAll (writes ++ journal seed agenda plan)) := by
  induction agenda, plan using run_induction seed generalizing writes with
  | nil plan =>
    rw [run_nil] at hrun
    cases hrun
    rw [run_nil, journal_nil, List.append_nil]
  | refused step rest plan e he =>
    rw [run_refused he] at hrun
    cases hrun
  | performed step rest plan made more he hd ih =>
    rw [run_performed he] at hrun
    have hnext : (plan.after step made).GrowsInto final := by
      have hleft : (plan.after step made).GrowsInto (left (run seed (more ++ rest) _)) :=
        growsInto_left_run
      rwa [hrun] at hleft
    have hgrows : (plan.grant step.request?).GrowsInto (final.declareAll writes) :=
      ((growsInto_declareAll made).trans hnext).trans (growsInto_declareAll writes)
    have hextends : plan.Extends (final.declareAll writes) :=
      ((extends_after plan step made).trans (extends_of_run hrun)).trans (extends_declareAll writes)
    have hanswers := fun r hr => h.child?_of_growsInto hgrows (r := r) hr
    have hd' : Step.Does seed (final.declareAll writes) step made more :=
      hd.again hextends (h.targets step List.mem_cons_self) hanswers
    calc run seed (step :: rest) (final.declareAll writes)
      _ = run seed (more ++ rest) ((final.declareAll writes).after step made) :=
        run_performed hd'.effect
      _ = run seed (more ++ rest) (final.declareAll (writes ++ made)) := by
        rw [after, grant_of_child? hanswers, declareAll_declareAll]
      _ = .ok (final.declareAll (writes ++ journal seed (step :: rest) plan)) := by
        rw [ih (h.performed hd) hrun, journal_performed he, List.append_assoc]

/-- **Repetition**: what was built into a scope of a plan can be built there again. The second build
enters no scope and lists none, and it adds to the declarations of every scope what the first build
has added to them. -/
theorem repeats_build (h : plan.Reachable) (ht : target < plan.size) {once : Plan}
    (hb : plan.build target d seed = .ok once) :
    ∃ twice, once.build target d seed = .ok twice ∧ twice.size = once.size
      ∧ ∀ id s, once.scope? id = some s → ∃ added,
          s.declarations = plan.declarations id ++ added
            ∧ twice.scope? id = some { s with declarations := s.declarations ++ added } := by
  have hready := Ready.ofBody (wellFormed_of_reachable h) ht
    (((plan.scope? target).map (·.fragment)).getD "") d
  have hfragment : (once.scope? target).map (·.fragment) = (plan.scope? target).map (·.fragment) :=
    (extends_of_run hb).fragment? ht
  have htwice := hready.run_again hb []
  refine ⟨_, by rw [build, hfragment]; exact htwice, size_declareAll _, fun id s hs => ?_⟩
  refine ⟨textsAt id (journal seed _ plan), ?_, by rw [scope?_declareAll, hs]; rfl⟩
  have hleft : (left (run seed _ plan)).declarations id = _ := hready.declarations_left_run id
  rw [← declarations_of_scope? hs, ← hleft]
  exact congrArg (fun x => (left x).declarations id) hb.symm

/-- A rule, a mixin of the selector of the rule, and a mixin of the prelude of its media block: both
mixins are built into scopes of another kind. -/
def namesakes : Descriptor :=
  ⟨[("a", .block [("color", .literal (.text "red")), ("media", .list [.block [
      ("print", .literal (.text "")), ("css", .block [("color", .literal (.text "black"))])]])]),
    ("mixins", .block [
      (".a", .block [("mixins", .block [(":hover", .block [("top", .literal (.text "0"))])])]),
      ("@media (print)", .block [("left", .literal (.text "0"))])])]⟩

/-- What a build leaves that is refused at its second rule. -/
def halfBuilt : Plan :=
  left (empty.build 0 ⟨[("a", .block [("margin", .literal (.text "0"))]),
    ("b", .literal (.text "red"))]⟩ .identity)

/-- Mixins that are built into a rule and into a media block are built there twice. -/
theorem repeats_build_namesakes :
    ∃ once twice, halfBuilt.Reachable ∧ 0 < halfBuilt.size
      ∧ halfBuilt.build 0 namesakes .identity = .ok once
      ∧ once.build 0 namesakes .identity = .ok twice ∧ twice.size = once.size
      ∧ ∀ id s, once.scope? id = some s → ∃ added,
          s.declarations = halfBuilt.declarations id ++ added
            ∧ twice.scope? id = some { s with declarations := s.declarations ++ added } := by
  have hreachable : halfBuilt.Reachable := .build .empty Nat.one_pos _ _
  have ht : 0 < halfBuilt.size := by decide +kernel
  obtain ⟨once, hb, _⟩ : ∃ once, halfBuilt.build 0 namesakes .identity = .ok once ∧ _ :=
    exists_ok_of_any (p := fun plan => plan.size = 5) (by decide +kernel)
  obtain ⟨twice, hb', hscopes⟩ := repeats_build hreachable ht hb
  exact ⟨once, twice, hreachable, ht, hb, hb', hscopes⟩

end Plan

end Stylesheet
