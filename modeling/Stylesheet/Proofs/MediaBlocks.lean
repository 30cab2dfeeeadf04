/-
Media blocks: one block at the top of the stylesheet for each set of features.

* `MediaQuery.prelude_eq_of_perm`: a prelude does not depend on the order of the features;
* `Statement.preludes`: the preludes of the media blocks in a statement, at any depth;
* `Plan.preludes`: the fragments of the media blocks of a plan;
* `Plan.preludes_perm_statements`: the stylesheet of a plan has one block for each of them;
* `Plan.hostings`: the queries of a run, each with the scope that is their host;
* `Plan.Hosting`: reachable plans, with all the hostings of the builds that lead to them;
* `Plan.flatMedia_of_reachable`: media blocks are flat, and queries with one set of features share
  one host.
-/
import Stylesheet.Proofs.Build.Layered
import Stylesheet.Proofs.Plan.Emission

namespace Stylesheet

/-! ### Features -/

/-- Features with different names have one prelude in whatever order they are written. -/
lemma MediaQuery.prelude_eq_of_perm {features features' : List (String × String)}
    (hp : features.Perm features') (hn : (features.map (·.1)).Nodup) :
    prelude features = prelude features' := by
  have hsorted : ∀ fs, (sorted fs).Pairwise
      fun f g => decide (f.1 ≤ g.1) = true := by
    intro fs
    refine List.pairwise_mergeSort (fun f g h hfg hgh => ?_) (fun f g => ?_) fs
    · exact decide_eq_true (String.le_trans (of_decide_eq_true hfg) (of_decide_eq_true hgh))
    · rw [Bool.or_eq_true, decide_eq_true_eq, decide_eq_true_eq]
      exact String.le_total f.1 g.1
  have hmem : ∀ {fs f}, f ∈ sorted fs ↔ f ∈ fs := (List.mergeSort_perm _ _).mem_iff
  have heq : sorted features = sorted features' := by
    refine List.Perm.eq_of_pairwise (fun f g hf hg hfg hgf => ?_) (hsorted _) (hsorted _)
      ((List.mergeSort_perm _ _).trans (hp.trans (List.mergeSort_perm _ _).symm))
    exact List.inj_on_of_nodup_map hn (hmem.1 hf) (hp.mem_iff.2 (hmem.1 hg))
      (String.le_antisymm (of_decide_eq_true hfg) (of_decide_eq_true hgf))
  rw [prelude, heq, prelude]

/-! ### Statements -/

namespace Statement

mutual

/-- The preludes of the media blocks in a statement, at any depth. -/
def preludes : Statement → List String
  | .raw _ => []
  | .rule _ _ => []
  | .media target body => target :: preludesAll body

/-- The preludes of the media blocks in some statements, one statement after another. -/
def preludesAll : List Statement → List String
  | [] => []
  | s :: rest => preludes s ++ preludesAll rest

end

lemma preludesAll_eq_flatMap (ss : List Statement) : preludesAll ss = ss.flatMap preludes := by
  induction ss with
  | nil => rfl
  | cons s ss ih => rw [preludesAll, ih, List.flatMap_cons]

lemma preludesAll_append (ss ts : List Statement) :
    preludesAll (ss ++ ts) = preludesAll ss ++ preludesAll ts := by
  simp only [preludesAll_eq_flatMap, List.flatMap_append]

lemma preludesAll_raw (texts : List String) : preludesAll (texts.map .raw) = [] := by
  rw [preludesAll_eq_flatMap, List.flatMap_map, List.flatMap_eq_nil_iff]
  exact fun _ _ => rfl

lemma preludesAll_rule (selector : String) (declarations : List String) :
    preludesAll (Tree.rule selector declarations) = [] := by
  rw [Tree.rule]
  split <;> rfl

end Statement

/-- The fragment of a scope that is a media block. -/
def Scope.prelude? (s : Scope) : Option String :=
  if s.kind = .media then some s.fragment else none

/-- The query of a step, with the scope that hosts it. -/
def Step.hosting? (plan : Plan) : Step → Option (MediaQuery × Nat)
  | .query host _ _ q => some (q, plan.answer ⟨host, .media, q.target⟩)
  | _ => none

namespace Plan

variable {seed : Seed} {plan : Plan} {step : Step} {agenda rest more : List Step}
  {writes : List (Nat × String)} {id c : Nat} {f : String} {q : MediaQuery}

/-- The fragments of the media blocks of a plan, in the order in which they were entered. -/
def preludes (plan : Plan) : List String :=
  plan.scopes.filterMap Scope.prelude?

/-- The fragment of the scope with a number, if it is a media block. -/
def prelude? (plan : Plan) (id : Nat) : Option String :=
  (plan.scope? id).bind Scope.prelude?

lemma prelude?_eq_some :
    plan.prelude? id = some f ↔ plan.kind? id = some .media ∧ plan.fragment? id = some f := by
  rw [prelude?, kind?, fragment?]
  cases plan.scope? id with
  | none => simp
  | some s => simp [Scope.prelude?]

lemma preludes_eq : plan.preludes = (List.range plan.size).filterMap plan.prelude? := by
  have hscopes : plan.scopes.map some = (List.range plan.size).map plan.scope? := by
    refine List.ext_getElem (by simp [size]) fun i h₁ h₂ => ?_
    rw [List.getElem_map, List.getElem_map, List.getElem_range, scope?, List.getElem?_eq_getElem]
  have hleft : plan.preludes = (plan.scopes.map some).filterMap fun s => s.bind Scope.prelude? := by
    rw [List.filterMap_map]
    rfl
  rw [hleft, hscopes, List.filterMap_map]
  rfl

namespace WellFormed

/-- The statements of a scope have one block for each media block that the scope stands around,
whatever selector they go on from. -/
lemma preludesAll_statementsAt (h : plan.WellFormed) (hid : id < plan.size) (outer : String) :
    Statement.preludesAll (plan.statementsAt outer id)
      = (plan.visited id).filterMap plan.prelude? := by
  induction id, hid using h.child_induction generalizing outer with
  | host id hid ih =>
    obtain ⟨s, hs⟩ := exists_scope hid
    have hunder : ∀ outer, Statement.preludesAll
        ((plan.children id).flatMap (plan.statementsAt outer))
          = ((plan.children id).flatMap plan.visited).filterMap plan.prelude? := by
      intro outer
      rw [Statement.preludesAll_eq_flatMap, List.flatMap_assoc, List.filterMap_flatMap]
      refine List.flatMap_congr fun c hc => ?_
      have hp := h.mem_children.1 hc
      rw [← Statement.preludesAll_eq_flatMap, ih c (lt_size_of_parent? hp) hp]
    rw [h.visited_eq hid, List.filterMap_cons, h.statementsAt_eq hs, prelude?, hs,
      Option.bind_some, Scope.prelude?]
    cases s.kind with
    | global =>
      simp only [Statement.preludesAll_append, Statement.preludesAll_raw, hunder]
      rfl
    | media =>
      simp only [Statement.preludesAll, Statement.preludes, hunder]
      rw [List.append_nil]
      rfl
    | _ =>
      simp only [Statement.preludesAll_append, Statement.preludesAll_rule, hunder]
      rfl

/-- The stylesheet of a plan has one block for each media block of the plan. -/
lemma preludes_perm_statements (h : plan.WellFormed) :
    (Statement.preludesAll plan.statements).Perm plan.preludes := by
  rw [h.statements_eq, h.preludesAll_statementsAt h.size_pos, preludes_eq]
  exact h.visited_perm.filterMap _

end WellFormed

/-! ### Flat media blocks -/

/-- The media blocks of a plan are right under the stylesheet, none of them stands under another
one, and each has a prelude of its own, under which one block is written. -/
structure FlatMedia (plan : Plan) : Prop where
  under_root : ∀ {id}, plan.kind? id = some .media →
    plan.parent? id = some 0 ∧ plan.kind? 0 = some .global
  not_nested : ∀ {id a}, plan.kind? id = some .media → a ∈ plan.ancestors id →
    plan.kind? a = some .media → a = id
  nodup_preludes : plan.preludes.Nodup
  /-- The stylesheet has the blocks of the plan and no others, at whatever depth. -/
  statements_perm : (Statement.preludesAll plan.statements).Perm plan.preludes
  /-- A media block is written as a block of the stylesheet, with what stands under it. -/
  written : ∀ {id f}, plan.kind? id = some .media → plan.fragment? id = some f →
    ∃ before after,
      plan.statements
          = before ++ .media f ((plan.children id).flatMap (plan.statementsAt "")) :: after
        ∧ plan.css = Statement.cssAll before
          ++ (f ++ "\x7b"
            ++ Statement.cssAll ((plan.children id).flatMap (plan.statementsAt "")) ++ "\x7d")
          ++ Statement.cssAll after

namespace Layered

/-- Media blocks have different fragments, as they are under one scope. -/
lemma nodup_preludes (h : plan.Layered) (hw : plan.WellFormed) : plan.preludes.Nodup := by
  rw [preludes_eq]
  refine List.Nodup.filterMap (fun id id' f hf hf' => ?_) List.nodup_range
  obtain ⟨hk, hf⟩ := prelude?_eq_some.1 hf
  obtain ⟨hk', hf'⟩ := prelude?_eq_some.1 hf'
  have hfound := hw.child?_eq_some.2 ⟨(h.parent?_of_media hk).1, hf⟩
  rw [hw.child?_eq_some.2 ⟨(h.parent?_of_media hk').1, hf'⟩] at hfound
  exact (Option.some.inj hfound).symm

/-- A media block stands in the list of statements of the stylesheet itself. -/
lemma exists_statements_of_media (h : plan.Layered) (hw : plan.WellFormed)
    (hk : plan.kind? id = some .media) (hf : plan.fragment? id = some f) :
    ∃ before after, plan.statements
      = before ++ .media f ((plan.children id).flatMap (plan.statementsAt "")) :: after := by
  obtain ⟨hp, hroot⟩ := h.parent?_of_media hk
  obtain ⟨root, hr, hrk⟩ := Option.map_eq_some_iff.1 hroot
  obtain ⟨s, hs, hsk⟩ := Option.map_eq_some_iff.1 hk
  obtain rfl : s.fragment = f := Option.some.inj ((fragment?_of_scope? hs).symm.trans hf)
  obtain ⟨earlier, later, hsplit⟩ := List.append_of_mem (hw.mem_children.2 hp)
  refine ⟨root.declarations.map .raw ++ earlier.flatMap (plan.statementsAt ""),
    later.flatMap (plan.statementsAt ""), ?_⟩
  rw [hw.statements_eq, hw.statementsAt_eq hr, hrk, hsplit, List.flatMap_append,
    List.flatMap_cons, hw.statementsAt_eq hs, hsk]
  simp only [List.append_assoc, List.singleton_append]

lemma flatMedia (h : plan.Layered) (hw : plan.WellFormed) : plan.FlatMedia where
  under_root := h.parent?_of_media
  not_nested hk ha hka := h.eq_of_mem_ancestors hw hk ha hka
  nodup_preludes := h.nodup_preludes hw
  statements_perm := hw.preludes_perm_statements
  written hk hf := by
    obtain ⟨before, after, heq⟩ := h.exists_statements_of_media hw hk hf
    refine ⟨before, after, heq, ?_⟩
    rw [css, heq, Statement.cssAll_append, Statement.cssAll, Statement.css]
    simp only [String.append_assoc]

end Layered

/-! ### Hosts of queries -/

/-- The queries of a run in their order, each with the scope that hosts it. -/
def hostings (seed : Seed) (agenda : List Step) (plan : Plan) : List (MediaQuery × Nat) :=
  (trace seed agenda plan).filterMap fun e => e.2.hosting? e.1

/-- The queries of a build in their order, each with the scope that hosts it. -/
def buildHostings (plan : Plan) (target : Nat) (d : Descriptor) (seed : Seed) :
    List (MediaQuery × Nat) :=
  hostings seed
    (Step.ofBody target (((plan.scope? target).map (·.fragment)).getD "") d) plan

/-- The plans that builds leave behind, finished or not, with the queries that were hosted on the
way. -/
inductive Hosting : List (MediaQuery × Nat) → Plan → Prop where
  | empty : Hosting [] empty
  | standalone (fragment : String) : Hosting [] (standalone fragment)
  | build {log : List (MediaQuery × Nat)} {plan : Plan} (h : Hosting log plan) {target : Nat}
      (ht : target < plan.size) (d : Descriptor) (seed : Seed) :
      Hosting (log ++ plan.buildHostings target d seed) (left (plan.build target d seed))

lemma Hosting.reachable {log : List (MediaQuery × Nat)} (h : Hosting log plan) :
    plan.Reachable := by
  induction h with
  | empty => exact .empty
  | standalone fragment => exact .standalone fragment
  | build _ ht d seed ih => exact .build ih ht d seed

lemma Reachable.exists_hosting (h : plan.Reachable) : ∃ log, Hosting log plan := by
  induction h with
  | empty => exact ⟨_, .empty⟩
  | standalone fragment => exact ⟨_, .standalone fragment⟩
  | build _ ht d seed ih =>
    obtain ⟨log, h⟩ := ih
    exact ⟨_, .build h ht d seed⟩

@[simp] lemma hostings_nil : hostings seed [] plan = [] := by
  rw [hostings, trace_nil, List.filterMap_nil]

/-- A query is never refused. -/
lemma hostings_refused {e : CompileError} (he : step.perform seed plan = .error e) :
    hostings seed (step :: rest) plan = [] := by
  rw [hostings, trace_refused he, List.filterMap_eq_nil_iff, List.forall_mem_singleton]
  cases step with
  | query host selector path q => cases effect_of_refused he
  | _ => rfl

lemma mem_hostings_performed (he : step.effect seed plan = .ok ⟨writes, more⟩) :
    (q, c) ∈ hostings seed (step :: rest) plan
      ↔ step.hosting? plan = some (q, c)
        ∨ (q, c) ∈ hostings seed (more ++ rest) (plan.after step writes) := by
  rw [hostings, trace_performed he, List.mem_filterMap, hostings, List.mem_filterMap]
  simp only [List.mem_cons, or_and_right, exists_or, exists_eq_left]

/-- What answers a query is the scope with its prelude right under the stylesheet. -/
lemma InLayers.of_hosting? (h : InLayers (step :: rest) plan)
    (hq : step.hosting? plan = some (q, c)) :
    (plan.grant step.request?).parent? c = some 0
      ∧ (plan.grant step.request?).fragment? c = some q.target := by
  have hask := h.asks step List.mem_cons_self
  cases step with
  | query host selector path q' =>
    cases hq
    obtain rfl := h.layered.eq_zero_of_global hask
    exact ⟨h.wellFormed.parent?_answer _, h.wellFormed.fragment?_answer _⟩
  | _ => cases hq

/-- A query of a run is hosted by the scope with its prelude right under the stylesheet. -/
lemma InLayers.of_mem_hostings (h : InLayers agenda plan)
    (hq : (q, c) ∈ hostings seed agenda plan) :
    (left (run seed agenda plan)).child? 0 q.target = some c := by
  induction agenda, plan using run_induction seed with
  | nil plan =>
    rw [hostings_nil] at hq
    cases hq
  | refused step rest plan e he =>
    rw [hostings_refused he] at hq
    cases hq
  | performed step rest plan writes more he hd ih =>
    rw [run_performed he]
    rcases (mem_hostings_performed he).1 hq with hq | hq
    · obtain ⟨hp, hf⟩ := h.of_hosting? hq
      have hext : (plan.grant step.request?).Extends
          (left (run seed (more ++ rest) (plan.after step writes))) :=
        (extends_declareAll writes).trans extends_left_run
      have hc := lt_size_of_parent? hp
      exact (h.performed hd).toReady.wellFormed_left_run.child?_eq_some.2
        ⟨(hext.parent? hc).trans hp, (hext.fragment? hc).trans hf⟩
    · exact ih (h.performed hd) hq

/-- Hosts of queries stay where they are. -/
lemma Hosting.child?_target {log : List (MediaQuery × Nat)} (h : Hosting log plan)
    (hq : (q, c) ∈ log) : plan.child? 0 q.target = some c := by
  induction h with
  | empty => cases hq
  | standalone fragment => cases hq
  | @build log plan h target ht d seed ih =>
    have hw := wellFormed_of_reachable h.reachable
    have hin := InLayers.ofBody hw (layered_of_reachable h.reachable) ht
      (((plan.scope? target).map (·.fragment)).getD "") d
    rcases List.mem_append.1 hq with hq | hq
    · obtain ⟨hp, hf⟩ := hw.child?_eq_some.1 (ih hq)
      have hc := lt_size_of_parent? hp
      exact hin.toReady.wellFormed_left_run.child?_eq_some.2
        ⟨(extends_left_run.parent? hc).trans hp, (extends_left_run.fragment? hc).trans hf⟩
    · exact hin.of_mem_hostings hq

/-- **One block for each set of features**: whatever was built into a plan, and whether or not it
was built to the end, its media blocks are flat and each is written once. Features with different
names have one prelude in every order, so that all queries with these features, of any builds and
any rules, have had one host, which is right under the root. -/
theorem flatMedia_of_reachable (h : plan.Reachable) :
    plan.FlatMedia
      ∧ (∀ q q' : MediaQuery, q.features.Perm q'.features → (q.features.map (·.1)).Nodup →
          q.target = q'.target)
      ∧ (∃ log, Hosting log plan)
      ∧ ∀ log, Hosting log plan → ∀ e ∈ log, ∀ e' ∈ log, e.1.features.Perm e'.1.features →
          (e.1.features.map (·.1)).Nodup →
            e'.2 = e.2 ∧ plan.child? 0 e.1.target = some e.2 := by
  refine ⟨(layered_of_reachable h).flatMedia (wellFormed_of_reachable h),
    fun q q' => MediaQuery.prelude_eq_of_perm, h.exists_hosting, ?_⟩
  intro log hlog e he e' he' hp hn
  have hhost := hlog.child?_target he
  have hhost' := hlog.child?_target he'
  have htarget : e.1.target = e'.1.target := MediaQuery.prelude_eq_of_perm hp hn
  rw [← htarget, hhost] at hhost'
  exact ⟨(Option.some.inj hhost').symm, hhost⟩

/-- A rule with a media query. -/
def printedCard : Descriptor :=
  ⟨[("card", .block [("media", .list [.block [("print", .literal (.text "")),
      ("css", .block [("color", .literal (.text "red"))])]])])]⟩

/-- A rule with a media query of the same feature, and a member that is refused after it. -/
def printedTile : Descriptor :=
  ⟨[("tile", .block [("media", .list [.block [
      ("css", .block [("margin", .literal (.text "0"))]),
      ("print", .literal (.text ""))]]), ("hover", .block [])])]⟩

/-- What a build leaves behind that goes on in an earlier plan, under another seed, and fails. -/
def printedTwice : Plan :=
  left ((left (empty.build 0 printedCard .identity)).build 0 printedTile (.keyed "site"))

/-- The queries of two builds have one host, and two features in two orders one prelude. -/
theorem flatMedia_of_reachable_printedTwice :
    printedTwice.FlatMedia
      ∧ (∃ log, Hosting log printedTwice
        ∧ log.map (·.1.features) = [[("print", "")], [("print", "")]]
        ∧ ∀ e ∈ log, ∀ e' ∈ log, e'.2 = e.2 ∧ printedTwice.child? 0 e.1.target = some e.2)
      ∧ MediaQuery.target ⟨[("print", ""), ("minWidth", "40em")], .empty⟩
        = MediaQuery.target ⟨[("minWidth", "40em"), ("print", "")], .empty⟩ := by
  have h : Hosting _ (left (empty.build 0 printedCard .identity)) :=
    .build .empty (by decide) printedCard .identity
  obtain ⟨log, hlog, hfeatures⟩ : ∃ log, Hosting log printedTwice
      ∧ log.map (·.1.features) = [[("print", "")], [("print", "")]] :=
    ⟨_, .build h (by decide +kernel) printedTile (.keyed "site"), by decide +kernel⟩
  obtain ⟨hflat, htarget, _, hhost⟩ := flatMedia_of_reachable hlog.reachable
  have hprint : ∀ e ∈ log, e.1.features = [("print", "")] := fun e he => by
    have hm := List.mem_map_of_mem (f := fun e : MediaQuery × Nat => e.1.features) he
    simpa [hfeatures] using hm
  refine ⟨hflat, ⟨log, hlog, hfeatures, fun e he e' he' => hhost log hlog e he e' he' ?_ ?_⟩, ?_⟩
  · rw [hprint e he, hprint e' he']
  · rw [hprint e he]
    decide
  · exact htarget _ _ (.swap _ _ _) (by decide)

end Plan

end Stylesheet
