/-
Overrides and members are the same text.

* `Descriptor.Plain`: mappings of properties to literals;
* `Declaration.presentTexts`: the declarations of some mappings, one text for each mapping that has
  any;
* `Plan.build_ofOverrides`, `buildAll_plain`: what building overrides, and building members one
  mapping after another, does to a plan;
* `Declaration.joinAlike_presentTexts`: joined by semicolons, both make the same text;
* `Scope.WritesAlike`, `Plan.css_eq_of_writesAlike`: plans whose declarations are the same when they
  are joined have the same stylesheet;
* `Plan.overrides_eq_members`: overrides and members leave plans with the same stylesheet.

An entry of overrides makes one declaration of a whole mapping, a member one of a single literal. A
mapping without literals has the empty text, which is left out, as nothing but the separators
around it would be written.
-/
import Stylesheet.Proofs.Build.Hoisting
import Stylesheet.Proofs.Build.Repetition
import Stylesheet.Proofs.Grammar
import Stylesheet.Proofs.OwnTexts
import Stylesheet.Proofs.Traversals

namespace Stylesheet

/-! ### Plain mappings -/

namespace Descriptor

/-- A mapping of properties to literals or to nothing, without reserved keys. -/
def Plain (d : Descriptor) : Prop :=
  ∀ e ∈ d.entries, Directive.isReservedKey e.1 = false ∧ e.2.isLeaf = true
  deriving Decidable

/-- A body with nothing but a list of overrides. -/
def ofOverrides (mappings : List Descriptor) : Descriptor :=
  ⟨[(Directive.Reserved.overrides.key, .list (mappings.map fun m => .block m.entries))]⟩

lemma Plain.flat {d : Descriptor} (h : d.Plain) : d.Flat :=
  fun e he => (h e he).2

end Descriptor

namespace Declaration

/-- The declarations of some mappings, one text for each mapping that has any. -/
def presentTexts (mappings : List Descriptor) : List String :=
  (mappings.filterMap fun m => (textOf m).toOption).filter (· ≠ "")

lemma textOf_of_flat {mapping : Descriptor} (h : mapping.Flat) :
    textOf mapping = .ok (";".intercalate mapping.memberTexts) :=
  textOf_eq_ok.2 ⟨h, rfl⟩

lemma presentTexts_cons {mapping : Descriptor} {text : String} (h : textOf mapping = .ok text)
    (mappings : List Descriptor) :
    presentTexts (mapping :: mappings)
      = (if text.isEmpty then [] else [text]) ++ presentTexts mappings := by
  have hsome : (textOf mapping).toOption = some text := by
    rw [h]
    rfl
  rw [presentTexts, List.filterMap_cons, hsome, presentTexts]
  by_cases he : text = ""
  · simp [he]
  · simp [he]

/-- Mappings of one property each have one declaration each. -/
lemma presentTexts_map_singleton (key : String) (values : List Literal) :
    presentTexts (values.map fun l => ⟨[(key, .literal l)]⟩) = values.map (text key) := by
  induction values with
  | nil => rfl
  | cons l rest ih =>
    have htext : textOf ⟨[(key, .literal l)]⟩ = .ok (text key l) := by
      rw [textOf_of_flat (List.forall_mem_singleton.2 rfl)]
      exact congrArg Except.ok String.intercalate_singleton
    have hne : text key l ≠ "" :=
      Descriptor.ne_empty_of_mem_memberTexts (d := ⟨[(key, .literal l)]⟩) List.mem_cons_self
    rw [List.map_cons, presentTexts_cons htext, ih, if_neg (by rwa [String.isEmpty_iff])]
    rfl

/-! ### Joined texts -/

/-- Texts can be joined in two steps. -/
lemma intercalate_intercalate {mark : String} (before : List String) {texts : List String}
    (h : texts ≠ []) (after : List String) :
    mark.intercalate (before ++ mark.intercalate texts :: after)
      = mark.intercalate (before ++ (texts ++ after)) := by
  have htail : mark.intercalate (mark.intercalate texts :: after)
      = mark.intercalate (texts ++ after) := by
    by_cases ha : after = []
    · rw [ha, List.append_nil, String.intercalate_singleton]
    · rw [String.intercalate_cons_of_ne_nil ha, String.intercalate_append_of_ne_nil h ha]
  by_cases hb : before = []
  · rw [hb, List.nil_append, List.nil_append, htail]
  · have hne : texts ++ after ≠ [] := List.append_ne_nil_of_left_ne_nil h after
    rw [String.intercalate_append_of_ne_nil hb (List.cons_ne_nil _ _), htail,
      String.intercalate_append_of_ne_nil hb hne]

/-- Two lists of declarations that make the same text when they are joined, and are both empty or
both not. -/
structure JoinAlike (texts texts' : List String) : Prop where
  nil_iff : texts' = [] ↔ texts = []
  joined : ";".intercalate texts' = ";".intercalate texts

/-- After some declarations, those of mappings are there as one text each or one by one. -/
lemma joinAlike_presentTexts {mappings : List Descriptor} (h : ∀ m ∈ mappings, m.Flat)
    (before : List String) :
    JoinAlike (before ++ mappings.flatMap Descriptor.memberTexts)
      (before ++ presentTexts mappings) := by
  induction mappings generalizing before with
  | nil => exact ⟨Iff.rfl, rfl⟩
  | cons m rest ih =>
    obtain ⟨hm, hrest⟩ := List.forall_mem_cons.1 h
    rw [presentTexts_cons (textOf_of_flat hm), List.flatMap_cons,
      Descriptor.isEmpty_intercalate_memberTexts]
    by_cases hnone : m.memberTexts = []
    · -- nothing is written of the mapping, neither as a text nor one by one
      rw [hnone]
      exact ih hrest before
    · rw [if_neg (by rwa [List.isEmpty_iff])]
      have hlater := (ih hrest (before ++ [";".intercalate m.memberTexts])).joined
      refine ⟨by simp [hnone], ?_⟩
      rw [← List.append_assoc, hlater, List.append_assoc, List.singleton_append,
        intercalate_intercalate before hnone]

end Declaration

lemma Directive.mappingsOf_blocks (key : String) (mappings : List Descriptor) :
    mappingsOf key (mappings.map fun m => .block m.entries) = .ok mappings := by
  refine itemsOf_eq_ok.2 ?_
  rw [Value.present, List.filter_eq_self.2 fun v hv => ?_, List.forall₂_map_left_iff]
  · exact List.forall₂_same.2 fun _ _ => rfl
  · obtain ⟨m, _, rfl⟩ := List.mem_map.1 hv
    rfl

namespace Plan

variable {plan other : Plan} {seed : Seed} {target : Nat} {mappings : List Descriptor}

/-! ### Runs -/

/-- A step that asks for no scope changes a plan by its declarations alone. -/
lemma after_of_request?_eq_none {step : Step} (hr : step.request? = none)
    (writes : List (Nat × String)) : plan.after step writes = plan.declareAll writes := by
  rw [after, hr, grant]

/-- A run over overrides declares the text of each mapping that has one. -/
lemma run_overrides (h : ∀ m ∈ mappings, m.Flat) :
    run seed (mappings.map (.override target)) plan
      = .ok (plan.declareAll ((Declaration.presentTexts mappings).map (target, ·))) := by
  induction mappings generalizing plan with
  | nil => exact run_nil
  | cons m rest ih =>
    obtain ⟨hm, hrest⟩ := List.forall_mem_cons.1 h
    have htext := Declaration.textOf_of_flat hm
    rw [List.map_cons, run_performed (Step.Does.override htext).effect, List.nil_append,
      after_of_request?_eq_none rfl, ih hrest, declareAll_declareAll,
      Declaration.presentTexts_cons htext, List.map_append]
    split <;> rfl

/-- A run over the members of a body that is no whole descriptor makes one declaration for each
literal. -/
lemma run_members {d : Descriptor} (h : d.Plain) (hk : plan.kind? target ≠ some .global)
    (path : String) :
    run seed (Step.ofBody target path d) plan
      = .ok (plan.declareAll (d.memberTexts.map (target, ·))) := by
  obtain ⟨entries⟩ := d
  induction entries generalizing plan with
  | nil => exact run_nil
  | cons e rest ih =>
    obtain ⟨key, value⟩ := e
    obtain ⟨⟨hkey, hvalue⟩, hrest⟩ := List.forall_mem_cons.1 h
    have hbody : Step.ofBody target path ⟨(key, value) :: rest⟩
        = .entry target path key value :: Step.ofBody target path ⟨rest⟩ := rfl
    rw [hbody]
    cases value with
    | absent =>
      rw [run_performed (Step.Does.absentEntry rfl).effect]
      exact ih hk hrest
    | literal l =>
      obtain ⟨hnone, hs⟩ := Directive.isReservedKey_eq_false.1 hkey
      have hdoes : Step.Does seed plan (.entry target path key (.literal l))
          [(target, Declaration.text key l)] [] :=
        .entry rfl (Directive.classify_eq_ok.2 (.member hnone hs)) (.declaration hk rfl)
      rw [run_performed hdoes.effect, List.nil_append, after_of_request?_eq_none rfl,
        ih (by rwa [kind?_declareAll]) hrest, declareAll_declareAll]
      rfl
    | _ => cases hvalue

/-- Building overrides declares the text of each mapping that has one. -/
lemma build_ofOverrides (h : ∀ m ∈ mappings, m.Flat) :
    plan.build target (.ofOverrides mappings) seed
      = .ok (plan.declareAll ((Declaration.presentTexts mappings).map (target, ·))) := by
  have hdoes : ∀ path, Step.Does seed plan
      (.entry target path Directive.Reserved.overrides.key
        (.list (mappings.map fun m => .block m.entries))) [] (mappings.map (.override target)) :=
    fun _ => .entry rfl (Directive.classify_eq_ok.2
      (.overrides (by decide) rfl (Directive.mappingsOf_blocks _ mappings))) .overrides
  rw [build, Step.ofBody, Descriptor.ofOverrides, List.map_singleton,
    run_performed (hdoes _).effect, List.append_nil]
  exact run_overrides h

/-- Building plain mappings makes one declaration for each literal. -/
lemma buildAll_plain (h : ∀ m ∈ mappings, m.Plain) (hk : plan.kind? target ≠ some .global) :
    plan.buildAll target seed mappings
      = .ok (plan.declareAll ((mappings.flatMap Descriptor.memberTexts).map (target, ·))) := by
  induction mappings generalizing plan with
  | nil => rfl
  | cons m rest ih =>
    obtain ⟨hm, hrest⟩ := List.forall_mem_cons.1 h
    have hnext := @ih (plan.declareAll (m.memberTexts.map (target, ·))) hrest
      (by rwa [kind?_declareAll])
    rw [declareAll_declareAll, ← List.map_append, ← List.flatMap_cons] at hnext
    exact bind_eq_ok.2 ⟨_, run_members hm hk _, hnext⟩

end Plan

/-! ### Plans that are written alike -/

/-- Two scopes in the same place whose own text is the same. -/
structure Scope.WritesAlike (s t : Scope) : Prop where
  kind : t.kind = s.kind
  fragment : t.fragment = s.fragment
  children : t.children = s.children
  raw : s.kind = .global → t.declarations = s.declarations
  declarations : Declaration.JoinAlike s.declarations t.declarations

/-- Scopes that are written alike have the same blocks. -/
lemma Scope.WritesAlike.ruleBlocks_eq {s t : Scope} (h : s.WritesAlike t) (selector : String) :
    ruleBlocks selector t.declarations = ruleBlocks selector s.declarations := by
  rw [ruleBlocks, ruleBlocks, h.declarations.joined]
  exact if_congr h.declarations.nil_iff rfl rfl

namespace Plan

variable {plan other : Plan} {seed : Seed} {target : Nat} {mappings : List Descriptor}

/-- The walk that writes a plan goes the same way over a plan that is written alike. -/
lemma Emits.of_writesAlike
    (h : ∀ id s, plan.scope? id = some s → ∃ t, other.scope? id = some t ∧ s.WritesAlike t)
    {outer text : String} {ids : List Nat} {visits : List (Nat × List String)}
    (he : plan.Emits outer ids visits text) :
    ∃ visits', other.Emits outer ids visits' text := by
  induction he with
  | nil => exact ⟨_, .nil⟩
  | global hs hk hu ha ihu iha =>
    obtain ⟨t, ht, halike⟩ := h _ _ hs
    obtain ⟨_, hu'⟩ := ihu
    obtain ⟨_, ha'⟩ := iha
    rw [← halike.children] at hu'
    rw [← halike.raw hk]
    exact ⟨_, .global ht (halike.kind.trans hk) hu' ha'⟩
  | media hs hk hu ha ihu iha =>
    obtain ⟨t, ht, halike⟩ := h _ _ hs
    obtain ⟨_, hu'⟩ := ihu
    obtain ⟨_, ha'⟩ := iha
    rw [← halike.children] at hu'
    rw [← halike.fragment]
    exact ⟨_, .media ht (halike.kind.trans hk) hu' ha'⟩
  | rule hs hk hu ha ihu iha =>
    obtain ⟨t, ht, halike⟩ := h _ _ hs
    obtain ⟨_, hu'⟩ := ihu
    obtain ⟨_, ha'⟩ := iha
    rw [← halike.children, ← halike.fragment] at hu'
    rw [← halike.fragment, ← halike.ruleBlocks_eq]
    exact ⟨_, .rule ht (by rw [halike.kind]; exact hk) hu' ha'⟩

/-- Plans that are written alike have the same stylesheet. -/
lemma css_eq_of_writesAlike (hp : plan.WellFormed) (ho : other.WellFormed)
    (h : ∀ id s, plan.scope? id = some s → ∃ t, other.scope? id = some t ∧ s.WritesAlike t) :
    plan.css = other.css := by
  obtain ⟨_, he⟩ := Emits.of_writesAlike h (hp.emits_iff.2 ⟨rfl, rfl⟩)
  exact (ho.emits_iff.1 he).2

/-- Declarations in a rule that are the same when they are joined with those before them leave plans
that are written alike. -/
lemma css_declareAll_eq (h : plan.WellFormed) {s : Scope} (hs : plan.scope? target = some s)
    (hg : s.kind ≠ .global) {texts texts' : List String}
    (hjoin : Declaration.JoinAlike (s.declarations ++ texts) (s.declarations ++ texts')) :
    (plan.declareAll (texts.map (target, ·))).css
      = (plan.declareAll (texts'.map (target, ·))).css := by
  refine css_eq_of_writesAlike (h.declareAll _) (h.declareAll _) fun id t ht => ?_
  rw [scope?_declareAll] at ht ⊢
  obtain ⟨u, hu, rfl⟩ := Option.map_eq_some_iff.1 ht
  refine ⟨_, by rw [hu, Option.map_some], ?_⟩
  -- of the other scopes both plans have the same declarations
  by_cases hid : id = target
  · rw [hid, hs] at hu
    cases hu
    rw [hid, Step.textsAt_map_self, Step.textsAt_map_self]
    exact ⟨rfl, rfl, rfl, fun hk => absurd hk hg, hjoin⟩
  · have hother : ∀ texts : List String, textsAt id (texts.map (target, ·)) = [] := fun texts =>
      textsAt_eq_nil fun w hw => by
        obtain ⟨_, _, rfl⟩ := List.mem_map.1 hw
        exact Ne.symm hid
    rw [hother, hother]
    exact ⟨rfl, rfl, rfl, fun _ => rfl, Iff.rfl, rfl⟩

/-! ### Overrides and members -/

/-- The walk that writes a plan writes a text as the only block of a scope. -/
def WritesBlock (plan : Plan) (id : Nat) (text : String) : Prop :=
  ∃ visits, plan.Emits "" [0] visits plan.css ∧ (id, [text]) ∈ visits

/-- A scope that is written as a rule and has declarations is written as one block. -/
lemma WellFormed.writesBlock (h : plan.WellFormed) {id : Nat} {s : Scope}
    (hs : plan.scope? id = some s) (hr : s.kind.isRule = true) (hd : s.declarations ≠ []) :
    plan.WritesBlock id ((plan.context id).selector ++ " \x7b"
      ++ ";".intercalate s.declarations ++ "\x7d") := by
  have hid := lt_size hs
  refine ⟨_, h.emits_iff.2 ⟨rfl, rfl⟩, ?_⟩
  refine List.mem_map.2 ⟨id, (h.mem_visited h.size_pos).2 ⟨hid, h.zero_mem_ancestors hid⟩, ?_⟩
  rw [blocksAt_of_scope? hs, if_pos ⟨hr, hd⟩]

/-- Declarations that are made in a rule without declarations are its block. -/
lemma WellFormed.writesBlock_declareAll (h : plan.WellFormed) {s : Scope}
    (hs : plan.scope? target = some s) (hr : s.kind.isRule = true) (hd : s.declarations = [])
    {texts : List String} (ht : texts ≠ []) :
    (plan.declareAll (texts.map (target, ·))).WritesBlock target
      ((plan.context target).selector ++ " \x7b" ++ ";".intercalate texts ++ "\x7d") := by
  have hs' : (plan.declareAll (texts.map (target, ·))).scope? target
      = some { s with declarations := texts } := by
    rw [scope?_declareAll, hs, Option.map_some, Step.textsAt_map_self, hd, List.nil_append]
  have hblock := (h.declareAll _).writesBlock hs' hr ht
  rwa [(extends_declareAll _).context (lt_size hs)] at hblock

/-- **Overrides and members**: plain mappings can be built into a rule as overrides and one after
another, and the stylesheet is the same. Their declarations go to the end of those of the rule, as
one text for each mapping that has any, or one by one. A rule that had none is written with the
texts of the mappings, with semicolons between them. -/
theorem overrides_eq_members (h : plan.Reachable) {kind : Kind} (hk : plan.kind? target = some kind)
    (hr : kind.isRule = true) (hm : ∀ m ∈ mappings, m.Plain) (seed : Seed) :
    ∃ once each, plan.build target (.ofOverrides mappings) seed = .ok once
      ∧ plan.buildAll target seed mappings = .ok each
      ∧ each.css = once.css
      ∧ once.declarations target
          = plan.declarations target ++ Declaration.presentTexts mappings
      ∧ each.declarations target
          = plan.declarations target ++ mappings.flatMap Descriptor.memberTexts
      ∧ (plan.declarations target = [] → (∃ m ∈ mappings, m.hasLiteral = true) →
          ∀ final ∈ [once, each], final.WritesBlock target ((plan.context target).selector
            ++ " \x7b" ++ ";".intercalate (Declaration.presentTexts mappings) ++ "\x7d"))
      ∧ ∀ (key : String) (values : List Literal),
          mappings = values.map (fun l => ⟨[(key, .literal l)]⟩) →
            ∀ final ∈ [once, each], final.declarations target
              = plan.declarations target ++ values.map (Declaration.text key) := by
  have hw := wellFormed_of_reachable h
  obtain ⟨s, hs, rfl⟩ := Option.map_eq_some_iff.1 hk
  have hg : s.kind ≠ .global := by
    rintro hg
    rw [hg] at hr
    cases hr
  have hflat : ∀ m ∈ mappings, m.Flat := fun m hmem => (hm m hmem).flat
  have hdeclared := declarations_of_scope? hs
  have hjoin := Declaration.joinAlike_presentTexts hflat s.declarations
  have hfinal : ∀ texts : List String,
      (plan.declareAll (texts.map (target, ·))).declarations target
        = plan.declarations target ++ texts := fun texts => by
    rw [declarations_declareAll (lt_size hs), Step.textsAt_map_self]
  refine ⟨_, _, build_ofOverrides hflat,
    buildAll_plain hm (by rw [hk]; exact fun heq => hg (Option.some.inj heq)),
    css_declareAll_eq hw hs hg hjoin, hfinal _, hfinal _, fun hd hany => ?_,
    fun key values heq => ?_⟩
  · obtain ⟨m, hmem, hliteral⟩ := hany
    rw [hdeclared] at hd
    rw [hd, List.nil_append, List.nil_append] at hjoin
    have heach : mappings.flatMap Descriptor.memberTexts ≠ [] := fun hnone => by
      have hnomembers := List.flatMap_eq_nil_iff.1 hnone m hmem
      rw [Descriptor.memberTexts_eq_nil, hliteral] at hnomembers
      cases hnomembers
    have honce : Declaration.presentTexts mappings ≠ [] := fun hnone =>
      heach (hjoin.nil_iff.1 hnone)
    have hblock := hw.writesBlock_declareAll hs hr hd heach
    rw [← hjoin.joined] at hblock
    exact List.forall_mem_cons.2
      ⟨hw.writesBlock_declareAll hs hr hd honce, List.forall_mem_singleton.2 hblock⟩
  · refine List.forall_mem_cons.2 ⟨?_, List.forall_mem_singleton.2 ?_⟩
    · rw [hfinal, heq, Declaration.presentTexts_map_singleton]
    · rw [hfinal, heq, List.flatMap_map, List.map_eq_flatMap]
      rfl

/-- A rule without declarations. -/
def bareRule : Plan :=
  left (empty.build 0 ⟨[("menu", .block [])]⟩ .identity)

/-- Two colours, with another property and a mapping of nothing between them. -/
def twoColours : List Descriptor :=
  [⟨[("color", .literal (.text "red")), ("left", .absent), ("top", .literal (.text "0"))]⟩,
    ⟨[("left", .absent)]⟩, ⟨[("color", .literal (.text "blue"))]⟩]

/-- The colours of a rule are written in their order, as overrides and as members. -/
theorem overrides_eq_members_twoColours :
    ∃ once each, bareRule.Reachable ∧ bareRule.kind? 1 = some .element
      ∧ bareRule.build 1 (.ofOverrides twoColours) .identity = .ok once
      ∧ bareRule.buildAll 1 .identity twoColours = .ok each
      ∧ each.css = once.css
      ∧ once.declarations 1 = ["color:red;top:0", "color:blue"]
      ∧ each.declarations 1 = ["color:red", "top:0", "color:blue"]
      ∧ ∀ final ∈ [once, each],
          final.WritesBlock 1 ".menu \x7bcolor:red;top:0;color:blue\x7d" := by
  have hreachable : bareRule.Reachable := .build .empty Nat.one_pos _ _
  have hkind : bareRule.kind? 1 = some .element := by decide +kernel
  obtain ⟨once, each, honce, heach, hcss, hdo, hde, hblock, _⟩ :=
    overrides_eq_members hreachable hkind rfl (by decide : ∀ m ∈ twoColours, m.Plain) .identity
  have hnone : bareRule.declarations 1 = [] := by decide +kernel
  have htext : (bareRule.context 1).selector ++ " \x7b"
      ++ ";".intercalate (Declaration.presentTexts twoColours) ++ "\x7d"
        = ".menu \x7bcolor:red;top:0;color:blue\x7d" := by decide +kernel
  have hwritten := hblock hnone (by decide)
  rw [htext] at hwritten
  rw [hnone] at hdo hde
  exact ⟨once, each, hreachable, hkind, honce, heach, hcss, hdo, hde, hwritten⟩

end Plan

end Stylesheet
