/-
Class names agree with selectors.

* `Sheet.extendAll`: a sheet after a chain of extensions;
* `Descriptor.NamesRule`: a key names a rule of a stylesheet;
* `Plan.exists_child_of_namesRule`: the rule of each such key is right under the root;
* `Plan.Named`: an orderly build in which elements right under the root are rules of such keys;
* `Plan.exists_css_of_child`: the declarations of a scope right under the root are in the
  stylesheet;
* `Sheet.namesAgree`: class names and selectors agree.

A class name is picked from the keys of a descriptor, a selector comes from a build of its entries,
and a class name without a sheet from the seed alone.
-/
import Stylesheet.Proofs.Build.Orderly
import Stylesheet.Proofs.Names
import Stylesheet.Proofs.Plan.Emission
import Stylesheet.Sheet

namespace Stylesheet

/-- A sheet after a chain of extensions. -/
def Sheet.extendAll (sheet : Sheet) (extensions : List Descriptor) : Sheet :=
  extensions.foldl extend sheet

@[simp] lemma Sheet.seed_extendAll (sheet : Sheet) (extensions : List Descriptor) :
    (sheet.extendAll extensions).seed = sheet.seed := by
  induction extensions generalizing sheet with
  | nil => rfl
  | cons extension rest ih =>
    rw [extendAll, List.foldl_cons, ← extendAll, ih]
    rfl

/-- A key names a rule of a stylesheet: it is not reserved, and it has a value. -/
def Descriptor.NamesRule (d : Descriptor) (key : String) : Prop :=
  Directive.isReservedKey key = false
    ∧ ∃ value, (key, value) ∈ d.entries ∧ value.isAbsent = false

/-- The class name of a rule is the one that the seed gives to its key. -/
lemma Sheet.className_of_namesRule {sheet : Sheet} {key : String}
    (h : sheet.descriptor.NamesRule key) : sheet.className key = sheet.seed.apply key := by
  obtain ⟨hk, value, he, _⟩ := h
  have hlookup : (sheet.descriptor.entries.lookup key).isSome = true := by
    rw [List.lookup_isSome_iff]
    exact ⟨(key, value), he, beq_self_eq_true key⟩
  rw [className, Descriptor.contains, Descriptor.get?, hlookup, hk]
  rfl

/-! ### Rules of keys -/

namespace Plan

variable {seed : Seed} {plan : Plan} {d : Descriptor} {key : String} {step : Step}
  {rest more : List Step} {writes : List (Nat × String)}

/-- A finished build asks for the rule of each key that names one. -/
lemma exists_scope_mem_trace (h : ofDescriptor d seed = .ok plan) (hk : d.NamesRule key) :
    ∃ p path body, (p, .scope ⟨0, .element, "." ++ seed.apply key⟩ path body)
      ∈ trace seed (Step.ofBody 0 "" d) empty := by
  obtain ⟨hk, value, he, ha⟩ := hk
  have hrun := ofDescriptor_eq_ok.1 h
  have hentry : .entry 0 "" key value ∈ Step.ofBody 0 "" d :=
    List.mem_map.2 ⟨(key, value), he, rfl⟩
  obtain ⟨p, hp⟩ := exists_mem_trace hrun hentry
  obtain ⟨writes, more, hd, hmore⟩ := does_of_mem_trace hrun hp
  obtain ⟨rest, horderly⟩ := Orderly.of_mem_trace (.build d) hp
  cases hd with
  | absentEntry ha' => exact absurd (ha'.symm.trans ha) (by decide)
  | entry _ hc hd =>
    obtain rfl := Directive.eq_member_of_classify hk hc
    cases hd with
    | rule _ hb =>
      obtain ⟨p', hp'⟩ := hmore _ (List.mem_singleton_self _)
      exact ⟨p', _, _, hp'⟩
    | declaration hg _ => exact absurd (horderly.rooted.kind?_eq_global.2 rfl) hg

/-- The rule of each key that names one is right under the root. -/
lemma exists_child_of_namesRule (h : ofDescriptor d seed = .ok plan) (hk : d.NamesRule key) :
    ∃ id, plan.child? 0 ("." ++ seed.apply key) = some id := by
  obtain ⟨p, path, body, hp⟩ := exists_scope_mem_trace h hk
  have hrun := ofDescriptor_eq_ok.1 h
  obtain ⟨rest, horderly⟩ := Orderly.of_mem_trace (.build d) hp
  have hw := horderly.rooted.wellFormed
  have hext := extends_of_mem_trace hp hrun
  have hlt := hw.answer_lt ⟨0, .element, "." ++ seed.apply key⟩
  have hfinal : plan.WellFormed := (Orderly.of_ofDescriptor h).rooted.wellFormed
  refine ⟨p.answer ⟨0, .element, "." ++ seed.apply key⟩, hfinal.child?_eq_some.2 ⟨?_, ?_⟩⟩
  · rw [hext.parent? hlt]
    exact hw.parent?_answer _
  · rw [hext.fragment? hlt]
    exact hw.fragment?_answer _

end Plan

namespace Step

open Plan

variable {seed : Seed} {plan : Plan} {d : Descriptor} {step : Step} {more : List Step}
  {writes : List (Nat × String)}

/-! ### Elements right under the root -/

/-- What a step builds right under the root as an element is the rule of a key of a descriptor. -/
def BuildsRulesOf (d : Descriptor) (seed : Seed) : Step → Prop
  | .entry id _ key value => id = 0 → (key, value) ∈ d.entries
  | .scope r _ _ =>
    r.host = 0 → r.kind = .element →
      ∃ key, d.NamesRule key ∧ r.fragment = "." ++ seed.apply key
  | _ => True

lemma DirectiveDoes.buildsRulesOf {id : Nat} {path key : String} {value : Value} {dir : Directive}
    (hc : Directive.classify key value path = .ok dir)
    (he : id = 0 → (key, value) ∈ d.entries)
    (hd : DirectiveDoes seed plan id path dir writes more) :
    ∀ s ∈ more, s.BuildsRulesOf d seed := by
  cases hd with
  | keyframes hh =>
    rw [List.forall_mem_map]
    exact fun _ _ => trivial
  | mixins hh =>
    rw [List.forall_mem_map]
    exact fun _ _ => trivial
  | media hh => exact (forall_mem_ofQueries fun _ _ => Iff.rfl).2 fun _ _ => trivial
  | overrides =>
    rw [List.forall_mem_map]
    exact fun _ _ => trivial
  | nested => exact List.forall_mem_singleton.2 fun _ => nofun
  | rule hk hb =>
    refine List.forall_mem_singleton.2 fun hid _ => ?_
    cases Directive.classify_eq_ok.1 hc with
    | member hnone hs =>
      exact ⟨key, ⟨Directive.isReservedKey_eq_false.2 ⟨hnone, hs⟩, value, he hid,
        Value.isAbsent_of_block? hb⟩, rfl⟩
  | _ => exact List.forall_mem_nil _

/-- What a step leaves behind builds rules of the keys that the step does. -/
lemma Does.buildsRulesOf (h : plan.Rooted) (ht : step.target < plan.size)
    (hd : Does seed plan step writes more) (hs : step.BuildsRulesOf d seed) :
    ∀ s ∈ more, s.BuildsRulesOf d seed := by
  cases hd with
  | entry ha hc hd => exact hd.buildsRulesOf hc hs
  | mixin hb => exact List.forall_mem_singleton.2 fun _ => nofun
  | query =>
    exact List.forall_mem_singleton.2 fun h₀ => absurd h₀ (h.wellFormed.answer_ne_zero _ ht)
  | scope =>
    intro s hm
    obtain ⟨e, _, rfl⟩ := List.mem_map.1 hm
    exact fun h₀ => absurd h₀ (h.wellFormed.answer_ne_zero _ ht)
  | _ => exact List.forall_mem_nil _

end Step

namespace Plan

variable {seed : Seed} {plan : Plan} {d : Descriptor} {step : Step} {agenda rest more : List Step}
  {writes : List (Nat × String)}

/-- The elements right under the root are rules of keys of a descriptor. -/
def ElementsNamed (d : Descriptor) (seed : Seed) : Plan → Prop :=
  ForallHeadings fun kind fragment parent =>
    parent = some 0 → kind = .element → ∃ key, d.NamesRule key ∧ fragment = "." ++ seed.apply key

/-- An orderly build in which elements right under the root are rules of keys of a descriptor. -/
structure Named (d : Descriptor) (seed : Seed) (agenda : List Step) (plan : Plan) : Prop
    extends Orderly agenda plan where
  builds : ∀ step ∈ agenda, step.BuildsRulesOf d seed
  elements : plan.ElementsNamed d seed

namespace Named

lemma build (d : Descriptor) (seed : Seed) : Named d seed (Step.ofBody 0 "" d) empty where
  toOrderly := .build d
  builds step hs := by
    obtain ⟨e, he, rfl⟩ := List.mem_map.1 hs
    exact fun _ => he
  elements id kind fragment parent hid hp := by
    cases id with
    | zero =>
      cases hid
      cases hp
    | succ id => cases hid

/-- After a step that was performed, elements are named as before. -/
lemma performed (h : Named d seed (step :: rest) plan) (hd : Step.Does seed plan step writes more) :
    Named d seed (more ++ rest) (plan.after step writes) where
  toOrderly := h.toOrderly.performed hd
  builds s hs := by
    have hbuilds := h.builds step List.mem_cons_self
    rcases List.mem_append.1 hs with hs | hs
    · exact hd.buildsRulesOf h.rooted (h.targets step List.mem_cons_self) hbuilds s hs
    · exact h.builds s (List.mem_cons_of_mem _ hs)
  elements := by
    refine ForallHeadings.declareAll ?_ writes
    have hbuilds := h.builds step List.mem_cons_self
    cases step with
    | query host selector path q => exact h.elements.enter fun _ => nofun
    | scope r path body => exact h.elements.enter fun hr => hbuilds (Option.some.inj hr)
    | _ => exact h.elements

end Named

/-- The elements right under the root of a finished build are rules of keys of its descriptor. -/
lemma elementsNamed_of_ofDescriptor (h : ofDescriptor d seed = .ok plan) :
    plan.ElementsNamed d seed := by
  have hnamed : Named d seed [] plan :=
    of_run (fun _ _ _ _ _ h hd => h.performed hd) (.build d seed) (ofDescriptor_eq_ok.1 h)
  exact hnamed.elements

/-- A scope right under the root that is no media block has its declarations in the stylesheet. -/
lemma Rooted.exists_css_of_child (h : plan.Rooted) {id : Nat} {s : Scope}
    (hs : plan.scope? id = some s) (hp : s.parent = some 0) (hk : s.kind ≠ .media)
    (hd : s.declarations ≠ []) :
    ∃ before after, plan.css
      = before ++ (Statement.rule s.fragment s.declarations).css ++ after := by
  have hw := h.wellFormed
  have hparent : plan.parent? id = some 0 := (parent?_of_scope? hs).trans hp
  have hglobal : s.kind ≠ .global := by
    intro hg
    have hid := h.kind?_eq_global.1 ((kind?_of_scope? hs).trans (congrArg some hg))
    rw [hid, hw.parent?_root] at hparent
    cases hparent
  refine Statement.exists_cssAll_of_mem ?_
  rw [h.statements_eq]
  refine List.mem_append_right _ (List.mem_flatMap.2 ⟨id, hw.mem_children.2 hparent, ?_⟩)
  rw [hw.statementsAt_of_kind hs hglobal hk, String.empty_append, Tree.rule,
    if_neg (by rwa [List.isEmpty_iff])]
  exact List.mem_append_left _ (List.mem_singleton_self _)

end Plan

/-! ### Agreement -/

/-- The class names of a sheet and the selectors of a plan agree. -/
structure Sheet.NamesAgree (sheet : Sheet) (plan : Plan) : Prop where
  /-- Each key that names a rule has a scope under its class name, and its declarations are in the
  stylesheet under that name. -/
  selected : ∀ key, sheet.descriptor.NamesRule key →
    ∃ id s, plan.child? 0 ("." ++ sheet.className key) = some id ∧ plan.scope? id = some s
      ∧ (s.declarations ≠ [] → ∃ before after, sheet.css
          = .ok (before ++ ("." ++ sheet.className key ++ " \x7b"
              ++ ";".intercalate s.declarations ++ "\x7d") ++ after))
  /-- An element right under the root has the class name of such a key. -/
  named : ∀ id s, plan.scope? id = some s → s.parent = some 0 → s.kind = .element →
    ∃ key, sheet.descriptor.NamesRule key ∧ s.fragment = "." ++ sheet.className key

namespace Sheet

variable {sheet : Sheet} {plan : Plan}

/-- The scope of a rule under its class name, with its declarations in the stylesheet. -/
lemma exists_scope_of_namesRule (h : sheet.plan = .ok plan) {key : String}
    (hk : sheet.descriptor.NamesRule key) :
    ∃ id s, plan.child? 0 ("." ++ sheet.className key) = some id ∧ plan.scope? id = some s
      ∧ (s.declarations ≠ [] → ∃ before after, sheet.css
          = .ok (before ++ (Statement.rule ("." ++ sheet.className key) s.declarations).css
              ++ after)) := by
  have horderly : Plan.Orderly [] plan := .of_ofDescriptor h
  obtain ⟨id, hid⟩ := Plan.exists_child_of_namesRule h hk
  obtain ⟨hparent, hfragment⟩ := horderly.rooted.wellFormed.child?_eq_some.1 hid
  obtain ⟨s, hs⟩ := Plan.exists_scope (Plan.lt_size_of_parent? hparent)
  rw [Plan.parent?_of_scope? hs] at hparent
  rw [Plan.fragment?_of_scope? hs, Option.some.injEq] at hfragment
  have hmedia : s.kind ≠ .media := by
    intro hm
    obtain ⟨_, q, hq⟩ := horderly.media id ((Plan.kind?_of_scope? hs).trans (congrArg some hm))
    rw [Plan.fragment?_of_scope? hs, Option.some.injEq, hfragment] at hq
    exact MediaQuery.not_isPreludeLike_class _ (hq ▸ MediaQuery.isPreludeLike_target q)
  rw [className_of_namesRule hk]
  refine ⟨id, s, hid, hs, fun hd => ?_⟩
  obtain ⟨before, after, hcss⟩ := horderly.rooted.exists_css_of_child hs hparent hmedia hd
  rw [hfragment] at hcss
  exact ⟨before, after, bind_eq_ok.2 ⟨plan, h, congrArg Except.ok hcss⟩⟩

/-- An element right under the root has the class name of a key that names a rule. -/
lemma exists_namesRule_of_element (h : sheet.plan = .ok plan) {id : Nat} {s : Scope}
    (hs : plan.scope? id = some s) (hp : s.parent = some 0) (hk : s.kind = .element) :
    ∃ key, sheet.descriptor.NamesRule key ∧ s.fragment = "." ++ sheet.className key := by
  have hheading : plan.heading? id = some (s.kind, s.fragment, s.parent) := by
    rw [Plan.heading?, hs]
    rfl
  obtain ⟨key, hkey, hf⟩ := Plan.elementsNamed_of_ofDescriptor h _ _ _ _ hheading hp hk
  exact ⟨key, hkey, by rw [className_of_namesRule hkey, hf]⟩

/-- **Class names**: the class names of a sheet that was extended and can be compiled are the
selectors of its rules, and those that its seed gives without a sheet. -/
theorem namesAgree {extensions : List Descriptor}
    (h : (sheet.extendAll extensions).plan = .ok plan) :
    (sheet.extendAll extensions).NamesAgree plan
      ∧ ∀ seedKey, sheet.seed = Seed.ofKey? seedKey →
          ∀ key, (sheet.extendAll extensions).descriptor.NamesRule key →
            (sheet.extendAll extensions).className key = Seed.classOf seedKey key := by
  refine ⟨⟨fun key hk => exists_scope_of_namesRule h hk,
    fun id s hs hp hk => exists_namesRule_of_element h hs hp hk⟩, fun seedKey hseed key hk => ?_⟩
  rw [className_of_namesRule hk, seed_extendAll, hseed, Seed.classOf]

/-- A sheet under a key, with a rule and with the name of another. -/
def themed : Sheet :=
  ⟨⟨[("foo", .block [("margin", .literal (.text "0"))]), ("bar", .absent)]⟩, .ofKey? (some "seed!")⟩

/-- A rule for the name, and another body for the rule that was there. -/
def accent : Descriptor :=
  ⟨[("bar", .block [("color", .literal (.text "red"))]),
    ("foo", .block [("padding", .literal (.text "0"))])]⟩

/-- The class names of an extended sheet under a key are its selectors, also that of a rule which
only the extension has. -/
theorem namesAgree_themed :
    ∃ plan, (themed.extendAll [accent]).plan = .ok plan
      ∧ (themed.extendAll [accent]).NamesAgree plan
      ∧ (themed.extendAll [accent]).className "bar" = Seed.classOf (some "seed!") "bar" := by
  obtain ⟨plan, h, _⟩ : ∃ plan, (themed.extendAll [accent]).plan = .ok plan ∧ _ :=
    exists_ok_of_any (p := fun plan => plan.size = 3) (by decide +kernel)
  obtain ⟨hagree, hclass⟩ := namesAgree h
  have hbar : (themed.extendAll [accent]).descriptor.NamesRule "bar" :=
    ⟨by decide, .block [("color", .literal (.text "red"))],
      by simp [extendAll, extend, themed, accent, Descriptor.merge, Descriptor.insert,
        Descriptor.insertEntry], rfl⟩
  exact ⟨plan, h, hagree, hclass (some "seed!") rfl "bar" hbar⟩

end Sheet

end Stylesheet
