/-
A rule that is built on its own, and the same rule in a stylesheet.

* `Value.hoists`, `Descriptor.hoists`: whether a body has an entry for which a rule on its own has
  no room, at any depth of its bodies under `&`;
* `Step.Shifts`: two steps about the same scope, once in a plan of its own and once in a stylesheet;
* `Plan.ShiftedEffects`, `Houses.effect`: the two do the same, unless there is something to be
  hoisted;
* `Plan.HousedOutcomes`, `Plan.housedOutcomes_run`: and so do whole runs;
* `Plan.standalone_build`: a body is built on its own exactly if it is built as the only rule of a
  stylesheet and has nothing to be hoisted, and then it is the same text.

An empty list under `media` is refused on its own as well, since its host is looked for before its
queries are.
-/
import Stylesheet.Proofs.Build.Orderly
import Stylesheet.Proofs.Payload.Paths
import Stylesheet.Proofs.Plan.Housing
import Stylesheet.Sheet

namespace Stylesheet

/-! ### What has to be hoisted -/

/-- Whether what stands under a key leaves the rule that it stands in. -/
def Directive.isHoistingKey (key : String) : Bool :=
  (Reserved.ofKey? key).any (· ≠ .overrides)

namespace Value

mutual

/-- Whether the value under a key has to be hoisted, or something in it if it is a body under
`&`. -/
def hoists (key : String) : Value → Bool
  | .absent => false
  | .block entries =>
    Directive.isHoistingKey key
      || (Directive.nestingSuffix? key).isSome && hoistsAny entries
  | _ => Directive.isHoistingKey key

/-- Whether some of the entries have to be hoisted. -/
def hoistsAny : List (String × Value) → Bool
  | [] => false
  | (key, value) :: es => hoists key value || hoistsAny es

end

lemma hoistsAny_eq_any (entries : List (String × Value)) :
    hoistsAny entries = entries.any fun e => e.2.hoists e.1 := by
  induction entries with
  | nil => rw [hoistsAny, List.any_nil]
  | cons e es ih => rw [hoistsAny, List.any_cons, ih]

/-- Under a key for no body, a value has to be hoisted if the key says so. -/
lemma hoists_of_nestingSuffix? {key : String} {value : Value} (ha : value.isAbsent = false)
    (hs : Directive.nestingSuffix? key = none) :
    value.hoists key = Directive.isHoistingKey key := by
  cases value with
  | absent => cases ha
  | block entries => rw [hoists, hs, Option.isSome_none, Bool.false_and, Bool.or_false]
  | _ => rfl

end Value

/-- Whether a body has an entry that has to be hoisted, at any depth of its bodies under `&`. -/
def Descriptor.hoists (body : Descriptor) : Bool :=
  Value.hoistsAny body.entries

/-- The descriptor of a stylesheet with a single rule. -/
def Descriptor.ofRule (name : String) (body : Descriptor) : Descriptor :=
  ⟨[(name, .block body.entries)]⟩

namespace Directive

/-- Whether a directive has to be hoisted, or something in its body. -/
def hoists : Directive → Bool
  | .overrides _ => false
  | .nested _ body => body.hoists
  | .member _ _ => false
  | _ => true

lemma nestingSuffix?_of_ofKey? {key : String} {reserved : Reserved}
    (hk : Reserved.ofKey? key = some reserved) : nestingSuffix? key = none := by
  cases hs : nestingSuffix? key with
  | none => rfl
  | some suffix =>
    rw [ofKey?_of_nestingSuffix? hs] at hk
    cases hk

/-- An entry has to be hoisted if it is read as a directive that has to be. -/
lemma hoists_of_classify {key path : String} {value : Value} {d : Directive}
    (ha : value.isAbsent = false) (hc : classify key value path = .ok d) :
    value.hoists key = d.hoists := by
  have hreserved : ∀ {reserved}, Reserved.ofKey? key = some reserved →
      value.hoists key = decide (reserved ≠ .overrides) := fun hk => by
    rw [Value.hoists_of_nestingSuffix? ha (nestingSuffix?_of_ofKey? hk), isHoistingKey, hk,
      Option.any_some]
  cases classify_eq_ok.1 hc with
  | atRules hk => exact hreserved hk
  | keyframes hk => exact hreserved hk
  | mixins hk => exact hreserved hk
  | media hk => exact hreserved hk
  | overrides hk => exact hreserved hk
  | nested hk hs _ hb =>
    rw [Value.block?_eq_some.1 hb, Value.hoists, isHoistingKey, hk, hs]
    rfl
  | member hk hs =>
    rw [Value.hoists_of_nestingSuffix? ha hs, isHoistingKey, hk]
    rfl

end Directive

/-! ### Steps -/

namespace Step

/-- Whether a step has to hoist something. -/
def hoists : Step → Bool
  | .entry _ _ key value => value.hoists key
  | .scope _ _ body => body.hoists
  | _ => false

/-- Two steps about the same scope of a rule, once in a plan of its own and once in a stylesheet,
where each scope has the next number. Paths may differ. -/
inductive Shifts : Step → Step → Prop
  | entry {id : Nat} {path path' key : String} {value : Value} :
      Shifts (.entry id path key value) (.entry (id + 1) path' key value)
  | override {id : Nat} {mapping : Descriptor} :
      Shifts (.override id mapping) (.override (id + 1) mapping)
  | scope {r : Plan.Request} {path path' : String} {body : Descriptor} (hk : r.kind = .nested) :
      Shifts (.scope r path body) (.scope r.next path' body)

lemma shifts_ofBody (id : Nat) (path path' : String) (body : Descriptor) :
    List.Forall₂ Shifts (ofBody id path body) (ofBody (id + 1) path' body) :=
  forall₂_map (fun _ => .entry) body.entries

/-- The steps of a body have to hoist something if the body has. -/
lemma any_hoists_ofBody (id : Nat) (path : String) (body : Descriptor) :
    (ofBody id path body).any hoists = body.hoists := by
  rw [ofBody, List.any_map, Descriptor.hoists, Value.hoistsAny_eq_any]
  rfl

end Step

namespace Plan

open Step

variable {seed : Seed} {sheet alone : Plan} {step step' : Step} {agenda agenda' : List Step}
  {hoisting : Bool}

/-- Effects on a plan of its own and on a stylesheet. Both steps are refused, or the first one is
where there is something to be hoisted, or they do the same. -/
inductive ShiftedEffects :
    Bool → Except CompileError Effect → Except CompileError Effect → Prop
  | refused {hoisting : Bool} (e e' : CompileError) :
      ShiftedEffects hoisting (.error e) (.error e')
  | hoisted (e : CompileError) (effect : Except CompileError Effect) :
      ShiftedEffects true (.error e) effect
  | performed {hoisting : Bool} {more more' : List Step} (writes : List (Nat × String))
      (hm : more.any hoists = hoisting) (h : List.Forall₂ Shifts more more') :
      ShiftedEffects hoisting (.ok ⟨writes, more⟩) (.ok ⟨writes.map nextWrite, more'⟩)

/-- On a bare plan, a directive that nothing can host is refused. -/
lemma ShiftedEffects.of_not_does {d : Directive} {id : Nat} {path : String}
    {effect : Except CompileError Effect}
    (hd : ∀ writes more, ¬ DirectiveDoes seed alone id path d writes more) :
    ShiftedEffects true (directiveEffect seed alone id path d) effect := by
  cases he : directiveEffect seed alone id path d with
  | error e => exact .hoisted e effect
  | ok effect' => exact absurd (directiveDoes_of_effect he) (hd _ _)

/-- A directive does the same in a scope of a plan of its own and of a stylesheet, unless it has to
be hoisted. -/
lemma Houses.directiveEffect (h : Houses sheet alone) (hb : alone.Bare) (id : Nat)
    (path path' : String) (d : Directive) :
    ShiftedEffects d.hoists (Step.directiveEffect seed alone id path d)
      (Step.directiveEffect seed sheet (id + 1) path' d) := by
  cases d with
  | atRules rules => exact .of_not_does fun | _, _, .atRules hh => hb.globalHost_ne hh
  | keyframes rules => exact .of_not_does fun | _, _, .keyframes hh => hb.globalHost_ne hh
  | mixins body => exact .of_not_does fun | _, _, .mixins hh => hb.mixinHost_ne hh
  | media queries => exact .of_not_does fun | _, _, .media hh => hb.mediaHost_ne hh
  | overrides mappings =>
    have hnone : (mappings.map (Step.override id)).any Step.hoists = false := by
      rw [List.any_map, List.any_eq_false]
      exact fun _ _ => Bool.false_ne_true
    exact .performed [] hnone (forall₂_map (fun _ => .override) mappings)
  | nested suffix body => exact .performed [] (Bool.or_false _) (.cons (.scope rfl) .nil)
  | member key value =>
    have hk : alone.kind? id ≠ some .global := hb.kind?_ne_global
    have hk' : sheet.kind? (id + 1) ≠ some .global := by rwa [h.kind?]
    rw [Step.directiveEffect, Step.directiveEffect, memberEffect, memberEffect, if_neg hk,
      if_neg hk']
    cases value.literal? with
    | none => exact .refused _ _
    | some l => exact .performed [(id, Declaration.text key l)] rfl .nil

/-- Two steps about the same scope do the same, unless there is something to be hoisted. -/
lemma Houses.effect (h : Houses sheet alone) (hb : alone.Bare) (hs : Shifts step step') :
    ShiftedEffects step.hoists (step.effect seed alone) (step'.effect seed sheet) := by
  cases hs with
  | @entry id path path' key value =>
    rw [Step.effect, Step.effect, Step.hoists]
    cases ha : value.isAbsent with
    | true =>
      have hnone : value.hoists key = false := by
        cases value with
        | absent => rw [Value.hoists]
        | _ => cases ha
      rw [if_pos rfl, if_pos rfl, hnone]
      exact .performed [] rfl .nil
    | false =>
      rw [if_neg Bool.false_ne_true, if_neg Bool.false_ne_true]
      have hsame := Directive.toOption_classify_path key value (Path.child path key)
        (Path.child path' key)
      simp only
      cases hc : Directive.classify key value (Path.child path key) with
      | error e =>
        cases hc' : Directive.classify key value (Path.child path' key) with
        | error e' => exact .refused e e'
        | ok d =>
          rw [hc, hc'] at hsame
          cases hsame
      | ok d =>
        rw [Directive.hoists_of_classify ha hc, Directive.classify_path hc (Path.child path' key)]
        exact h.directiveEffect hb id _ _ d
  | @override id mapping =>
    rw [Step.effect, Step.effect]
    cases Declaration.textOf mapping with
    | error e => exact .refused e e
    | ok text =>
      have hwrites : (if text.isEmpty then [] else [(id + 1, text)])
          = (if text.isEmpty then [] else [(id, text)]).map nextWrite := by
        split <;> rfl
      change ShiftedEffects _ _ (.ok ⟨if text.isEmpty then [] else [(id + 1, text)], []⟩)
      rw [hwrites]
      exact .performed _ rfl .nil
  | @scope r path path' body hk =>
    rw [Step.effect, Step.effect, Step.hoists, h.answer]
    exact .performed [] (any_hoists_ofBody _ path body) (shifts_ofBody _ path path' body)

/-! ### Runs -/

/-- How runs on a plan of its own and on a stylesheet end. Both are refused, or the first one is
where there is something to be hoisted, or they leave the same rule behind. -/
inductive HousedOutcomes : Bool → Except Failure Plan → Except Failure Plan → Prop
  | refused {hoisting : Bool} (e e' : Failure) : HousedOutcomes hoisting (.error e) (.error e')
  | hoisted (e : Failure) (outcome : Except Failure Plan) : HousedOutcomes true (.error e) outcome
  | finished {sheet alone : Plan} (h : Houses sheet alone) (hb : alone.Bare) :
      HousedOutcomes false (.ok alone) (.ok sheet)

/-- After a step that both perform, one plan still is the only rule of the other. -/
lemma Houses.after (h : Houses sheet alone) (hb : alone.Bare) (hs : Shifts step step')
    (ht : step.target < alone.size) (writes : List (Nat × String)) :
    Houses (sheet.after step' (writes.map nextWrite)) (alone.after step writes)
      ∧ (alone.after step writes).Bare := by
  cases hs with
  | scope hk => exact ⟨(h.enter ht).declareAll writes, (hb.enter hk).declareAll writes⟩
  | _ => exact ⟨h.declareAll writes, hb.declareAll writes⟩

/-- Two runs over the same steps do the same, unless there is something to be hoisted. -/
lemma housedOutcomes_run (h : Houses sheet alone) (hb : alone.Bare) (hr : Ready agenda alone)
    (hs : List.Forall₂ Shifts agenda agenda') :
    HousedOutcomes (agenda.any Step.hoists) (run seed agenda alone) (run seed agenda' sheet) := by
  induction agenda, alone using run_induction seed generalizing agenda' sheet with
  | nil alone =>
    cases hs
    rw [run_nil, run_nil]
    exact .finished h hb
  | refused step rest alone e he =>
    obtain ⟨step', rest', hstep, hrest, rfl⟩ := List.forall₂_cons_left_iff.1 hs
    have heffect : ShiftedEffects step.hoists (step.effect seed alone) (step'.effect seed sheet) :=
      h.effect hb hstep
    rw [effect_of_refused he] at heffect
    rw [run_refused he, List.any_cons]
    generalize he' : step'.effect seed sheet = effect' at heffect
    generalize step.hoists = hoisting at heffect
    cases heffect with
    | refused _ e' =>
      rw [run_refused (bind_eq_error.2 (.inl he'))]
      exact .refused _ _
    | hoisted _ _ => exact .hoisted _ _
  | performed step rest alone writes more he hd ih =>
    obtain ⟨step', rest', hstep, hrest, rfl⟩ := List.forall₂_cons_left_iff.1 hs
    have heffect : ShiftedEffects step.hoists (step.effect seed alone) (step'.effect seed sheet) :=
      h.effect hb hstep
    obtain ⟨hnext, hbare⟩ := h.after hb hstep (hr.targets _ List.mem_cons_self) writes
    rw [he] at heffect
    rw [run_performed he, List.any_cons]
    generalize he' : step'.effect seed sheet = effect' at heffect
    generalize step.hoists = hoisting at heffect
    cases heffect with
    | performed _ hhoists hmore =>
      rw [run_performed he', ← hhoists, ← List.any_append]
      exact ih hnext hbare (hr.performed hd) (List.rel_append hmore hrest)

/-- A stylesheet of a single rule is built as the body of the rule is. -/
lemma ofDescriptor_ofRule {name : String} (hn : Directive.isReservedKey name = false)
    (body : Descriptor) :
    ofDescriptor (.ofRule name body) seed = .ok sheet
      ↔ run seed (ofBody 1 (Path.child "" name) body)
          (empty.enter ⟨0, .element, "." ++ seed.apply name⟩) = .ok sheet := by
  obtain ⟨hk, hs⟩ := Directive.isReservedKey_eq_false.1 hn
  have hentry : Does seed empty (.entry 0 "" name (.block body.entries)) []
      [.scope ⟨0, .element, "." ++ seed.apply name⟩ (Path.child "" name) body] :=
    .entry rfl (Directive.classify_eq_ok.2 (.member hk hs)) (.rule rfl rfl)
  have hscope : Does seed empty
      (.scope ⟨0, .element, "." ++ seed.apply name⟩ (Path.child "" name) body) []
      (ofBody 1 (Path.child "" name) body) :=
    .scope
  have hrun : run seed (ofBody 0 "" (.ofRule name body)) empty
      = run seed (ofBody 1 (Path.child "" name) body)
          (empty.enter ⟨0, .element, "." ++ seed.apply name⟩) := by
    calc run seed (ofBody 0 "" (.ofRule name body)) empty
      _ = run seed [.scope ⟨0, .element, "." ++ seed.apply name⟩ (Path.child "" name) body] empty :=
        run_performed hentry.effect
      _ = run seed (ofBody 1 (Path.child "" name) body ++ [])
            (empty.enter ⟨0, .element, "." ++ seed.apply name⟩) :=
        run_performed hscope.effect
      _ = _ := by rw [List.append_nil]
  rw [ofDescriptor_eq_ok, hrun]

/-- **A rule on its own**: under a name that is not reserved, a body is built on its own exactly if
the stylesheet of this single rule is built and the body has nothing to be hoisted, at any depth of
its bodies under `&`. Then both are written as the same text. -/
theorem standalone_build (seed : Seed) (name : String) (body : Descriptor)
    (hn : Directive.isReservedKey name = false) :
    ((∃ alone, (standalone ("." ++ seed.apply name)).build 0 body seed = .ok alone)
        ↔ (∃ sheet, ofDescriptor (.ofRule name body) seed = .ok sheet) ∧ body.hoists = false)
      ∧ ∀ alone, (standalone ("." ++ seed.apply name)).build 0 body seed = .ok alone →
          Sheet.css ⟨.ofRule name body, seed⟩ = .ok alone.css := by
  have hready : Ready (ofBody 0 ("." ++ seed.apply name) body)
      (standalone ("." ++ seed.apply name)) :=
    Ready.ofBody (wellFormed_singleton .element _) Nat.one_pos _ _
  have hbuild : (standalone ("." ++ seed.apply name)).build 0 body seed
      = run seed (ofBody 0 ("." ++ seed.apply name) body) (standalone ("." ++ seed.apply name)) :=
    rfl
  have hwell : (left (run seed _ (standalone _))).WellFormed := hready.wellFormed_left_run
  have houtcomes : HousedOutcomes _ (run seed _ (standalone _)) (run seed _ _) :=
    housedOutcomes_run (houses_standalone ("." ++ seed.apply name)) (bare_standalone _) hready
      (shifts_ofBody 0 _ (Path.child "" name) body)
  have hsheet : ∀ sheet, ofDescriptor (.ofRule name body) seed = .ok sheet
      ↔ run seed _ _ = .ok sheet :=
    fun _ => ofDescriptor_ofRule hn body
  rw [any_hoists_ofBody] at houtcomes
  rw [hbuild, exists_congr hsheet]
  generalize run seed _ (standalone _) = outcome at hwell houtcomes ⊢
  generalize run seed _ _ = outcome' at houtcomes hsheet ⊢
  generalize body.hoists = hoisting at houtcomes ⊢
  cases houtcomes with
  | refused e e' =>
    exact ⟨iff_of_false (fun ⟨_, h⟩ => nomatch h) (fun ⟨⟨_, h⟩, _⟩ => nomatch h), nofun⟩
  | hoisted e outcome =>
    exact ⟨iff_of_false (fun ⟨_, h⟩ => nomatch h) (fun ⟨_, h⟩ => nomatch h), nofun⟩
  | @finished sheet alone h hb =>
    refine ⟨iff_of_true ⟨alone, rfl⟩ ⟨⟨sheet, rfl⟩, rfl⟩, fun alone' halone => ?_⟩
    cases halone
    have hplan := (hsheet sheet).2 rfl
    rw [Sheet.css, Sheet.plan, hplan]
    exact congrArg Except.ok (h.css_eq (Orderly.of_ofDescriptor hplan).rooted hwell hb)

/-- A body with declarations, overrides and bodies under `&`, one of them in another. -/
def tabBody : Descriptor :=
  ⟨[("color", .literal (.text "red")), ("media", .absent),
    ("&:hover", .block [("top", .literal (.text "0")), ("overrides", .list [.block [
      ("top", .literal (.text "1px"))]]), ("& b", .block [("left", .literal (.text "0"))])]),
    ("& i", .block [("color", .literal (.text "black"))])]⟩

/-- A body without anything to be hoisted is built on its own as it is in a stylesheet. -/
theorem standalone_build_tabBody :
    Directive.isReservedKey "tab" = false ∧ tabBody.hoists = false
      ∧ (∃ sheet, ofDescriptor (.ofRule "tab" tabBody) .identity = .ok sheet)
      ∧ ∃ alone, (standalone ("." ++ Seed.identity.apply "tab")).build 0 tabBody .identity
            = .ok alone
          ∧ Sheet.css ⟨.ofRule "tab" tabBody, .identity⟩ = .ok alone.css := by
  have hn : Directive.isReservedKey "tab" = false := by decide +kernel
  obtain ⟨alone, h, _⟩ : ∃ alone, (standalone ("." ++ Seed.identity.apply "tab")).build 0 tabBody
      .identity = .ok alone ∧ _ :=
    exists_ok_of_any (p := fun plan => plan.size = 4) (by decide +kernel)
  obtain ⟨hbuilt, hcss⟩ := standalone_build .identity "tab" tabBody hn
  obtain ⟨hsheet, hhoists⟩ := hbuilt.1 ⟨alone, h⟩
  exact ⟨hn, hhoists, hsheet, alone, h, hcss alone h⟩

end Plan

end Stylesheet
