/-
What the values of a descriptor say, read off the values themselves.

* `isPlainKey`: the keys of members, which are neither reserved nor marked by `&`;
* `Value.literals`, `Value.mappings`: the items of a list that are literals, and those that are
  mappings; `Value.under`: what a mapping holds under a key;
* `Descriptor.memberTexts`: the declarations of a mapping, one for each literal in it;
  `Descriptor.Flat`: mappings with nothing but literals in them;
* `statementText`: an at-rule as a complete statement;
* `Value.animationText`: a rule of animations as it stands in a stylesheet;
* `Value.prelude`: the prelude of a query.

Nothing here is refused, and no path is known. For each of these readings there is a lemma that what
is read of an accepted payload says the same.
-/
import Mathlib.Data.List.DropRight
import Stylesheet.Plan.Build
import Stylesheet.Proofs.Payload.Paths

namespace Stylesheet

/-! ### Keys -/

/-- Whether a key is that of a member of a body: not a reserved one, and not marked by `&`. -/
def isPlainKey (key : String) : Bool :=
  decide (key ∉ ["atRules", "keyframes", "mixins", "media", "overrides"]
    ∧ key.toList.head? ≠ some '&')

namespace Directive

/-- The plain keys are those that name members. -/
lemma isPlainKey_eq_true {key : String} :
    isPlainKey key = true ↔ Reserved.ofKey? key = none ∧ nestingSuffix? key = none := by
  rw [isPlainKey, nestingSuffix?_eq_none, ofKey?_eq_none, decide_eq_true_eq]
  rfl

end Directive

/-! ### Parts of values -/

namespace Value

/-- The entries of a mapping. -/
def entries : Value → List (String × Value)
  | .block es => es
  | _ => []

/-- The items of a list. -/
def items : Value → List Value
  | .list vs => vs
  | _ => []

/-- The text of a literal. -/
def text : Value → String
  | .literal l => l.css
  | _ => ""

/-- What a mapping holds under a key. -/
def under (v : Value) (key : String) : Value :=
  (v.entries.lookup key).getD .absent

/-- The items that are literals. -/
def literals (vs : List Value) : List Literal :=
  vs.filterMap fun v =>
    match v with
    | .literal l => some l
    | _ => none

/-- The items that are mappings. -/
def mappings (vs : List Value) : List Descriptor :=
  vs.filterMap fun v =>
    match v with
    | .block es => some ⟨es⟩
    | _ => none

/-- Where all items that are there are mappings, they are read one by one. -/
lemma forall₂_mappings {α : Type} {R : Value → α → Prop} {vs : List Value} {xs : List α}
    (hblock : ∀ v x, R v x → ∃ es, v = .block es) (h : List.Forall₂ R (present vs) xs) :
    List.Forall₂ (fun m x => R (.block m.entries) x) (mappings vs) xs := by
  induction vs generalizing xs with
  | nil => cases h; exact .nil
  | cons v vs ih =>
    cases v with
    | absent => exact ih h
    | block es =>
      cases h with
      | cons hv hvs => exact .cons hv (ih hvs)
    | literal l =>
      cases h with
      | cons hv _ =>
        obtain ⟨es, hes⟩ := hblock _ _ hv
        cases hes
    | list us =>
      cases h with
      | cons hv _ =>
        obtain ⟨es, hes⟩ := hblock _ _ hv
        cases hes

end Value

namespace Directive

/-- The mappings that items are read as are the items that are mappings. -/
lemma mappings_of_mappingsOf {key : String} {vs : List Value} {ms : List Descriptor}
    (h : mappingsOf key vs = .ok ms) : Value.mappings vs = ms := by
  rw [mappingsOf, itemsOf_eq_ok] at h
  have hms := Value.forall₂_mappings (fun v m hm => ⟨m.entries, Value.block?_eq_some.1 hm⟩) h
  rw [← List.forall₂_eq_eq_eq]
  exact hms.imp fun m m' hm => Option.some.inj hm

/-- The texts that items are read as are those of the items that are literals. -/
lemma literals_of_literalsOf {key : String} {vs : List Value} {texts : List String}
    (h : literalsOf key vs = .ok texts) : (Value.literals vs).map Literal.css = texts := by
  rw [literalsOf, itemsOf_eq_ok] at h
  induction vs generalizing texts with
  | nil => cases h; rfl
  | cons v vs ih =>
    cases v with
    | absent => exact ih h
    | literal l =>
      cases h with
      | cons hv hvs =>
        cases hv
        exact congrArg _ (ih hvs)
    | _ =>
      cases h with
      | cons hv _ => cases hv

end Directive

/-! ### Declarations -/

/-- Whether a value is a literal or absent. -/
def Value.isLeaf : Value → Bool
  | .absent => true
  | .literal _ => true
  | _ => false

namespace Descriptor

/-- A mapping that holds only literals or absent values. -/
def Flat (d : Descriptor) : Prop :=
  ∀ e ∈ d.entries, e.2.isLeaf = true
  deriving Decidable

/-- Whether there is a literal under some key. -/
def hasLiteral (d : Descriptor) : Bool :=
  d.entries.any fun e => e.2.literal?.isSome

/-- The declarations of the members of a mapping, one for each literal. -/
def memberTexts (d : Descriptor) : List String :=
  d.entries.filterMap fun e =>
    match e.2 with
    | .literal l => some (Declaration.propertyName e.1 ++ ":" ++ l.css)
    | _ => none

variable {d : Descriptor}

lemma memberTexts_eq_nil : d.memberTexts = [] ↔ d.hasLiteral = false := by
  rw [memberTexts, List.filterMap_eq_nil_iff, hasLiteral, List.any_eq_false]
  refine forall₂_congr fun e _ => ?_
  cases e.2 <;> simp [Value.literal?]

lemma ne_empty_of_mem_memberTexts {text : String} (h : text ∈ d.memberTexts) : text ≠ "" := by
  obtain ⟨e, _, he⟩ := List.mem_filterMap.1 h
  split at he
  · cases he
    intro h
    have h' := congrArg String.toList h
    simp at h'
  · cases he

/-- The declarations of the members make a text, if there are any. -/
lemma isEmpty_intercalate_memberTexts :
    (";".intercalate d.memberTexts).isEmpty = d.memberTexts.isEmpty := by
  cases hm : d.memberTexts with
  | nil => rfl
  | cons text texts =>
    have hne : text ≠ "" := ne_empty_of_mem_memberTexts (hm ▸ List.mem_cons_self)
    rw [List.isEmpty_cons, ← Bool.not_eq_true, String.isEmpty_iff]
    cases texts with
    | nil => rwa [String.intercalate_singleton]
    | cons next texts =>
      intro h
      have h' := congrArg String.toList h
      simp at h'

end Descriptor

namespace Declaration

/-- The declarations of entries are those of literals, if nothing else is there. -/
lemma textsOf_eq_ok {entries : List (String × Value)} {texts : List String} :
    textsOf entries = .ok texts
      ↔ (∀ e ∈ entries, e.2.isLeaf = true) ∧ Descriptor.memberTexts ⟨entries⟩ = texts := by
  induction entries generalizing texts with
  | nil => simp [textsOf, Descriptor.memberTexts]
  | cons e rest ih =>
    obtain ⟨key, value⟩ := e
    rw [List.forall_mem_cons]
    cases value with
    | absent => simpa [textsOf, Value.isLeaf, Descriptor.memberTexts] using ih
    | literal l =>
      rw [textsOf, bind_eq_ok]
      simp only [ih]
      constructor
      · rintro ⟨ts, ⟨hrest, rfl⟩, h⟩
        cases h
        exact ⟨⟨rfl, hrest⟩, rfl⟩
      · rintro ⟨⟨_, hrest⟩, rfl⟩
        exact ⟨_, ⟨hrest, rfl⟩, rfl⟩
    | _ => simp [textsOf, Value.isLeaf]

/-- The text of a mapping joins the declarations of its members, if it is flat. -/
lemma textOf_eq_ok {d : Descriptor} {text : String} :
    textOf d = .ok text ↔ d.Flat ∧ ";".intercalate d.memberTexts = text := by
  rw [textOf, bind_eq_ok]
  simp only [textsOf_eq_ok]
  constructor
  · rintro ⟨_, ⟨hf, rfl⟩, h⟩
    cases h
    exact ⟨hf, rfl⟩
  · rintro ⟨hf, rfl⟩
    exact ⟨_, ⟨hf, rfl⟩, rfl⟩

end Declaration

/-! ### At-rules -/

/-- An at-rule as a complete statement: no blanks follow it, and if it ends neither with a semicolon
nor with a block, a semicolon does. -/
def statementText (rule : String) : String :=
  let kept := rule.toList.rdropWhile Text.isBlank
  String.ofList (if kept.getLast? ∈ [some ';', some '\x7d'] then kept else kept ++ [';'])

lemma Step.terminated_eq (rule : String) : terminated rule = statementText rule := by
  rw [terminated, statementText, Text.trimEnd, Text.dropEnd, ← List.rdropWhile,
    String.toList_ofList]
  split
  · rename_i h
    simp [h]
  · rename_i h
    simp [h]
  · rename_i hsemicolon hbrace
    have hend : (rule.toList.rdropWhile Text.isBlank).getLast? ∉ [some ';', some '\x7d'] := by
      simp only [List.mem_cons, List.not_mem_nil, or_false, not_or]
      exact ⟨hsemicolon, hbrace⟩
    rw [if_neg hend, String.ofList_append]

/-! ### Animations -/

namespace Value

/-- Declarations for a point of an animation. -/
def pointText (point : String) (css : Value) : String :=
  point ++ " \x7b" ++ ";".intercalate (Descriptor.memberTexts ⟨css.entries⟩) ++ "\x7d"

/-- A step of an animation: its body at a percentage, if there is a literal for it, else its two
ends. Signs after a percentage are dropped, and one is put there. -/
def stepText (step : Value) : String :=
  match step.under "percentage" with
  | .literal share =>
    pointText (String.ofList (share.css.toList.rdropWhile (· == '%')) ++ "%") (step.under "css")
  | _ => pointText "from" (step.under "from") ++ pointText "to" (step.under "to")

/-- A rule of animations: its name and, in braces, its steps. -/
def animationText (rule : Value) : String :=
  "@keyframes " ++ (rule.under "name").text ++ "\x7b"
    ++ String.join ((present (rule.under "steps").items).map stepText) ++ "\x7d"

lemma under_of_get? {es : List (String × Value)} {key : String} {v : Value}
    (h : Descriptor.get? ⟨es⟩ key = some v) : (block es).under key = v := by
  rw [Descriptor.get?] at h
  rw [under, entries, h, Option.getD_some]

lemma under_of_literal? {es : List (String × Value)} {key : String} {l : Literal}
    (h : Descriptor.literal? ⟨es⟩ key = some l) : (block es).under key = .literal l := by
  obtain ⟨v, hv, hl⟩ := Option.bind_eq_some_iff.1 h
  rw [under_of_get? hv, literal?_eq_some.1 hl]

lemma under_ne_literal {es : List (String × Value)} {key : String}
    (h : Descriptor.literal? ⟨es⟩ key = none) (l : Literal) :
    (block es).under key ≠ .literal l := by
  rw [Descriptor.literal?, Descriptor.get?] at h
  rw [under, entries]
  intro hl
  cases hv : es.lookup key with
  | none =>
    rw [hv] at hl
    cases hl
  | some v =>
    rw [hv] at h hl
    rw [Option.getD_some] at hl
    rw [hl] at h
    cases h

end Value

namespace Keyframes

lemma pointText_of_block {point text : String} {css : Descriptor}
    (h : block point css = .ok text) : Value.pointText point (.block css.entries) = text := by
  obtain ⟨declarations, hd, h⟩ := bind_eq_ok.1 h
  cases h
  rw [← (Declaration.textOf_eq_ok.1 hd).2]
  rfl

/-- A step that was read, and has a text, is read off its value. -/
lemma stepText_of_readStep {v : Value} {path text : String} {step : Step}
    (hread : readStep v path = .ok step) (h : step.css = .ok text) : v.stepText = text := by
  obtain ⟨⟨es⟩, hb, hstep⟩ := readStep_eq_ok.1 hread
  obtain rfl := Value.block?_eq_some.1 hb
  rw [Value.stepText]
  cases hstep with
  | ends hp hs hf =>
    obtain ⟨first, hfirst, h⟩ := bind_eq_ok.1 h
    obtain ⟨last, hlast, h⟩ := bind_eq_ok.1 h
    cases h
    rw [Value.under_of_get? hs, Value.under_of_get? hf, pointText_of_block hfirst,
      pointText_of_block hlast]
    split
    · rename_i l hl
      exact absurd hl (Value.under_ne_literal hp l)
    · rfl
  | percentage hp hc =>
    rw [Value.under_of_literal? hp, Value.under_of_get? hc]
    exact pointText_of_block h

lemma join_stepTexts {vs : List Value} {steps : List Step} {text : String}
    (hread : List.Forall₂ (fun v step => readStep v "" = .ok step) vs steps)
    (h : stepsCss steps = .ok text) : String.join (vs.map Value.stepText) = text := by
  induction hread generalizing text with
  | nil =>
    cases h
    rfl
  | cons hv _ ih =>
    obtain ⟨first, hfirst, h⟩ := bind_eq_ok.1 h
    obtain ⟨others, hothers, h⟩ := bind_eq_ok.1 h
    cases h
    rw [List.map_cons, String.join_cons, stepText_of_readStep hv hfirst, ih hothers]

/-- A rule that was read, and has a text, is read off its value. -/
lemma animationText_of_read {v : Value} {path text : String} {rule : Keyframes}
    (hread : read v path = .ok rule) (h : rule.css = .ok text) : v.animationText = text := by
  obtain ⟨⟨es⟩, items, hb, hname, hitems, hsteps⟩ := read_eq_ok.1 hread
  obtain rfl := Value.block?_eq_some.1 hb
  obtain ⟨l, hl, hcss, _⟩ := name?_eq_some.1 hname
  obtain ⟨stepsText, hs, h⟩ := bind_eq_ok.1 h
  cases h
  rw [Value.animationText, Value.under_of_literal? hl, Value.under_of_get? hitems, Value.text, hcss,
    Value.items, join_stepTexts ((Payload.readItems_eq_ok pathFree_readStep).1 hsteps) hs]

end Keyframes

/-! ### Media queries -/

/-- The prelude of a query, made of its features. -/
def Value.prelude (query : List (String × Value)) : String :=
  MediaQuery.prelude (query.filterMap MediaQuery.feature?)

end Stylesheet
