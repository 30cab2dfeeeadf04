/-
The grammar of descriptors.

* `Setting`: where a body stands, as far as the grammar can tell;
* `Keyframes.Flat`: animations whose mappings hold nothing but literals;
* `Grammar.Body`, `Grammar.Entry`: well-formed bodies and entries in a setting;
* `Descriptor.exists_textOf`, `Keyframes.exists_css`, `Payload.exists_readItems`: which mappings,
  keyframes rules and lists have a text or can be read;
* `Grammar.entry_iff`: an entry is well formed exactly if it is read as a directive whose parts are.

The grammar knows no plan. Items of payloads are read under the empty path, as a path decides
nothing but the words of a fault.
-/
import Stylesheet.Proofs.Readings

namespace Stylesheet

/-- Where a body stands: it is the whole descriptor, or it is in the payload of a media query, or
neither. -/
inductive Setting where
  | top
  | rule
  | payload
  deriving DecidableEq, Repr

/-- The setting of a body right in a body. -/
def Setting.inner : Setting → Setting
  | .payload => .payload
  | _ => .rule

/-! ### Flat animations -/

/-- The mappings of a step. -/
def Keyframes.Step.mappings : Keyframes.Step → List Descriptor
  | .ends start finish => [start, finish]
  | .percentage _ css => [css]

/-- A keyframes rule whose steps hold only literals or absent values. -/
def Keyframes.Flat (rule : Keyframes) : Prop :=
  ∀ step ∈ rule.steps, ∀ m ∈ step.mappings, m.Flat

/-! ### The grammar -/

namespace Grammar

open Directive (Reserved)

mutual

/-- A body is well formed in a setting if all its entries are that are there. -/
inductive Body : Setting → List (String × Value) → Prop
  | intro {setting : Setting} {entries : List (String × Value)}
      (h : ∀ e ∈ entries, e.2.isAbsent = false → Entry setting e.1 e.2) : Body setting entries

/-- An entry is well formed in a setting. -/
inductive Entry : Setting → String → Value → Prop
  | atRules {setting : Setting} {key : String} {items : List Value}
      (hk : Reserved.ofKey? key = some .atRules) (h : ∀ v ∈ items, v.isLeaf = true) :
      Entry setting key (.list items)
  | keyframes {setting : Setting} {key : String} {items : List Value}
      (hk : Reserved.ofKey? key = some .keyframes)
      (h : ∀ v ∈ items, v.isAbsent = false → ∃ rule, Keyframes.read v "" = .ok rule ∧ rule.Flat) :
      Entry setting key (.list items)
  | mixins {setting : Setting} {key : String} {mixins : List (String × Value)}
      (hk : Reserved.ofKey? key = some .mixins)
      (h : ∀ e ∈ mixins, e.2.isAbsent = false → ∃ body, e.2.block? = some body)
      (hbody : ∀ e ∈ mixins, ∀ body, e.2.block? = some body → Body setting.inner body.entries) :
      Entry setting key (.block mixins)
  | media {key : String} {items : List Value} (hk : Reserved.ofKey? key = some .media)
      (h : ∀ v ∈ items, v.isAbsent = false → ∃ q, MediaQuery.read v "" = .ok q)
      (hbody : ∀ v ∈ items, ∀ q, MediaQuery.read v "" = .ok q → Body .payload q.css.entries) :
      Entry .rule key (.list items)
  | overrides {setting : Setting} {key : String} {items : List Value}
      (hk : Reserved.ofKey? key = some .overrides)
      (h : ∀ v ∈ items, v.isAbsent = false → ∃ mapping, v.block? = some mapping ∧ mapping.Flat) :
      Entry setting key (.list items)
  | nested {setting : Setting} {key suffix : String} {entries : List (String × Value)}
      (hs : Directive.nestingSuffix? key = some suffix) (hn : Text.allBlank suffix = false)
      (hbody : Body setting.inner entries) : Entry setting key (.block entries)
  | rule {key : String} {entries : List (String × Value)}
      (hk : Directive.isReservedKey key = false) (hbody : Body .rule entries) :
      Entry .top key (.block entries)
  | declaration {setting : Setting} {key : String} {l : Literal}
      (hk : Directive.isReservedKey key = false) (hs : setting ≠ .top) :
      Entry setting key (.literal l)

end

/-- A mixin is well formed in the setting of a body if it is absent or a well-formed body. -/
def Mixin (setting : Setting) (value : Value) : Prop :=
  value.isAbsent = false → ∃ body, value.block? = some body ∧ Body setting.inner body.entries

lemma body_iff {setting : Setting} {entries : List (String × Value)} :
    Body setting entries ↔ ∀ e ∈ entries, e.2.isAbsent = false → Entry setting e.1 e.2 := by
  constructor
  · rintro ⟨h⟩
    exact h
  · exact .intro

end Grammar

/-! ### Texts -/

/-- A mapping has a text exactly if it is flat. -/
lemma Descriptor.exists_textOf {d : Descriptor} :
    (∃ text, Declaration.textOf d = .ok text) ↔ d.Flat := by
  simp only [Declaration.textOf_eq_ok]
  exact ⟨fun ⟨_, hf, _⟩ => hf, fun hf => ⟨_, hf, rfl⟩⟩

namespace Keyframes

lemma exists_block (selector : String) {d : Descriptor} :
    (∃ text, block selector d = .ok text) ↔ d.Flat := by
  rw [← Descriptor.exists_textOf]
  exact exists_bind_iff

lemma Step.exists_css {step : Step} :
    (∃ text, step.css = .ok text) ↔ ∀ m ∈ step.mappings, m.Flat := by
  cases step with
  | ends start finish =>
    rw [mappings, List.forall_mem_cons, List.forall_mem_singleton,
      ← exists_block "from", ← exists_block "to"]
    exact exists_bind_bind_iff
  | percentage share d =>
    rw [mappings, List.forall_mem_singleton]
    exact exists_block _

lemma exists_stepsCss {steps : List Step} :
    (∃ text, stepsCss steps = .ok text) ↔ ∀ step ∈ steps, ∀ m ∈ step.mappings, m.Flat := by
  induction steps with
  | nil => simp [stepsCss]
  | cons step rest ih =>
    rw [List.forall_mem_cons, ← Step.exists_css, ← ih]
    exact exists_bind_bind_iff

/-- A keyframes rule has a text exactly if it is flat. -/
lemma exists_css {rule : Keyframes} : (∃ text, rule.css = .ok text) ↔ rule.Flat := by
  rw [Flat, ← exists_stepsCss]
  exact exists_bind_iff

end Keyframes

/-! ### Lists -/

/-- A list can be read with a property of all that is read exactly if each of its items can that is
there. -/
lemma Payload.exists_readItems {ε α : Type} {read : Value → String → Except ε α}
    (hread : PathFree read) {P : α → Prop} {path : String} {i : Nat} {items : List Value} :
    (∃ xs, readItems read path i items = .ok xs ∧ ∀ x ∈ xs, P x)
      ↔ ∀ v ∈ items, v.isAbsent = false → ∃ x, read v "" = .ok x ∧ P x := by
  induction items generalizing i with
  | nil => simp [readItems]
  | cons v rest ih =>
    rw [List.forall_mem_cons, ← @ih (i + 1), readItems]
    split
    · rename_i ha
      simp [ha]
    · rename_i ha
      constructor
      · rintro ⟨xs, h, hP⟩
        obtain ⟨x, hx, h⟩ := bind_eq_ok.1 h
        obtain ⟨ys, hys, h⟩ := bind_eq_ok.1 h
        cases h
        obtain ⟨hPx, hPys⟩ := List.forall_mem_cons.1 hP
        exact ⟨fun _ => ⟨x, hread v _ x hx "", hPx⟩, ys, hys, hPys⟩
      · rintro ⟨hv, ys, hys, hPys⟩
        obtain ⟨x, hx, hPx⟩ := hv (Bool.eq_false_iff.2 ha)
        exact ⟨x :: ys, bind_eq_ok.2 ⟨x, hread v _ x hx _, bind_eq_ok.2 ⟨ys, hys, rfl⟩⟩,
          List.forall_mem_cons.2 ⟨hPx, hPys⟩⟩

namespace Directive

/-- A list has items of one form with a property exactly if each of its items is one that is
there. -/
lemma exists_itemsOf {α : Type} {key : String} {expected : Expectation} {as? : Value → Option α}
    {P : α → Prop} {items : List Value} :
    (∃ xs, itemsOf key expected as? items = .ok xs ∧ ∀ x ∈ xs, P x)
      ↔ ∀ v ∈ items, v.isAbsent = false → ∃ x, as? v = some x ∧ P x := by
  have hitem : ∀ v x, as? v = some x ↔ itemOf key expected as? v = .ok x :=
    fun v x => itemOf_eq_ok.symm
  simp only [hitem]
  exact Payload.exists_readItems (Directive.pathFree_itemOf key expected as?)

lemma exists_literalsOf {key : String} {items : List Value} :
    (∃ texts, literalsOf key items = .ok texts) ↔ ∀ v ∈ items, v.isLeaf = true := by
  have hleaf : ∀ v : Value, v.isLeaf = true
      ↔ (v.isAbsent = false → ∃ x, v.literal?.map Literal.css = some x ∧ True) := fun v => by
    cases v <;> simp [Value.isLeaf, Value.isAbsent, Value.literal?]
  simp only [hleaf]
  rw [← exists_itemsOf]
  exact exists_congr fun xs => (and_iff_left fun _ _ => trivial).symm

/-! ### Entries -/

/-- The parts of a directive are well formed. -/
def Fits (setting : Setting) : Directive → Prop
  | .atRules _ => True
  | .keyframes rules => ∀ rule ∈ rules, rule.Flat
  | .mixins body => ∀ e ∈ body.entries, Grammar.Mixin setting e.2
  | .media queries => setting = .rule ∧ ∀ q ∈ queries, Grammar.Body .payload q.css.entries
  | .overrides mappings => ∀ m ∈ mappings, m.Flat
  | .nested _ body => Grammar.Body setting.inner body.entries
  | .member _ value =>
    if setting = .top then ∃ body, value.block? = some body ∧ Grammar.Body .rule body.entries
    else ∃ l, value.literal? = some l

end Directive

namespace Grammar

open Directive (Reading Reserved)

variable {setting : Setting} {key path : String} {value : Value}

lemma fits_of_entry (h : Entry setting key value) :
    ∃ d, Reading key value path d ∧ d.Fits setting := by
  cases h with
  | atRules hk h =>
    obtain ⟨texts, ht⟩ := Directive.exists_literalsOf.2 h
    exact ⟨_, .atRules hk rfl ht, trivial⟩
  | keyframes hk h =>
    obtain ⟨rules, hr, hf⟩ := (Payload.exists_readItems Keyframes.pathFree_read).2 h
    exact ⟨_, .keyframes hk hr, hf⟩
  | mixins hk h hbody =>
    refine ⟨_, .mixins hk rfl, fun e he ha => ?_⟩
    obtain ⟨body, hb⟩ := h e he ha
    exact ⟨body, hb, hbody e he body hb⟩
  | media hk h hbody =>
    have hitems : ∀ v ∈ _, v.isAbsent = false →
        ∃ q, MediaQuery.read v "" = .ok q ∧ Body .payload q.css.entries := fun v hv ha => by
      obtain ⟨q, hq⟩ := h v hv ha
      exact ⟨q, hq, hbody v hv q hq⟩
    obtain ⟨queries, hq, hf⟩ := (Payload.exists_readItems MediaQuery.pathFree_read).2 hitems
    exact ⟨_, .media hk hq, rfl, hf⟩
  | overrides hk h =>
    obtain ⟨ms, hm, hf⟩ := Directive.exists_itemsOf.2 h
    exact ⟨_, .overrides hk rfl hm, hf⟩
  | nested hs hn hbody =>
    exact ⟨_, .nested (Directive.ofKey?_of_nestingSuffix? hs) hs hn rfl, hbody⟩
  | rule hk hbody =>
    obtain ⟨hk, hs⟩ := Directive.isReservedKey_eq_false.1 hk
    refine ⟨_, .member hk hs, ?_⟩
    rw [Directive.Fits, if_pos rfl]
    exact ⟨_, rfl, hbody⟩
  | declaration hk hne =>
    obtain ⟨hk, hs⟩ := Directive.isReservedKey_eq_false.1 hk
    refine ⟨_, .member hk hs, ?_⟩
    rw [Directive.Fits, if_neg hne]
    exact ⟨_, rfl⟩

lemma entry_of_fits {d : Directive} (hr : Reading key value path d) (hf : d.Fits setting) :
    Entry setting key value := by
  cases hr with
  | atRules hk hv ht =>
    obtain rfl := Value.list?_eq_some.1 hv
    exact .atRules hk (Directive.exists_literalsOf.1 ⟨_, ht⟩)
  | keyframes hk hread =>
    cases value with
    | list items =>
      exact .keyframes hk ((Payload.exists_readItems Keyframes.pathFree_read).1 ⟨_, hread, hf⟩)
    | _ => cases hread
  | mixins hk hb =>
    obtain rfl := Value.block?_eq_some.1 hb
    refine .mixins hk (fun e he ha => ?_) fun e he body hb => ?_
    · obtain ⟨body, hb, _⟩ := hf e he ha
      exact ⟨body, hb⟩
    · obtain ⟨body', hb', hbody⟩ := hf e he (Value.isAbsent_of_block? hb)
      rw [hb] at hb'
      cases hb'
      exact hbody
  | media hk hread =>
    obtain ⟨rfl, hf⟩ := hf
    cases value with
    | list items =>
      have hitems := (Payload.exists_readItems MediaQuery.pathFree_read).1 ⟨_, hread, hf⟩
      refine .media hk (fun v hv ha => ?_) fun v hv q hq => ?_
      · obtain ⟨q, hq, _⟩ := hitems v hv ha
        exact ⟨q, hq⟩
      · have ha : v.isAbsent = false := by
          cases v with
          | absent => cases hq
          | _ => rfl
        obtain ⟨q', hq', hbody⟩ := hitems v hv ha
        rw [hq] at hq'
        cases hq'
        exact hbody
    | _ => cases hread
  | overrides hk hv hm =>
    obtain rfl := Value.list?_eq_some.1 hv
    exact .overrides hk (Directive.exists_itemsOf.1 ⟨_, hm, hf⟩)
  | nested hk hs hn hb =>
    obtain rfl := Value.block?_eq_some.1 hb
    exact .nested hs hn hf
  | member hk hs =>
    have hkey := Directive.isReservedKey_eq_false.2 ⟨hk, hs⟩
    rw [Directive.Fits] at hf
    split at hf
    · rename_i htop
      obtain ⟨body, hb, hbody⟩ := hf
      obtain rfl := Value.block?_eq_some.1 hb
      rw [htop]
      exact .rule hkey hbody
    · rename_i htop
      obtain ⟨l, hl⟩ := hf
      obtain rfl := Value.literal?_eq_some.1 hl
      exact .declaration hkey htop

/-- An entry is well formed exactly if it is read as a directive whose parts are well formed. -/
lemma entry_iff (path : String) :
    Entry setting key value
      ↔ ∃ d, Directive.classify key value path = .ok d ∧ d.Fits setting := by
  constructor
  · intro h
    obtain ⟨d, hr, hf⟩ := fits_of_entry h
    exact ⟨d, Directive.classify_eq_ok.2 hr, hf⟩
  · rintro ⟨d, hc, hf⟩
    exact entry_of_fits (Directive.classify_eq_ok.1 hc) hf

end Grammar

end Stylesheet
