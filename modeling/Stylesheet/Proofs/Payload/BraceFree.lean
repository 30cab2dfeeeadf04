/-
Descriptors without braces.

* `Value.braceFree`, `Descriptor.braceFree`: no key and no text in a value or a descriptor, at any
  depth, has a brace;
* `Declaration.braceFree_textOf`: then its declarations have none;
* `Keyframes.BraceFree`, `MediaQuery.BraceFree`, `Directive.BraceFree`: payloads and directives
  without braces;
* `Keyframes.bracketed_css`: the braces of an animation are two deep;
* `Directive.braceFree_of_classify`: what is read from a value has no braces but those of the value.
-/
import Stylesheet.Proofs.Payload.Classification
import Stylesheet.Proofs.Payload.Truncation
import Stylesheet.Proofs.Text.Braces

namespace Stylesheet

/-! ### Values -/

namespace Value

mutual

/-- Whether no key and no text in a value has a brace. -/
def braceFree : Value → Bool
  | .absent => true
  | .literal (.text content) => decide (BraceFree content)
  | .literal (.number _) => true
  | .block entries => braceFreeEntries entries
  | .list items => braceFreeItems items

/-- Whether no key and no text in some entries has a brace. -/
def braceFreeEntries : List (String × Value) → Bool
  | [] => true
  | (key, v) :: es => decide (BraceFree key) && braceFree v && braceFreeEntries es

/-- Whether no key and no text in some values has a brace. -/
def braceFreeItems : List Value → Bool
  | [] => true
  | v :: vs => braceFree v && braceFreeItems vs

end

lemma braceFreeEntries_iff {entries : List (String × Value)} :
    braceFreeEntries entries = true
      ↔ ∀ e ∈ entries, BraceFree e.1 ∧ e.2.braceFree = true := by
  induction entries with
  | nil => exact iff_of_true rfl (List.forall_mem_nil _)
  | cons e es ih =>
    rw [braceFreeEntries, Bool.and_eq_true, Bool.and_eq_true, decide_eq_true_eq, ih,
      List.forall_mem_cons]

lemma braceFreeItems_iff {items : List Value} :
    braceFreeItems items = true ↔ ∀ v ∈ items, v.braceFree = true := by
  induction items with
  | nil => exact iff_of_true rfl (List.forall_mem_nil _)
  | cons v vs ih => rw [braceFreeItems, Bool.and_eq_true, ih, List.forall_mem_cons]

end Value

/-- Whether no key and no text in a descriptor has a brace. -/
def Descriptor.braceFree (d : Descriptor) : Bool :=
  Value.braceFreeEntries d.entries

namespace Value

variable {v : Value} (hv : v.braceFree = true)

include hv

lemma braceFree_of_block? {body : Descriptor} (hb : v.block? = some body) :
    body.braceFree = true := by
  rw [block?_eq_some.1 hb] at hv
  exact hv

lemma braceFree_of_mem_list? {items : List Value} (hl : v.list? = some items) {item : Value}
    (hm : item ∈ items) : item.braceFree = true := by
  rw [list?_eq_some.1 hl] at hv
  exact braceFreeItems_iff.1 hv item hm

lemma braceFree_of_literal? {l : Literal} (hl : v.literal? = some l) : BraceFree l.css := by
  refine Literal.braceFree_css fun text ht => ?_
  rw [literal?_eq_some.1 hl, ht] at hv
  exact of_decide_eq_true hv

end Value

namespace Descriptor

variable {d : Descriptor}

lemma braceFree_iff :
    d.braceFree = true ↔ ∀ e ∈ d.entries, BraceFree e.1 ∧ e.2.braceFree = true :=
  Value.braceFreeEntries_iff

lemma braceFree_of_get? (h : d.braceFree = true) {key : String} {v : Value}
    (hv : d.get? key = some v) : v.braceFree = true := by
  obtain ⟨before, after, he, _⟩ := List.lookup_eq_some_iff.1 hv
  have hm : (key, v) ∈ d.entries := he ▸ List.mem_append_right _ List.mem_cons_self
  exact (braceFree_iff.1 h _ hm).2

lemma braceFree_of_literal? (h : d.braceFree = true) {key : String} {l : Literal}
    (hl : d.literal? key = some l) : BraceFree l.css := by
  obtain ⟨v, hv, hl⟩ := Option.bind_eq_some_iff.1 hl
  exact Value.braceFree_of_literal? (braceFree_of_get? h hv) hl

end Descriptor

/-! ### Declarations -/

namespace Declaration

lemma braceFree_of_textsOf {entries : List (String × Value)} {texts : List String}
    (he : ∀ e ∈ entries, BraceFree e.1 ∧ e.2.braceFree = true) (h : textsOf entries = .ok texts) :
    ∀ text ∈ texts, BraceFree text := by
  induction entries generalizing texts with
  | nil =>
    cases h
    exact List.forall_mem_nil _
  | cons e rest ih =>
    obtain ⟨key, v⟩ := e
    obtain ⟨⟨hkey, hv⟩, hrest⟩ := List.forall_mem_cons.1 he
    cases v with
    | absent => exact ih hrest h
    | literal l =>
      obtain ⟨others, ho, h⟩ := bind_eq_ok.1 h
      cases h
      have htext := braceFree_text hkey (Value.braceFree_of_literal? hv rfl)
      exact List.forall_mem_cons.2 ⟨htext, ih hrest ho⟩
    | _ => cases h

/-- The declarations of a mapping without braces have none. -/
lemma braceFree_textOf {mapping : Descriptor} {text : String} (hm : mapping.braceFree = true)
    (h : textOf mapping = .ok text) : BraceFree text := by
  obtain ⟨texts, ht, h⟩ := bind_eq_ok.1 h
  cases h
  exact .intercalate (by decide) (braceFree_of_textsOf (Descriptor.braceFree_iff.1 hm) ht)

end Declaration

/-- What holds of all that can be read from the items of a list holds of what is read from it. -/
lemma Payload.forall_mem_of_readItems {ε α : Type} {P : α → Prop}
    {read : Value → String → Except ε α} {path : String} {i : Nat} {items : List Value}
    {xs : List α} (hread : ∀ v ∈ items, ∀ at' x, read v at' = .ok x → P x)
    (h : readItems read path i items = .ok xs) : ∀ x ∈ xs, P x := by
  intro x hx
  obtain ⟨before, after, rfl⟩ := List.append_of_mem hx
  obtain ⟨kept, item, rest, at', rfl, _, _, hr⟩ := exists_item_of_readItems h
  exact hread item (List.mem_append_right _ List.mem_cons_self) at' x hr

lemma Payload.forall_mem_of_readList {α : Type} {P : α → Prop} {part : Part}
    {read : Value → String → Except Fault α} {value : Value} {path : String} {xs : List α}
    (hv : value.braceFree = true)
    (hread : ∀ {v at' x}, v.braceFree = true → read v at' = .ok x → P x)
    (h : readList part read value path = .ok xs) : ∀ x ∈ xs, P x := by
  rw [readList] at h
  split at h
  · rename_i items hl
    exact forall_mem_of_readItems
      (fun v hm _ _ => hread (Value.braceFree_of_mem_list? hv hl hm)) h
  · cases h

lemma Directive.forall_mem_of_itemsOf {α : Type} {P : α → Prop} {key : String}
    {expected : Expectation} {as? : Value → Option α} {items : List Value} {xs : List α}
    (hi : ∀ v ∈ items, v.braceFree = true) (has : ∀ v x, v.braceFree = true → as? v = some x → P x)
    (h : itemsOf key expected as? items = .ok xs) : ∀ x ∈ xs, P x := by
  refine Payload.forall_mem_of_readItems (fun v hv _ x hx => ?_) h
  exact has v x (hi v hv) (itemOf_eq_ok.1 hx)

/-! ### Keyframes -/

namespace Keyframes

/-- A step of an animation has no braces. -/
def Step.BraceFree : Step → Prop
  | .ends start finish => start.braceFree = true ∧ finish.braceFree = true
  | .percentage share css => Stylesheet.BraceFree share ∧ css.braceFree = true

/-- An animation has no braces. -/
structure BraceFree (rule : Keyframes) : Prop where
  name : Stylesheet.BraceFree rule.name
  steps : ∀ step ∈ rule.steps, step.BraceFree

variable {value : Value} {path : String}

/-! #### Reading -/

lemma braceFree_of_readStep {step : Step} (hv : value.braceFree = true)
    (h : readStep value path = .ok step) : step.BraceFree := by
  obtain ⟨mapping, hb, h⟩ := readStep_eq_ok.1 h
  have hm := Value.braceFree_of_block? hv hb
  have hbody : ∀ {key : String} {css : Descriptor},
      mapping.get? key = some (.block css.entries) → css.braceFree = true :=
    fun hget => Descriptor.braceFree_of_get? hm hget
  cases h with
  | ends _ hs hf => exact ⟨hbody hs, hbody hf⟩
  | percentage hp hc =>
    exact ⟨(Descriptor.braceFree_of_literal? hm hp).dropEnd _, hbody hc⟩

lemma braceFree_of_read {rule : Keyframes} (hv : value.braceFree = true)
    (h : read value path = .ok rule) : rule.BraceFree := by
  obtain ⟨mapping, items, hb, hname, hitems, hsteps⟩ := read_eq_ok.1 h
  have hm := Value.braceFree_of_block? hv hb
  obtain ⟨l, hl, hcss, _⟩ := name?_eq_some.1 hname
  have hlist := Descriptor.braceFree_of_get? hm hitems
  refine ⟨hcss ▸ Descriptor.braceFree_of_literal? hm hl, ?_⟩
  exact Payload.forall_mem_of_readItems (fun v hv _ _ =>
    braceFree_of_readStep (Value.braceFree_of_mem_list? hlist rfl hv)) hsteps

/-! #### Text -/

lemma bracketed_block {selector text : String} {css : Descriptor}
    (hs : Stylesheet.BraceFree selector) (hc : css.braceFree = true)
    (h : block selector css = .ok text) : Bracketed 1 text := by
  obtain ⟨declarations, hd, h⟩ := bind_eq_ok.1 h
  cases h
  exact .rule hs (.plain (Declaration.braceFree_textOf hc hd))

lemma Step.bracketed_css {step : Step} {text : String} (hs : step.BraceFree)
    (h : step.css = .ok text) : Bracketed 1 text := by
  cases step with
  | ends start finish =>
    obtain ⟨first, hfirst, h⟩ := bind_eq_ok.1 h
    obtain ⟨last, hlast, h⟩ := bind_eq_ok.1 h
    cases h
    exact .append (bracketed_block (by decide) hs.1 hfirst)
      (bracketed_block (by decide) hs.2 hlast)
  | percentage share css => exact bracketed_block (hs.1.append (by decide)) hs.2 h

lemma bracketed_stepsCss {steps : List Step} {text : String} (hs : ∀ step ∈ steps, step.BraceFree)
    (h : stepsCss steps = .ok text) : Bracketed 1 text := by
  induction steps generalizing text with
  | nil =>
    cases h
    exact .plain .empty
  | cons step steps ih =>
    obtain ⟨hstep, hrest⟩ := List.forall_mem_cons.1 hs
    obtain ⟨first, hfirst, h⟩ := bind_eq_ok.1 h
    obtain ⟨others, ho, h⟩ := bind_eq_ok.1 h
    cases h
    exact .append (Step.bracketed_css hstep hfirst) (ih hrest ho)

/-- The steps of an animation are in braces, and their declarations in braces of their own. -/
lemma bracketed_css {rule : Keyframes} {text : String} (hr : rule.BraceFree)
    (h : rule.css = .ok text) : Bracketed 2 text := by
  obtain ⟨steps, hs, h⟩ := bind_eq_ok.1 h
  cases h
  exact .block (.append (by decide) hr.name) (bracketed_stepsCss hr.steps hs)

end Keyframes

/-! ### Media queries -/

namespace MediaQuery

/-- A media query has no braces. -/
structure BraceFree (q : MediaQuery) : Prop where
  features : ∀ f ∈ q.features, Stylesheet.BraceFree f.1 ∧ Stylesheet.BraceFree f.2
  css : q.css.braceFree = true

variable {value : Value} {path : String} {q : MediaQuery}

lemma braceFree_of_feature? {e : String × Value} {f : String × String}
    (he : Stylesheet.BraceFree e.1 ∧ e.2.braceFree = true) (h : feature? e = some f) :
    Stylesheet.BraceFree f.1 ∧ Stylesheet.BraceFree f.2 := by
  rw [feature?] at h
  split at h
  · cases h
  · split at h
    · rename_i l hl
      cases h
      exact ⟨he.1, Value.braceFree_of_literal? he.2 (Value.literal?_eq_some.2 hl)⟩
    · cases h

lemma braceFree_of_read {value : Value} {path : String} (hv : value.braceFree = true)
    (h : read value path = .ok q) : q.BraceFree := by
  obtain ⟨entry, hb, _, hfeatures, hbody⟩ := read_eq_ok.1 h
  have hentries := Descriptor.braceFree_iff.1 (Value.braceFree_of_block? hv hb)
  have hlast := (body?_eq_some.1 hbody).resolve_left fun h => nomatch h.1
  refine ⟨fun f hf => ?_, ?_⟩
  · rw [hfeatures] at hf
    obtain ⟨e, he, hf⟩ := List.mem_filterMap.1 hf
    exact braceFree_of_feature? (hentries e he) hf
  · obtain ⟨before, after, h, _⟩ := hlast
    have hm : (cssKey, .block q.css.entries) ∈ entry.entries :=
      h ▸ List.mem_append_right _ List.mem_cons_self
    exact (hentries _ hm).2

/-- The prelude of a query has no braces. -/
lemma BraceFree.target (h : q.BraceFree) : Stylesheet.BraceFree q.target := by
  refine .append (by decide) (.intercalate (by decide) fun text ht => ?_)
  obtain ⟨f, hf, rfl⟩ := List.mem_map.1 ht
  obtain ⟨hname, hvalue⟩ := h.features f ((List.mergeSort_perm _ _).mem_iff.1 hf)
  rw [condition]
  split
  · exact .append (.append (by decide) hname) (by decide)
  · exact .append (.append (.append (.append (by decide) hname) (by decide)) hvalue) (by decide)

end MediaQuery

/-! ### Directives -/

namespace Directive

/-- A directive has no braces. -/
def BraceFree : Directive → Prop
  | .atRules rules => ∀ rule ∈ rules, Stylesheet.BraceFree rule
  | .keyframes rules => ∀ rule ∈ rules, rule.BraceFree
  | .mixins body => body.braceFree = true
  | .media queries => ∀ q ∈ queries, q.BraceFree
  | .overrides mappings => ∀ mapping ∈ mappings, mapping.braceFree = true
  | .nested suffix body => Stylesheet.BraceFree suffix ∧ body.braceFree = true
  | .member key value => Stylesheet.BraceFree key ∧ value.braceFree = true

variable {key path : String} {value : Value} {d : Directive}

lemma braceFree_of_nestingSuffix? {suffix : String} (hk : Stylesheet.BraceFree key)
    (h : nestingSuffix? key = some suffix) : Stylesheet.BraceFree suffix := by
  obtain ⟨_, rfl⟩ := nestingSuffix?_eq_some.1 h
  refine hk.of_subset fun c hc => ?_
  rw [String.toList_ofList] at hc
  exact List.mem_of_mem_tail hc

/-- A directive has no braces but those of its key and its value. -/
lemma braceFree_of_classify (hk : Stylesheet.BraceFree key) (hv : value.braceFree = true)
    (h : classify key value path = .ok d) : d.BraceFree := by
  cases classify_eq_ok.1 h with
  | atRules _ hl hr =>
    refine forall_mem_of_itemsOf (fun _ => Value.braceFree_of_mem_list? hv hl) ?_ hr
    intro v text hfree ht
    obtain ⟨l, hl, rfl⟩ := Option.map_eq_some_iff.1 ht
    exact Value.braceFree_of_literal? hfree hl
  | keyframes _ hr => exact Payload.forall_mem_of_readList hv Keyframes.braceFree_of_read hr
  | mixins _ hb => exact Value.braceFree_of_block? hv hb
  | media _ hq => exact Payload.forall_mem_of_readList hv MediaQuery.braceFree_of_read hq
  | overrides _ hl hm =>
    exact forall_mem_of_itemsOf (fun _ => Value.braceFree_of_mem_list? hv hl)
      (fun _ _ hfree hb => Value.braceFree_of_block? hfree hb) hm
  | nested _ hs _ hb => exact ⟨braceFree_of_nestingSuffix? hk hs, Value.braceFree_of_block? hv hb⟩
  | member _ _ => exact ⟨hk, hv⟩

end Directive

end Stylesheet
