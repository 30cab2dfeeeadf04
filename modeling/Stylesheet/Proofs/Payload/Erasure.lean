/-
Values without the absent values in them.

* `Value.erase`, `Descriptor.erase`: the entries and items that are absent are left out, at any
  depth;
* `Payload.toOption_readList_erase`, `Directive.toOption_itemsOf_eraseItems`: lists of payloads are
  read alike without what is absent, as far as their items are;
* `Keyframes.css_erase`, `Declaration.textOf_erase`: and they have the same text;
* `Directive.toOption_classify_erase`: an entry is the same directive without what is absent in it.

Without absent items the others stand at other positions, so that faults have other paths.
-/
import Stylesheet.Proofs.DistinctKeys
import Stylesheet.Proofs.Payload.Truncation

namespace Stylesheet

/-! ### Erasure -/

namespace Value

mutual

/-- A value without the absent entries and items in it. -/
def erase : Value → Value
  | .absent => .absent
  | .literal l => .literal l
  | .block entries => .block (eraseEntries entries)
  | .list items => .list (eraseItems items)

/-- A sequence of entries without those that are absent, at any depth. -/
def eraseEntries : List (String × Value) → List (String × Value)
  | [] => []
  | (key, v) :: es => if v.isAbsent then eraseEntries es else (key, erase v) :: eraseEntries es

/-- A sequence of items without those that are absent, at any depth. -/
def eraseItems : List Value → List Value
  | [] => []
  | v :: vs => if v.isAbsent then eraseItems vs else erase v :: eraseItems vs

end

end Value

namespace Descriptor

/-- A descriptor without the absent entries and items in it. -/
def erase (d : Descriptor) : Descriptor :=
  ⟨Value.eraseEntries d.entries⟩

end Descriptor

namespace Value

@[simp] lemma isAbsent_erase (v : Value) : v.erase.isAbsent = v.isAbsent := by
  cases v <;> rfl

@[simp] lemma literal?_erase (v : Value) : v.erase.literal? = v.literal? := by
  cases v <;> rfl

@[simp] lemma block?_erase (v : Value) : v.erase.block? = v.block?.map Descriptor.erase := by
  cases v <;> rfl

@[simp] lemma list?_erase (v : Value) : v.erase.list? = v.list?.map eraseItems := by
  cases v <;> rfl

lemma eraseEntries_cons {v : Value} (ha : v.isAbsent = false) (key : String)
    (es : List (String × Value)) :
    eraseEntries ((key, v) :: es) = (key, v.erase) :: eraseEntries es := by
  rw [eraseEntries, ha, if_neg Bool.false_ne_true]

lemma eraseItems_cons {v : Value} (ha : v.isAbsent = false) (vs : List Value) :
    eraseItems (v :: vs) = v.erase :: eraseItems vs := by
  rw [eraseItems, ha, if_neg Bool.false_ne_true]

end Value

/-! ### Entries -/

lemma Value.lookup_eraseEntries {entries : List (String × Value)}
    (hn : (entries.map (·.1)).Nodup) (key : String) :
    (eraseEntries entries).lookup key
      = (entries.lookup key).bind fun v => if v.isAbsent then none else some v.erase := by
  induction entries with
  | nil => rfl
  | cons e es ih =>
    obtain ⟨k, v⟩ := e
    rw [List.map_cons, List.nodup_cons] at hn
    rw [eraseEntries, List.lookup_cons]
    by_cases hk : key = k
    · rw [beq_iff_eq.2 hk, hk]
      cases ha : v.isAbsent with
      | true =>
        -- no other entry has the key of one that was left out
        have hnone : es.lookup k = none := by
          rw [List.lookup_eq_none_iff]
          intro e he
          exact bne_iff_ne.2 fun h => hn.1 (List.mem_map.2 ⟨e, he, h.symm⟩)
        rw [if_pos rfl, ← hk, ih hn.2, hk, hnone, Option.bind_none, Option.bind_some, if_pos ha]
      | false => simp [ha]
    · rw [beq_eq_false_iff_ne.2 hk]
      cases ha : v.isAbsent with
      | true => exact ih hn.2
      | false =>
        rw [if_neg Bool.false_ne_true, List.lookup_cons, beq_eq_false_iff_ne.2 hk]
        exact ih hn.2

namespace Descriptor

variable {d : Descriptor}

lemma get?_erase (h : d.distinctKeys = true) (key : String) :
    d.erase.get? key = (d.get? key).bind fun v => if v.isAbsent then none else some v.erase :=
  Value.lookup_eraseEntries (nodup_keys h) key

lemma literal?_erase (h : d.distinctKeys = true) (key : String) :
    d.erase.literal? key = d.literal? key := by
  rw [literal?, get?_erase h, literal?]
  cases d.get? key with
  | none => rfl
  | some v => cases v <;> rfl

/-- The items of the list under a key are those that were there, but for the absent ones. -/
lemma items?_erase (h : d.distinctKeys = true) (key : String) :
    (d.erase.get? key).bind Value.list?
      = ((d.get? key).bind Value.list?).map Value.eraseItems := by
  rw [get?_erase h]
  cases d.get? key with
  | none => rfl
  | some v => cases v <;> rfl

end Descriptor

/-! ### Declarations -/

namespace Declaration

lemma textsOf_eraseEntries (entries : List (String × Value)) :
    textsOf (Value.eraseEntries entries) = textsOf entries := by
  induction entries with
  | nil => rfl
  | cons e es ih =>
    obtain ⟨key, v⟩ := e
    cases v <;> simp [Value.eraseEntries, Value.isAbsent, Value.erase, Value.shape, textsOf, ih]

lemma textOf_erase (mapping : Descriptor) : textOf mapping.erase = textOf mapping := by
  rw [textOf, Descriptor.erase, textsOf_eraseEntries, textOf]

end Declaration

/-! ### Lists -/

/-- Items that are read alike one by one are read alike without those that are absent. -/
lemma Payload.toOption_readItems_eraseItems {ε α : Type} {read : Value → String → Except ε α}
    {f : α → α} {items : List Value}
    (hread : ∀ v ∈ items, ∀ at₁ at₂, (read v.erase at₂).toOption = (read v at₁).toOption.map f)
    (path path' : String) (i j : Nat) :
    (readItems read path' j (Value.eraseItems items)).toOption
      = (readItems read path i items).toOption.map (List.map f) := by
  induction items generalizing i j with
  | nil => rfl
  | cons v vs ih =>
    obtain ⟨hv, hvs⟩ := List.forall_mem_cons.1 hread
    cases ha : v.isAbsent with
    | true =>
      rw [Value.eraseItems, if_pos ha, readItems, if_pos ha]
      exact ih hvs (i + 1) j
    | false =>
      rw [Value.eraseItems_cons ha, readItems, readItems, Value.isAbsent_erase, ha,
        if_neg Bool.false_ne_true, if_neg Bool.false_ne_true, toOption_bind, toOption_bind,
        hv (Path.item path i)]
      cases (read v (Path.item path i)).toOption with
      | none => rfl
      | some x =>
        rw [Option.map_some, Option.bind_some, Option.bind_some, toOption_bind, toOption_bind,
          ih hvs (i + 1) (j + 1)]
        cases (readItems read path (i + 1) vs).toOption <;> rfl

lemma Payload.toOption_readList_erase {α : Type} {part : Part}
    {read : Value → String → Except Fault α} {f : α → α} {value : Value}
    (hread : ∀ {v at₁ at₂}, v.distinctKeys = true →
      (read v.erase at₂).toOption = (read v at₁).toOption.map f)
    (hv : value.distinctKeys = true) (path path' : String) :
    (readList part read value.erase path').toOption
      = (readList part read value path).toOption.map (List.map f) := by
  rw [readList, readList, Value.list?_erase]
  cases hl : value.list? with
  | none => rfl
  | some items =>
    exact toOption_readItems_eraseItems (fun v hm _ _ =>
      hread (Value.distinctKeys_of_mem_list? hv hl hm)) path path' 0 0

lemma Directive.toOption_itemsOf_eraseItems {α : Type} (as? : Value → Option α) {f : α → α}
    (has : ∀ v, as? v.erase = (as? v).map f) (key : String) (expected : Expectation)
    (items : List Value) :
    (itemsOf key expected as? (Value.eraseItems items)).toOption
      = (itemsOf key expected as? items).toOption.map (List.map f) := by
  refine Payload.toOption_readItems_eraseItems (fun v _ _ _ => ?_) "" "" 0 0
  rw [itemOf, itemOf, has]
  cases as? v <;> rfl

/-! ### Media queries -/

namespace MediaQuery

/-- A query without what is absent in its body. -/
def erase (q : MediaQuery) : MediaQuery :=
  ⟨q.features, q.css.erase⟩

variable {entries : List (String × Value)} {features : List (String × String)}
  {value : Value} {path path' : String} {q : MediaQuery}

/-- Without a body there is no query. -/
lemma toOption_readEntries_of_notMem (h : cssKey ∉ entries.map (·.1)) :
    (readEntries path features none entries).toOption = none := by
  refine Option.eq_none_iff_forall_ne_some.2 fun q hq => ?_
  obtain ⟨_, _, hbody⟩ := readEntries_eq_ok.1 (toOption_eq_some.1 hq)
  rcases body?_eq_some.1 hbody with ⟨hcss, _⟩ | ⟨before, after, rfl, _⟩
  · cases hcss
  · exact h (List.mem_map_of_mem (List.mem_append_right _ List.mem_cons_self))

lemma toOption_readEntries_erase (css : Option Descriptor) (hn : (entries.map (·.1)).Nodup)
    (hc : css ≠ none → cssKey ∉ entries.map (·.1)) :
    (readEntries path' features (css.map Descriptor.erase) (Value.eraseEntries entries)).toOption
      = (readEntries path features css entries).toOption.map erase := by
  induction entries generalizing features css with
  | nil => cases css <;> rfl
  | cons e es ih =>
    obtain ⟨key, v⟩ := e
    rw [List.map_cons, List.nodup_cons] at hn
    have hrest : css ≠ none → cssKey ∉ es.map (·.1) := fun h hm =>
      hc h (List.mem_cons_of_mem _ hm)
    by_cases hk : key = cssKey
    · subst hk
      obtain rfl : css = none := by
        by_contra h
        exact hc h List.mem_cons_self
      cases v with
      | absent =>
        -- a body that is absent is a fault, and so is a body that is not there at all
        refine (ih none hn.2 hrest).trans ?_
        rw [toOption_readEntries_of_notMem hn.1]
        simp only [readEntries, if_true]
        rfl
      | block b =>
        rw [Value.eraseEntries_cons rfl]
        simp only [readEntries, if_true]
        exact ih (some ⟨b⟩) hn.2 fun _ => hn.1
      | _ =>
        rw [Value.eraseEntries_cons rfl]
        simp only [readEntries, if_true]
        rfl
    · cases v with
      | absent =>
        simp only [readEntries, if_neg hk]
        exact ih css hn.2 hrest
      | literal l =>
        rw [Value.eraseEntries_cons rfl]
        simp only [Value.erase, readEntries, if_neg hk]
        exact ih css hn.2 hrest
      | _ =>
        rw [Value.eraseEntries_cons rfl]
        simp only [Value.erase, readEntries, if_neg hk]
        rfl

lemma toOption_read_erase (hv : value.distinctKeys = true) :
    (read value.erase path').toOption = (read value path).toOption.map erase := by
  rw [read, read, Value.block?_erase]
  cases hb : value.block? with
  | none => rfl
  | some entry =>
    have hn := Descriptor.nodup_keys (Value.distinctKeys_of_block? hv hb)
    exact toOption_readEntries_erase none hn fun h => absurd rfl h

/-- The body of a query is one of the mappings in its value. -/
lemma distinctKeys_css_of_read (hv : value.distinctKeys = true) (h : read value path = .ok q) :
    q.css.distinctKeys = true := by
  obtain ⟨before, after, rfl, _⟩ := exists_css_of_read h
  have hd := Value.distinctKeys_of_block? hv rfl
  exact Value.distinctKeys_of_block?
    (Descriptor.distinctKeys_of_mem hd (List.mem_append_right _ List.mem_cons_self)) rfl

lemma distinctKeys_css_of_readList {queries : List MediaQuery} (hv : value.distinctKeys = true)
    (h : readList value path = .ok queries) (hq : q ∈ queries) : q.css.distinctKeys = true := by
  rw [readList, Payload.readList] at h
  split at h
  · rename_i items hl
    obtain ⟨xs, ys, rfl⟩ := List.append_of_mem hq
    obtain ⟨kept, item, rest, at', rfl, _, _, hr⟩ := Payload.exists_item_of_readItems h
    have hm : item ∈ kept ++ item :: rest := List.mem_append_right _ List.mem_cons_self
    exact distinctKeys_css_of_read (Value.distinctKeys_of_mem_list? hv hl hm) hr
  · cases h

end MediaQuery

/-! ### Keyframes -/

namespace Keyframes

/-- A step of an animation without what is absent in its mappings. -/
def Step.erase : Step → Step
  | .ends start finish => .ends start.erase finish.erase
  | .percentage share css => .percentage share css.erase

/-- An animation without what is absent in the mappings of its steps. -/
def erase (rule : Keyframes) : Keyframes :=
  ⟨rule.name, rule.steps.map Step.erase⟩

variable {value : Value} {step : Descriptor} {path path' : String}

lemma toOption_readMapping_erase (hs : step.distinctKeys = true) (path path' key : String) :
    (readMapping step.erase path' key).toOption
      = (readMapping step path key).toOption.map (Option.map Descriptor.erase) := by
  rw [readMapping, readMapping, Descriptor.get?_erase hs]
  cases step.get? key with
  | none => rfl
  | some v => cases v <;> rfl

lemma toOption_readStep_erase (hv : value.distinctKeys = true) :
    (readStep value.erase path').toOption = (readStep value path).toOption.map Step.erase := by
  rw [readStep, readStep, Value.block?_erase]
  cases hb : value.block? with
  | none => rfl
  | some step =>
    have hs := Value.distinctKeys_of_block? hv hb
    simp only [Option.map_some, Descriptor.literal?_erase hs]
    cases step.literal? "percentage" with
    | some share =>
      simp only [toOption_bind]
      rw [toOption_readMapping_erase hs path]
      cases (readMapping step path "css").toOption with
      | none => rfl
      | some css => cases css <;> rfl
    | none =>
      simp only [toOption_bind]
      rw [toOption_readMapping_erase hs path, toOption_readMapping_erase hs path]
      cases (readMapping step path "from").toOption with
      | none => rfl
      | some start =>
        cases (readMapping step path "to").toOption with
        | none => rfl
        | some finish => cases start <;> cases finish <;> rfl

lemma name?_erase {rule : Descriptor} (hr : rule.distinctKeys = true) :
    name? rule.erase = name? rule := by
  rw [name?, Descriptor.literal?_erase hr, name?]

lemma toOption_read_erase (hv : value.distinctKeys = true) :
    (read value.erase path').toOption = (read value path).toOption.map erase := by
  rw [read, read, Value.block?_erase]
  cases hb : value.block? with
  | none => rfl
  | some rule =>
    have hr := Value.distinctKeys_of_block? hv hb
    simp only [Option.map_some, name?_erase hr, Descriptor.items?_erase hr]
    cases name? rule with
    | none => rfl
    | some name =>
      cases hl : (rule.get? "steps").bind Value.list? with
      | none => rfl
      | some items =>
        obtain ⟨steps, hs, hitems⟩ := Option.bind_eq_some_iff.1 hl
        have hsteps := Descriptor.distinctKeys_of_get? hr hs
        simp only [Option.map_some, toOption_bind]
        rw [Payload.toOption_readItems_eraseItems (fun v hm _ _ =>
          toOption_readStep_erase (Value.distinctKeys_of_mem_list? hsteps hitems hm))
          (Path.field path "steps") _ 0]
        cases (Payload.readItems readStep (Path.field path "steps") 0 items).toOption <;> rfl

lemma block_erase (selector : String) (mapping : Descriptor) :
    block selector mapping.erase = block selector mapping := by
  rw [block, Declaration.textOf_erase, block]

lemma stepsCss_erase (steps : List Step) : stepsCss (steps.map Step.erase) = stepsCss steps := by
  induction steps with
  | nil => rfl
  | cons step steps ih =>
    have hstep : step.erase.css = step.css := by
      cases step <;> simp only [Step.erase, Step.css, block_erase]
    rw [List.map_cons, stepsCss, hstep, ih, stepsCss]

lemma css_erase (rule : Keyframes) : rule.erase.css = rule.css := by
  rw [css, erase, stepsCss_erase, css]

end Keyframes

/-! ### Entries -/

namespace Directive

/-- A directive without what is absent in its bodies. -/
def erase : Directive → Directive
  | .atRules rules => .atRules rules
  | .keyframes rules => .keyframes (rules.map Keyframes.erase)
  | .mixins body => .mixins body.erase
  | .media queries => .media (queries.map MediaQuery.erase)
  | .overrides mappings => .overrides (mappings.map Descriptor.erase)
  | .nested suffix body => .nested suffix body.erase
  | .member key value => .member key value.erase

/-- No mapping in a directive that is still to be built has a key twice. -/
def DistinctKeys : Directive → Prop
  | .mixins body => body.distinctKeys = true
  | .media queries => ∀ q ∈ queries, q.css.distinctKeys = true
  | .nested _ body => body.distinctKeys = true
  | .member _ value => value.distinctKeys = true
  | _ => True

variable {key path path' : String} {value : Value} {d : Directive}

lemma toOption_blockOf_erase (expected : Expectation) :
    (blockOf key expected value.erase).toOption
      = (blockOf key expected value).toOption.map Descriptor.erase := by
  rw [blockOf, blockOf, Value.block?_erase]
  cases value.block? <;> rfl

lemma toOption_listOf_erase :
    (listOf key value.erase).toOption = (listOf key value).toOption.map Value.eraseItems := by
  rw [listOf, listOf, Value.list?_erase]
  cases value.list? <;> rfl

lemma toOption_ofPayload {α : Type} (x : Except Payload.Fault α) :
    (ofPayload x).toOption = x.toOption := by
  cases x <;> rfl

lemma toOption_ofReserved_erase (hv : value.distinctKeys = true) (path path' : String)
    (reserved : Reserved) :
    (ofReserved value.erase path' reserved).toOption
      = (ofReserved value path reserved).toOption.map erase := by
  cases reserved with
  | atRules =>
    simp only [ofReserved, toOption_bind, toOption_listOf_erase]
    cases (listOf Reserved.atRules.key value).toOption with
    | none => rfl
    | some items =>
      have hliterals : (literalsOf Reserved.atRules.key (Value.eraseItems items)).toOption
          = (literalsOf Reserved.atRules.key items).toOption.map (List.map id) :=
        toOption_itemsOf_eraseItems _
          (fun v => by rw [Value.literal?_erase, Option.map_id, id]) _ _ items
      rw [List.map_id_fun, Option.map_id, id] at hliterals
      simp only [Option.map_some, Option.bind_some, hliterals]
      cases (literalsOf Reserved.atRules.key items).toOption <;> rfl
  | keyframes =>
    simp only [ofReserved, toOption_bind, toOption_ofPayload]
    rw [Keyframes.readList, Payload.toOption_readList_erase Keyframes.toOption_read_erase hv path]
    cases (Payload.readList .keyframesList Keyframes.read value path).toOption <;> rfl
  | mixins =>
    simp only [ofReserved, toOption_bind, toOption_blockOf_erase]
    cases (blockOf Reserved.mixins.key .mixinMapping value).toOption <;> rfl
  | media =>
    simp only [ofReserved, toOption_bind, toOption_ofPayload]
    rw [MediaQuery.readList, Payload.toOption_readList_erase MediaQuery.toOption_read_erase hv path]
    cases (Payload.readList .mediaList MediaQuery.read value path).toOption <;> rfl
  | overrides =>
    simp only [ofReserved, toOption_bind, toOption_listOf_erase]
    cases (listOf Reserved.overrides.key value).toOption with
    | none => rfl
    | some items =>
      have hmappings : (mappingsOf Reserved.overrides.key (Value.eraseItems items)).toOption
          = (mappingsOf Reserved.overrides.key items).toOption.map (List.map Descriptor.erase) :=
        toOption_itemsOf_eraseItems _ Value.block?_erase _ _ items
      simp only [Option.map_some, Option.bind_some, hmappings]
      cases (mappingsOf Reserved.overrides.key items).toOption <;> rfl

/-- An entry is the same directive without what is absent in it, but for what is absent in its
bodies. -/
lemma toOption_classify_erase (hv : value.distinctKeys = true) (path path' : String) :
    (classify key value.erase path').toOption
      = (classify key value path).toOption.map erase := by
  rw [classify, classify]
  split
  · exact toOption_ofReserved_erase hv path path' _
  · split
    · split
      · rfl
      · rename_i suffix _ _
        rw [toOption_bind, toOption_bind, toOption_blockOf_erase]
        cases (blockOf key .nestedBody value).toOption <;> rfl
    · rfl

/-- Mappings of a directive are mappings of its value. -/
lemma distinctKeys_of_classify (hv : value.distinctKeys = true)
    (hc : classify key value path = .ok d) : d.DistinctKeys := by
  cases classify_eq_ok.1 hc with
  | mixins _ hb => exact Value.distinctKeys_of_block? hv hb
  | media _ hq => exact fun q hm => MediaQuery.distinctKeys_css_of_readList hv hq hm
  | nested _ _ _ hb => exact Value.distinctKeys_of_block? hv hb
  | member => exact hv
  | _ => exact trivial

end Directive

end Stylesheet
