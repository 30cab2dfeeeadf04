/-
Values with the entries of their media queries in another order.

* `Together`: two computations that are both refused, or come to related results;
* `Value.Reordered`, `EntryReordered`, `QueryReordered`: a value with the entries of its media
  queries put in another order, at any depth;
* `Declaration.textOf_reordered`: mappings of literals have the same text;
* `Payload.together_readList`: lists are read together, if their items are;
* `Keyframes.together_read`: animations are read together, and have the same text;
* `MediaQuery.together_read`: media queries are read together, with the same preludes;
* `Directive.together_classify`: an entry is the same directive, up to its bodies.

Which entry of a query is at fault may depend on the order, so that errors differ.
-/
import Stylesheet.Proofs.MediaBlocks
import Stylesheet.Proofs.Payload.Erasure

namespace Stylesheet

/-! ### Two computations -/

section

variable {ε δ ζ α β γ α' β' : Type} {S : α → β → Prop} {T : α' → β' → Prop}

/-- Two computations are both refused, or come to related results. -/
inductive Together (S : α → β → Prop) : Except ε α → Except δ β → Prop where
  | refused (e : ε) (e' : δ) : Together S (.error e) (.error e')
  | done {a : α} {b : β} (h : S a b) : Together S (.ok a) (.ok b)

namespace Together

variable {x : Except ε α} {y : Except δ β}

lemma bind (hxy : Together S x y) {f : α → Except ε α'} {g : β → Except δ β'}
    (h : ∀ a b, S a b → Together T (f a) (g b)) : Together T (x >>= f) (y >>= g) := by
  cases hxy with
  | refused e e' => exact .refused e e'
  | done hab => exact h _ _ hab

lemma mono (hxy : Together S x y) {S' : α → β → Prop} (h : ∀ a b, S a b → S' a b) :
    Together S' x y := by
  cases hxy with
  | refused e e' => exact .refused e e'
  | done hab => exact .done (h _ _ hab)

/-- A result of the first computation has what all its results have. -/
lemma and_left (hxy : Together S x y) {P : α → Prop} (h : ∀ a, x = .ok a → P a) :
    Together (fun a b => P a ∧ S a b) x y := by
  cases hxy with
  | refused e e' => exact .refused e e'
  | done hab => exact .done ⟨h _ rfl, hab⟩

lemma trans {z : Except ζ γ} {S' : β → γ → Prop} (hxy : Together S x y) (hyz : Together S' y z) :
    Together (fun a c => ∃ b, S a b ∧ S' b c) x z := by
  cases hxy with
  | refused e e' =>
    cases hyz with
    | refused _ e'' => exact .refused e e''
  | done hab =>
    cases hyz with
    | done hbc => exact .done ⟨_, hab, hbc⟩

/-- Two computations are together, if a result of either one comes with a related one of the
other. -/
lemma of_forall (h : ∀ a, x = .ok a → ∃ b, y = .ok b ∧ S a b)
    (h' : ∀ b, y = .ok b → ∃ a, x = .ok a) : Together S x y := by
  cases x with
  | ok a =>
    obtain ⟨b, rfl, hab⟩ := h a rfl
    exact .done hab
  | error e =>
    cases y with
    | error e' => exact .refused e e'
    | ok b =>
      obtain ⟨a, ha⟩ := h' b rfl
      cases ha

end Together

/-- Related results are both there, or both are not. -/
lemma none_or_some_of_rel {x : Option α} {y : Option β} (h : Option.Rel S x y) :
    x = none ∧ y = none ∨ ∃ a b, x = some a ∧ y = some b ∧ S a b := by
  cases h with
  | none => exact .inl ⟨rfl, rfl⟩
  | some hab => exact .inr ⟨_, _, rfl, rfl, hab⟩

end

/-! ### Reordering -/

mutual

/-- A value with the entries of its media queries put in another order, at any depth. -/
inductive Value.Reordered : Value → Value → Prop where
  | absent : Value.Reordered .absent .absent
  | literal (l : Literal) : Value.Reordered (.literal l) (.literal l)
  | block {es fs : List (String × Value)} (h : List.Forall₂ EntryReordered es fs) :
      Value.Reordered (.block es) (.block fs)
  | list {vs ws : List Value} (h : List.Forall₂ Value.Reordered vs ws) :
      Value.Reordered (.list vs) (.list ws)

/-- An entry whose value is reordered. What stands under `media` may be a list of queries. -/
inductive EntryReordered : String × Value → String × Value → Prop where
  | value {key : String} {v w : Value} (h : Value.Reordered v w) : EntryReordered (key, v) (key, w)
  | media {key : String} {vs ws : List Value} (hk : key = Directive.Reserved.media.key)
      (h : List.Forall₂ QueryReordered vs ws) : EntryReordered (key, .list vs) (key, .list ws)

/-- An item of a list of queries. Its entries are reordered one by one, and put in another order if
it is a query. -/
inductive QueryReordered : Value → Value → Prop where
  | value {v w : Value} (h : Value.Reordered v w) : QueryReordered v w
  | query {es fs gs : List (String × Value)} (h : List.Forall₂ EntryReordered es fs)
      (hp : fs.Perm gs) : QueryReordered (.block es) (.block gs)

end

/-- A descriptor with the entries of its media queries put in another order, at any depth. -/
def Descriptor.Reordered (d d' : Descriptor) : Prop :=
  List.Forall₂ EntryReordered d.entries d'.entries

mutual

/-- A value is a reordering of itself. -/
lemma Value.Reordered.refl : (v : Value) → v.Reordered v
  | .absent => .absent
  | .literal l => .literal l
  | .block entries => .block (forall₂_entryReordered entries)
  | .list items => .list (forall₂_reordered items)

lemma forall₂_entryReordered : (entries : List (String × Value)) →
    List.Forall₂ EntryReordered entries entries
  | [] => .nil
  | (_, v) :: rest => .cons (.value (Value.Reordered.refl v)) (forall₂_entryReordered rest)

lemma forall₂_reordered : (items : List Value) → List.Forall₂ Value.Reordered items items
  | [] => .nil
  | v :: rest => .cons (Value.Reordered.refl v) (forall₂_reordered rest)

end

namespace Value.Reordered

variable {v w : Value}

lemma isAbsent_eq (h : v.Reordered w) : w.isAbsent = v.isAbsent := by
  cases h <;> rfl

lemma literal?_eq (h : v.Reordered w) : w.literal? = v.literal? := by
  cases h <;> rfl

lemma block? (h : v.Reordered w) : Option.Rel Descriptor.Reordered v.block? w.block? := by
  cases h with
  | block h => exact .some h
  | _ => exact .none

lemma list? (h : v.Reordered w) : Option.Rel (List.Forall₂ Value.Reordered) v.list? w.list? := by
  cases h with
  | list h => exact .some h
  | _ => exact .none

end Value.Reordered

namespace EntryReordered

variable {e f : String × Value} {key : String} {v w : Value}

lemma fst_eq (h : EntryReordered e f) : f.1 = e.1 := by
  cases h <;> rfl

lemma isAbsent_eq (h : EntryReordered e f) : f.2.isAbsent = e.2.isAbsent := by
  cases h with
  | value h => exact h.isAbsent_eq
  | media _ _ => rfl

lemma literal?_eq (h : EntryReordered e f) : f.2.literal? = e.2.literal? := by
  cases h with
  | value h => exact h.literal?_eq
  | media _ _ => rfl

lemma block? (h : EntryReordered e f) : Option.Rel Descriptor.Reordered e.2.block? f.2.block? := by
  cases h with
  | value h => exact h.block?
  | media _ _ => exact .none

/-- The items of a list are items of a list of queries. -/
lemma list? (h : EntryReordered (key, v) (key, w)) :
    Option.Rel (List.Forall₂ QueryReordered) v.list? w.list? := by
  cases h with
  | value h =>
    cases h with
    | list h => exact .some (h.imp fun _ _ => .value)
    | _ => exact .none
  | media _ h => exact .some h

/-- Queries stand under `media` alone. -/
lemma value_of_ne (h : EntryReordered (key, v) (key, w)) (hk : key ≠ Directive.Reserved.media.key) :
    v.Reordered w := by
  cases h with
  | value h => exact h
  | media hm _ => exact absurd hm hk

end EntryReordered

lemma QueryReordered.isAbsent_eq {v w : Value} (h : QueryReordered v w) :
    w.isAbsent = v.isAbsent := by
  cases h with
  | value h => exact h.isAbsent_eq
  | query _ _ => rfl

namespace Descriptor.Reordered

variable {d d' : Descriptor} {key : String}

lemma keys_eq (h : d.Reordered d') : d'.keys = d.keys := by
  obtain ⟨es⟩ := d
  obtain ⟨fs⟩ := d'
  change List.Forall₂ EntryReordered es fs at h
  change fs.map (·.1) = es.map (·.1)
  induction h with
  | nil => rfl
  | cons he _ ih => rw [List.map_cons, List.map_cons, he.fst_eq, ih]

/-- The same keys have values, and these are reordered. -/
lemma get? (h : d.Reordered d') (key : String) :
    Option.Rel (fun v w => EntryReordered (key, v) (key, w)) (d.get? key) (d'.get? key) := by
  obtain ⟨es⟩ := d
  obtain ⟨fs⟩ := d'
  change List.Forall₂ EntryReordered es fs at h
  change Option.Rel _ (es.lookup key) (fs.lookup key)
  induction h with
  | nil => exact .none
  | @cons e f _ _ he _ ih =>
    obtain ⟨k, v⟩ := e
    obtain ⟨k', w⟩ := f
    obtain rfl : k' = k := he.fst_eq
    rw [List.lookup_cons, List.lookup_cons]
    by_cases hk : key = k'
    · rw [beq_iff_eq.2 hk]
      subst hk
      exact .some he
    · rw [beq_eq_false_iff_ne.2 hk]
      exact ih

lemma literal?_eq (h : d.Reordered d') (key : String) : d'.literal? key = d.literal? key := by
  rw [literal?, literal?]
  rcases none_or_some_of_rel (h.get? key) with ⟨hd, hd'⟩ | ⟨v, w, hd, hd', he⟩
  · rw [hd, hd']
  · rw [hd, hd']
    exact he.literal?_eq

/-- The items of a list that is no list of queries are reordered. -/
lemma items? (h : d.Reordered d') (hk : key ≠ Directive.Reserved.media.key) :
    Option.Rel (List.Forall₂ Value.Reordered) ((d.get? key).bind Value.list?)
      ((d'.get? key).bind Value.list?) := by
  rcases none_or_some_of_rel (h.get? key) with ⟨hd, hd'⟩ | ⟨v, w, hd, hd', he⟩
  · rw [hd, hd']
    exact .none
  · rw [hd, hd']
    exact (he.value_of_ne hk).list?

end Descriptor.Reordered

/-! ### Declarations -/

namespace Declaration

lemma textsOf_reordered {es fs : List (String × Value)} (h : List.Forall₂ EntryReordered es fs) :
    textsOf fs = textsOf es := by
  induction h with
  | nil => rfl
  | @cons e f _ _ he _ ih =>
    cases he with
    | value hv => cases hv <;> simp only [textsOf, Value.shape, ih]
    | media _ _ => rfl

lemma textOf_reordered {mapping mapping' : Descriptor} (h : mapping.Reordered mapping') :
    textOf mapping' = textOf mapping := by
  rw [textOf, textsOf_reordered h, textOf]

end Declaration

/-! ### Lists -/

namespace Payload

variable {α β : Type} {R : Value → Value → Prop} {S : α → β → Prop}

/-- Items that are read together one by one are read together. -/
lemma together_readItems {ε δ : Type} {read : Value → String → Except ε α}
    {read' : Value → String → Except δ β} {vs ws : List Value}
    (habsent : ∀ v w, R v w → w.isAbsent = v.isAbsent)
    (hread : ∀ v ∈ vs, ∀ w, R v w → ∀ path, Together S (read v path) (read' w path))
    (h : List.Forall₂ R vs ws) (path : String) (i : Nat) :
    Together (List.Forall₂ S) (readItems read path i vs) (readItems read' path i ws) := by
  induction h generalizing i with
  | nil => exact .done .nil
  | @cons v w _ _ hv _ ih =>
    obtain ⟨hfirst, hrest⟩ := List.forall_mem_cons.1 hread
    rw [readItems, readItems, habsent v w hv]
    split
    · exact ih hrest (i + 1)
    · exact (hfirst w hv _).bind fun x x' hx =>
        (ih hrest (i + 1)).bind fun xs xs' hxs => .done (.cons hx hxs)

/-- So are two lists with such items. -/
lemma together_readList {part : Part} {read : Value → String → Except Fault α}
    {read' : Value → String → Except Fault β} {v w : Value}
    (habsent : ∀ v w, R v w → w.isAbsent = v.isAbsent)
    (hread : ∀ items, v.list? = some items → ∀ u ∈ items, ∀ u', R u u' →
      ∀ path, Together S (read u path) (read' u' path))
    (h : Option.Rel (List.Forall₂ R) v.list? w.list?) (path : String) :
    Together (List.Forall₂ S) (readList part read v path) (readList part read' w path) := by
  rw [readList, readList]
  rcases none_or_some_of_rel h with ⟨hv, hw⟩ | ⟨items, items', hv, hw, hi⟩
  · rw [hv, hw]
    exact .refused _ _
  · rw [hv, hw]
    exact together_readItems habsent (hread items hv) hi path 0

end Payload

/-- So are items that must be of one form, if they are of that form together. -/
lemma Directive.together_itemsOf {α : Type} {S : α → α → Prop} {as? : Value → Option α}
    (has : ∀ v w : Value, v.Reordered w → Option.Rel S (as? v) (as? w)) (key : String)
    (expected : Expectation) {vs ws : List Value} (h : List.Forall₂ Value.Reordered vs ws) :
    Together (List.Forall₂ S) (itemsOf key expected as? vs) (itemsOf key expected as? ws) := by
  refine Payload.together_readItems (fun _ _ => Value.Reordered.isAbsent_eq)
    (fun v _ w hv _ => ?_) h "" 0
  rw [itemOf, itemOf]
  rcases none_or_some_of_rel (has v w hv) with ⟨hx, hy⟩ | ⟨x, y, hx, hy, hs⟩
  · rw [hx, hy]
    exact .refused _ _
  · rw [hx, hy]
    exact .done hs

/-! ### Keyframes -/

namespace Keyframes

variable {v w : Value} {step step' : Descriptor}

/-- Two mappings with the same text, if both are there. -/
abbrev SameText : Option Descriptor → Option Descriptor → Prop :=
  Option.Rel fun css css' => Declaration.textOf css' = Declaration.textOf css

lemma together_readMapping (h : step.Reordered step') (path key : String) :
    Together SameText (readMapping step path key) (readMapping step' path key) := by
  rw [readMapping, readMapping]
  rcases none_or_some_of_rel (h.get? key) with ⟨hs, hs'⟩ | ⟨v, w, hs, hs', he⟩
  · rw [hs, hs']
    exact .done .none
  · rw [hs, hs']
    cases he with
    | value hv =>
      cases hv with
      | absent => exact .done .none
      | block hb => exact .done (.some (Declaration.textOf_reordered hb))
      | _ => exact .refused _ _
    | media _ _ => exact .refused _ _

lemma block_eq {css css' : Descriptor} (h : Declaration.textOf css' = Declaration.textOf css)
    (selector : String) : block selector css' = block selector css := by
  rw [block, h, block]

lemma together_readStep (h : v.Reordered w) (path : String) :
    Together (fun s s' => s'.css = s.css) (readStep v path) (readStep w path) := by
  rw [readStep, readStep]
  rcases none_or_some_of_rel h.block? with ⟨hv, hw⟩ | ⟨step, step', hv, hw, hs⟩
  · rw [hv, hw]
    exact .refused _ _
  · rw [hv, hw]
    dsimp only
    rw [hs.literal?_eq]
    cases step.literal? "percentage" with
    | some share =>
      refine (together_readMapping hs path "css").bind fun css css' hcss => ?_
      cases hcss with
      | none => exact .refused _ _
      | some htext => exact .done (block_eq htext _)
    | none =>
      refine (together_readMapping hs path "from").bind fun start start' hstart => ?_
      refine (together_readMapping hs path "to").bind fun finish finish' hfinish => ?_
      cases hstart with
      | none => cases hfinish <;> exact .refused _ _
      | some hfrom =>
        cases hfinish with
        | none => exact .refused _ _
        | some hto => exact .done (by rw [Step.css, block_eq hfrom, block_eq hto, Step.css])

lemma stepsCss_eq {steps steps' : List Step}
    (h : List.Forall₂ (fun s s' : Step => s'.css = s.css) steps steps') :
    stepsCss steps' = stepsCss steps := by
  induction h with
  | nil => rfl
  | cons hs _ ih => rw [stepsCss, hs, ih, stepsCss]

lemma steps_ne_media : "steps" ≠ Directive.Reserved.media.key := by
  decide

lemma together_read (h : v.Reordered w) (path : String) :
    Together (fun rule rule' => rule'.css = rule.css) (read v path) (read w path) := by
  rw [read, read]
  rcases none_or_some_of_rel h.block? with ⟨hv, hw⟩ | ⟨rule, rule', hv, hw, hr⟩
  · rw [hv, hw]
    exact .refused _ _
  · have hname : name? rule' = name? rule := by rw [name?, hr.literal?_eq, name?]
    rw [hv, hw]
    dsimp only
    rw [hname]
    cases name? rule with
    | none => exact .refused _ _
    | some name =>
      dsimp only
      rcases none_or_some_of_rel (hr.items? steps_ne_media) with ⟨hs, hs'⟩ | ⟨_, _, hs, hs', hi⟩
      · rw [hs, hs']
        exact .refused _ _
      · rw [hs, hs']
        refine (Payload.together_readItems (fun _ _ => Value.Reordered.isAbsent_eq)
          (fun _ _ _ hv => together_readStep hv) hi _ 0).bind fun steps steps' hsteps => ?_
        exact .done (by rw [css, stepsCss_eq hsteps, css])

end Keyframes

/-! ### Media queries -/

namespace MediaQuery

variable {entries es fs gs : List (String × Value)} {features : List (String × String)}
  {css css' : Option Descriptor} {path : String} {v w : Value} {q : MediaQuery}

/-- The features of entries with different keys have different names. -/
lemma nodup_features (hn : (entries.map (·.1)).Nodup) :
    ((entries.filterMap feature?).map (·.1)).Nodup := by
  refine hn.sublist ?_
  induction entries with
  | nil => exact .slnil
  | cons e es ih =>
    rw [List.map_cons, List.nodup_cons] at hn
    rw [List.filterMap_cons]
    split
    · exact (ih hn.2).cons e.1
    · rename_i f hf
      rw [List.map_cons, fst_of_feature? hf]
      exact (ih hn.2).cons_cons e.1

/-- In another order, entries are the same query, with its features in another order. -/
lemma together_readEntries_perm (hp : fs.Perm gs) (hn : (fs.map (·.1)).Nodup) :
    Together (fun q q' => q'.target = q.target ∧ q'.css = q.css) (readEntries path [] none fs)
      (readEntries path [] none gs) := by
  have hn' : (gs.map (·.1)).Nodup := (hp.map (·.1)).nodup_iff.1 hn
  have hfeatures := hp.filterMap feature?
  have hbodies : body? none fs = body? none gs := Option.ext fun d => by
    rw [body?_eq_some_of_nodup hn, body?_eq_some_of_nodup hn', hp.mem_iff]
  refine .of_forall (fun q hq => ?_) fun q hq => ?_
  · obtain ⟨hfit, hq, hbody⟩ := readEntries_eq_ok.1 hq
    rw [hbodies] at hbody
    refine ⟨⟨gs.filterMap feature?, q.css⟩, readEntries_eq_ok.2 ⟨?_, rfl, hbody⟩, ?_, rfl⟩
    · exact fun e he => hfit e (hp.mem_iff.2 he)
    · rw [target, target, hq, List.nil_append]
      exact (prelude_eq_of_perm hfeatures (nodup_features hn)).symm
  · obtain ⟨hfit, _, hbody⟩ := readEntries_eq_ok.1 hq
    rw [← hbodies] at hbody
    refine ⟨⟨fs.filterMap feature?, q.css⟩, readEntries_eq_ok.2 ⟨?_, rfl, hbody⟩⟩
    exact fun e he => hfit e (hp.mem_iff.1 he)

lemma together_readEntries (h : List.Forall₂ EntryReordered es fs)
    (hcss : Option.Rel Descriptor.Reordered css css') :
    Together (fun q q' => q'.features = q.features ∧ q.css.Reordered q'.css)
      (readEntries path features css es) (readEntries path features css' fs) := by
  induction h generalizing features css css' with
  | nil =>
    cases hcss with
    | none => exact .refused _ _
    | some hb => exact .done ⟨rfl, hb⟩
  | @cons e f _ _ he _ ih =>
    obtain ⟨key, v⟩ := e
    obtain ⟨key', w⟩ := f
    obtain rfl : key' = key := he.fst_eq
    by_cases hk : key' = cssKey
    · simp only [readEntries, if_pos hk]
      rcases none_or_some_of_rel he.block? with ⟨hv, hw⟩ | ⟨b, b', hv, hw, hb⟩
      · rw [hv, hw]
        exact .refused _ _
      · rw [hv, hw]
        exact ih (.some hb)
    · simp only [readEntries, if_neg hk]
      cases he with
      | value hv =>
        cases hv with
        | absent => exact ih hcss
        | literal l => exact ih hcss
        | _ => exact .refused _ _
      | media _ _ => exact .refused _ _

/-- Two queries with one prelude, and reordered bodies in which no key is there twice. -/
def Reordered (q q' : MediaQuery) : Prop :=
  q'.target = q.target ∧ q.css.distinctKeys = true ∧ q.css.Reordered q'.css

lemma together_read (hd : v.distinctKeys = true) (h : QueryReordered v w) (path : String) :
    Together Reordered (read v path) (read w path) := by
  have hplain : ∀ {es fs : List (String × Value)}, List.Forall₂ EntryReordered es fs →
      Together (fun q q' => q'.target = q.target ∧ q.css.Reordered q'.css)
        (readEntries path [] none es) (readEntries path [] none fs) := fun h =>
    (together_readEntries h .none).mono fun q q' hq => ⟨by rw [target, hq.1, target], hq.2⟩
  have hread : Together (fun q q' => q'.target = q.target ∧ q.css.Reordered q'.css) (read v path)
      (read w path) := by
    cases h with
    | value h =>
      cases h with
      | block h => exact hplain h
      | _ => exact .refused _ _
    | @query es fs gs h hp =>
      have hkeys : fs.map (·.1) = es.map (·.1) := Descriptor.Reordered.keys_eq (d := ⟨es⟩) h
      have hn : (fs.map (·.1)).Nodup := hkeys ▸ Descriptor.nodup_keys (d := ⟨es⟩) hd
      refine ((hplain h).trans (together_readEntries_perm hp hn)).mono ?_
      rintro q q' ⟨q'', ⟨htarget, hcss⟩, htarget', hcss'⟩
      exact ⟨htarget'.trans htarget, hcss' ▸ hcss⟩
  -- the body of the first query is in its value
  exact (hread.and_left fun q => distinctKeys_css_of_read hd).mono fun q q' hq =>
    ⟨hq.2.1, hq.1, hq.2.2⟩

end MediaQuery

/-! ### Entries -/

namespace Directive

/-- Two directives that build the same, up to the order of queries in their bodies. -/
inductive Reordered : Directive → Directive → Prop where
  | atRules (rules : List String) : Reordered (.atRules rules) (.atRules rules)
  | keyframes {rules rules' : List Keyframes}
      (h : List.Forall₂ (fun rule rule' => rule'.css = rule.css) rules rules') :
      Reordered (.keyframes rules) (.keyframes rules')
  | mixins {body body' : Descriptor} (hd : body.distinctKeys = true) (h : body.Reordered body') :
      Reordered (.mixins body) (.mixins body')
  | media {queries queries' : List MediaQuery}
      (h : List.Forall₂ MediaQuery.Reordered queries queries') :
      Reordered (.media queries) (.media queries')
  | overrides {mappings mappings' : List Descriptor}
      (h : List.Forall₂ (fun m m' => Declaration.textOf m' = Declaration.textOf m) mappings
        mappings') : Reordered (.overrides mappings) (.overrides mappings')
  | nested {body body' : Descriptor} (suffix : String) (hd : body.distinctKeys = true)
      (h : body.Reordered body') : Reordered (.nested suffix body) (.nested suffix body')
  | member {value value' : Value} (key : String) (hd : value.distinctKeys = true)
      (h : value.Reordered value') : Reordered (.member key value) (.member key value')

variable {key : String} {v w : Value}

/-- A mapping with different keys, and its reordering. -/
lemma together_blockOf (hd : v.distinctKeys = true) (h : EntryReordered (key, v) (key, w))
    (name : String) (expected : Expectation) :
    Together (fun body body' => body.distinctKeys = true ∧ body.Reordered body')
      (blockOf name expected v) (blockOf name expected w) := by
  rw [blockOf, blockOf]
  rcases none_or_some_of_rel h.block? with ⟨hv, hw⟩ | ⟨body, body', hv, hw, hb⟩
  · rw [hv, hw]
    exact .refused _ _
  · rw [hv, hw]
    exact .done ⟨Value.distinctKeys_of_block? hd hv, hb⟩

lemma together_listOf (h : v.Reordered w) (name : String) :
    Together (List.Forall₂ Value.Reordered) (listOf name v) (listOf name w) := by
  rw [listOf, listOf]
  rcases none_or_some_of_rel h.list? with ⟨hv, hw⟩ | ⟨_, _, hv, hw, hi⟩
  · rw [hv, hw]
    exact .refused _ _
  · rw [hv, hw]
    exact .done hi

lemma together_ofPayload {α β : Type} {S : α → β → Prop} {x : Except Payload.Fault α}
    {y : Except Payload.Fault β} (h : Together S x y) :
    Together S (ofPayload x) (ofPayload y) := by
  cases h with
  | refused _ _ => exact .refused _ _
  | done hab => exact .done hab

lemma together_ofReserved {reserved : Reserved} (hk : Reserved.ofKey? key = some reserved)
    (hd : v.distinctKeys = true) (h : EntryReordered (key, v) (key, w)) (path : String) :
    Together Reordered (ofReserved v path reserved) (ofReserved w path reserved) := by
  have hkey : key = reserved.key := eq_key_of_ofKey? hk
  cases reserved with
  | atRules =>
    have hv := h.value_of_ne (by rw [hkey]; decide)
    refine (together_listOf hv _).bind fun items items' hi => ?_
    have hcss : ∀ u u' : Value, u.Reordered u' →
        Option.Rel Eq (u.literal?.map Literal.css) (u'.literal?.map Literal.css) := by
      intro u u' hu
      rw [hu.literal?_eq]
      cases u.literal? with
      | none => exact .none
      | some l => exact .some rfl
    refine (together_itemsOf hcss _ _ hi).bind fun rules rules' hr => ?_
    rw [List.forall₂_eq_eq_eq] at hr
    subst hr
    exact .done (.atRules rules)
  | keyframes =>
    have hv := h.value_of_ne (by rw [hkey]; decide)
    refine (together_ofPayload (Payload.together_readList (fun _ _ => Value.Reordered.isAbsent_eq)
      (fun _ _ _ _ _ hu => Keyframes.together_read hu) hv.list? path)).bind fun _ _ hr => ?_
    exact .done (.keyframes hr)
  | mixins => exact (together_blockOf hd h _ _).bind fun _ _ hb => .done (.mixins hb.1 hb.2)
  | media =>
    refine (together_ofPayload (Payload.together_readList (R := QueryReordered)
      (fun _ _ hq => hq.isAbsent_eq) (fun items hv u hu w hq => MediaQuery.together_read
        (Value.distinctKeys_of_mem_list? hd hv hu) hq) h.list? path)).bind fun _ _ hq => ?_
    exact .done (.media hq)
  | overrides =>
    have hv := h.value_of_ne (by rw [hkey]; decide)
    refine (together_listOf hv _).bind fun items items' hi => ?_
    exact (together_itemsOf (fun _ _ hu => hu.block?) _ _ hi).bind fun _ _ hm =>
      .done (.overrides (hm.imp fun _ _ => Declaration.textOf_reordered))

/-- An entry is the same directive, up to the order of queries in its bodies. -/
lemma together_classify (hd : v.distinctKeys = true) (h : EntryReordered (key, v) (key, w))
    (path : String) : Together Reordered (classify key v path) (classify key w path) := by
  rw [classify, classify]
  split
  · rename_i reserved hk
    exact together_ofReserved hk hd h path
  · rename_i hk
    split
    · rename_i suffix _
      split
      · exact .refused _ _
      · exact (together_blockOf hd h _ _).bind fun _ _ hb => .done (.nested suffix hb.1 hb.2)
    · -- a key that is not reserved is not `media`
      refine .done (.member key hd (h.value_of_ne fun hm => ?_))
      rw [hm] at hk
      exact absurd hk (by decide)

end Directive

end Stylesheet
