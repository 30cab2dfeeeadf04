/-
Class names without a scope.

* `Sheet.Dangles`: a token has a class name of its own, but no scope right under the root has its
  selector;
* `Plan.exists_child_class_iff`: what has a class selector right under the root is the rule of a
  key, or else a mixin or a body under `&`;
* `Sheet.dangles_iff`: which class names are without a scope;
* `Sheet.dangles_withoutRules`: there are such class names.

A class name is picked by the keys of a descriptor. A build goes by its entries, and leaves out
those without a value, so that a key without a value has a class name but no rule.
-/
import Stylesheet.Proofs.ClassNames

namespace Stylesheet

/-- The class name of a token is another than the token, and no scope right under the root has its
selector. -/
def Sheet.Dangles (sheet : Sheet) (plan : Plan) (token : String) : Prop :=
  sheet.className token ≠ token ∧ plan.child? 0 ("." ++ sheet.className token) = none
  deriving Decidable

/-- What stands under a key is an entry. -/
lemma Descriptor.mem_of_get? {d : Descriptor} {key : String} {value : Value}
    (h : d.get? key = some value) : (key, value) ∈ d.entries := by
  obtain ⟨before, after, he, _⟩ := List.lookup_eq_some_iff.1 h
  rw [he]
  exact List.mem_append_right before List.mem_cons_self

namespace Plan

variable {seed : Seed} {plan : Plan} {d : Descriptor} {name : String}

/-- A scope right under the root that has a class selector is an element, a mixin or a body under
`&`. -/
lemma Orderly.kind_of_child_class (h : Orderly [] plan) {id : Nat}
    (hc : plan.child? 0 ("." ++ name) = some id) :
    plan.kind? id = some .element ∨ plan.kind? id = some .mixin ∨ plan.kind? id = some .nested := by
  obtain ⟨hp, hf⟩ := h.rooted.wellFormed.child?_eq_some.1 hc
  obtain ⟨kind, _, hk, _⟩ := exists_kind_fragment (lt_size_of_parent? hp)
  cases kind with
  | element => exact .inl hk
  | nested => exact .inr (.inr hk)
  | media =>
    -- a media block has its prelude as its fragment, and no class selector begins as preludes do
    obtain ⟨_, q, hq⟩ := h.media id hk
    have hlike := MediaQuery.isPreludeLike_target q
    rw [← Option.some.inj (hf.symm.trans hq)] at hlike
    exact absurd hlike (MediaQuery.not_isPreludeLike_class name)
  | mixin => exact .inr (.inl hk)
  | global =>
    rw [h.rooted.kind?_eq_global.1 hk, h.rooted.wellFormed.parent?_root] at hp
    cases hp

/-- What has a class selector right under the root is the rule of a key, or else a mixin or a body
under `&`. -/
lemma exists_child_class_iff (h : ofDescriptor d seed = .ok plan) (name : String) :
    (∃ id, plan.child? 0 ("." ++ name) = some id)
      ↔ (∃ key, d.NamesRule key ∧ seed.apply key = name)
        ∨ ∃ id, plan.child? 0 ("." ++ name) = some id
          ∧ (plan.kind? id = some .mixin ∨ plan.kind? id = some .nested) := by
  have horderly := Orderly.of_ofDescriptor h
  constructor
  · rintro ⟨id, hid⟩
    rcases horderly.kind_of_child_class hid with hk | hk
    · obtain ⟨hp, hf⟩ := horderly.rooted.wellFormed.child?_eq_some.1 hid
      obtain ⟨key, hkey, hname⟩ :=
        elementsNamed_of_ofDescriptor h _ _ _ _ (heading?_eq_some hk hf hp) rfl rfl
      exact .inl ⟨key, hkey, ((String.append_right_inj ".").1 hname).symm⟩
    · exact .inr ⟨id, hid, hk⟩
  · rintro (⟨key, hkey, rfl⟩ | ⟨id, hid, _⟩)
    · exact exists_child_of_namesRule h hkey
    · exact ⟨id, hid⟩

end Plan

namespace Sheet

variable {sheet : Sheet} {plan : Plan} {token : String}

/-- A token whose class name is another is a key that is not reserved. -/
lemma of_className_ne (h : sheet.className token ≠ token) :
    sheet.descriptor.contains token = true ∧ Directive.isReservedKey token = false := by
  rw [className] at h
  split at h
  · rename_i hkey
    simpa using hkey
  · exact absurd rfl h

/-- A key with a value that is not reserved names a rule. -/
lemma namesRule_of_get? {value : Value} (hk : Directive.isReservedKey token = false)
    (hget : sheet.descriptor.get? token = some value) (ha : value.isAbsent = false) :
    sheet.descriptor.NamesRule token :=
  ⟨hk, value, Descriptor.mem_of_get? hget, ha⟩

/-- A class name is without a scope exactly if it is that of no rule, and no mixin and no body under
`&` right under the root has its selector. -/
lemma dangles_iff_of_plan (h : sheet.plan = .ok plan) :
    sheet.Dangles plan token
      ↔ sheet.className token ≠ token
        ∧ (∀ key, sheet.descriptor.NamesRule key → sheet.className key ≠ sheet.className token)
        ∧ ∀ id, plan.child? 0 ("." ++ sheet.className token) = some id →
            plan.kind? id ≠ some .mixin ∧ plan.kind? id ≠ some .nested := by
  have hchild := Plan.exists_child_class_iff h (sheet.className token)
  constructor
  · rintro ⟨hne, hnone⟩
    have hno : ∀ id, plan.child? 0 ("." ++ sheet.className token) ≠ some id :=
      Option.eq_none_iff_forall_ne_some.1 hnone
    refine ⟨hne, fun key hkey heq => ?_, fun id hid => absurd hid (hno id)⟩
    obtain ⟨id, hid⟩ := hchild.2 (.inl ⟨key, hkey, by rw [← className_of_namesRule hkey, heq]⟩)
    exact hno id hid
  · rintro ⟨hne, hkeys, hkinds⟩
    refine ⟨hne, Option.eq_none_iff_forall_ne_some.2 fun id hid => ?_⟩
    rcases hchild.1 ⟨id, hid⟩ with ⟨key, hkey, hname⟩ | ⟨id', hid', hk⟩
    · exact hkeys key hkey ((className_of_namesRule hkey).trans hname)
    · obtain ⟨hmixin, hnested⟩ := hkinds id' hid'
      exact hk.elim hmixin hnested

/-- A token whose class name is without a scope is a key that is not reserved and has no value. -/
lemma absent_of_dangles (h : sheet.plan = .ok plan) (hd : sheet.Dangles plan token) :
    Directive.isReservedKey token = false ∧ sheet.descriptor.get? token = some .absent := by
  obtain ⟨hne, hkeys, _⟩ := (dangles_iff_of_plan h).1 hd
  obtain ⟨hcontains, hk⟩ := of_className_ne hne
  obtain ⟨value, hget⟩ := Option.isSome_iff_exists.1 hcontains
  refine ⟨hk, ?_⟩
  cases value with
  | absent => exact hget
  | _ => exact absurd rfl (hkeys token (namesRule_of_get? hk hget rfl))

/-- **Dangling class names**: in a sheet that can be compiled, whether it was extended or not, a
token with a class name of its own is without a scope exactly if the class name is that of no rule,
and there is no mixin and no body under `&` of its selector right under the root. Such a token is a
key that is not reserved and has no value. Where every key that is not reserved has one, there are
no such tokens. -/
theorem dangles_iff (h : sheet.plan = .ok plan) :
    (∀ token, sheet.Dangles plan token
        ↔ sheet.className token ≠ token
          ∧ (∀ key, sheet.descriptor.NamesRule key → sheet.className key ≠ sheet.className token)
          ∧ ∀ id, plan.child? 0 ("." ++ sheet.className token) = some id →
              plan.kind? id ≠ some .mixin ∧ plan.kind? id ≠ some .nested)
      ∧ (∀ token, sheet.Dangles plan token →
          Directive.isReservedKey token = false ∧ sheet.descriptor.get? token = some .absent)
      ∧ ((∀ e ∈ sheet.descriptor.entries,
            Directive.isReservedKey e.1 = false → e.2.isAbsent = false) →
          ∀ token, ¬ sheet.Dangles plan token) := by
  refine ⟨fun _ => dangles_iff_of_plan h, fun _ => absent_of_dangles h, fun hall token hd => ?_⟩
  obtain ⟨hk, hget⟩ := absent_of_dangles h hd
  cases hall (token, .absent) (Descriptor.mem_of_get? hget) hk

/-- A sheet under a key, with two rules. -/
def twoRules : Sheet :=
  ⟨⟨[("foo", .block [("margin", .literal (.text "0"))]),
    ("bar", .block [("color", .literal (.text "red"))])]⟩, .ofKey? (some "seed!")⟩

/-- Nothing in the place of the first rule. -/
def withoutFoo : Descriptor :=
  ⟨[("foo", .absent)]⟩

/-- Before the extension no class name is without a scope. After it that of the rule is which has
nothing in its place, and that of the other rule is not. -/
theorem dangles_iff_withoutFoo :
    ∃ base plan, twoRules.plan = .ok base ∧ (∀ token, ¬ twoRules.Dangles base token)
      ∧ (twoRules.extend withoutFoo).plan = .ok plan
      ∧ (twoRules.extend withoutFoo).Dangles plan "foo"
      ∧ ¬ (twoRules.extend withoutFoo).Dangles plan "bar" := by
  obtain ⟨base, hbase, _⟩ : ∃ base, twoRules.plan = .ok base ∧ _ :=
    exists_ok_of_any (p := fun plan => plan.size = 3) (by decide +kernel)
  obtain ⟨plan, h, hfoo⟩ := exists_ok_of_any (x := (twoRules.extend withoutFoo).plan)
    (p := fun plan => (twoRules.extend withoutFoo).Dangles plan "foo") (by decide +kernel)
  obtain ⟨_, _, hnone⟩ := dangles_iff hbase
  obtain ⟨_, habsent, _⟩ := dangles_iff h
  refine ⟨base, plan, hbase, hnone (by decide), h, of_decide_eq_true hfoo, fun hbar => ?_⟩
  have hget := (habsent "bar" hbar).2
  cases hget

/-- A sheet under a key, where a key has no value. -/
def withoutRules : Sheet :=
  ⟨⟨[("foo", .absent)]⟩, .ofKey? (some "x")⟩

/-- A key without a value has a class name of its own, and the stylesheet has no rule at all. -/
theorem dangles_withoutRules :
    ∃ plan, withoutRules.plan = .ok plan
      ∧ (¬ ∀ token, withoutRules.className token ≠ token →
          ∃ id, plan.child? 0 ("." ++ withoutRules.className token) = some id)
      ∧ plan.css = "" := by
  obtain ⟨plan, h, hp⟩ := exists_ok_of_any (x := withoutRules.plan)
    (p := fun plan => withoutRules.Dangles plan "foo" ∧ plan.css = "") (by decide +kernel)
  obtain ⟨⟨hne, hnone⟩, hcss⟩ := of_decide_eq_true hp
  refine ⟨plan, h, fun hall => ?_, hcss⟩
  obtain ⟨id, hid⟩ := hall "foo" hne
  cases hnone.symm.trans hid

end Sheet

end Stylesheet
