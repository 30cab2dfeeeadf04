/-
What the steps of a build do.

* `Step.DirectiveDoes`, `Step.Does`: every way in which a step can be performed, with the
  declarations that it makes and the steps that it leaves behind;
* `Step.does_of_effect`, `Step.does_of_perform`: there is no other way;
* `Step.Does.effect`: each of them is possible;
* `Step.forall₂_map`, `Step.forall₂_ofQueries`: agendas that are related step by step;
* `Step.target`: the scope that a step is about;
* `Step.Does.targets`: what a step does is about scopes that are there.
-/
import Mathlib.Data.List.Forall2
import Stylesheet.Plan.Build
import Stylesheet.Proofs.Payload.Classification
import Stylesheet.Proofs.Plan.Chain

namespace Stylesheet.Step

/-- The ways in which a directive can be carried out in a scope. -/
inductive DirectiveDoes (seed : Seed) (plan : Plan) (id : Nat) (path : String) :
    Directive → List (Nat × String) → List Step → Prop where
  | atRules {rules : List String} {host : Nat} (hh : plan.globalHost id .atRules = .ok host) :
      DirectiveDoes seed plan id path (.atRules rules)
        (rules.map fun rule => (host, terminated rule)) []
  | keyframes {rules : List Keyframes} {host : Nat}
      (hh : plan.globalHost id .keyframes = .ok host) :
      DirectiveDoes seed plan id path (.keyframes rules) [] (rules.map (.keyframes host))
  | mixins {body : Descriptor} {host : Nat} (hh : plan.mixinHost id = .ok host) :
      DirectiveDoes seed plan id path (.mixins body) []
        (body.entries.map fun e => .mixin host path e.1 e.2)
  | media {queries : List MediaQuery} {host : Nat} (hh : plan.mediaHost id = .ok host) :
      DirectiveDoes seed plan id path (.media queries) []
        (ofQueries host (plan.selector id) path 0 queries)
  | overrides {mappings : List Descriptor} :
      DirectiveDoes seed plan id path (.overrides mappings) [] (mappings.map (.override id))
  | nested {suffix : String} {body : Descriptor} :
      DirectiveDoes seed plan id path (.nested suffix body) []
        [.scope ⟨id, .nested, suffix⟩ path body]
  | rule {key : String} {value : Value} {body : Descriptor}
      (hk : plan.kind? id = some .global) (hb : value.block? = some body) :
      DirectiveDoes seed plan id path (.member key value) []
        [.scope ⟨id, .element, "." ++ seed.apply key⟩ path body]
  | declaration {key : String} {value : Value} {l : Literal}
      (hk : plan.kind? id ≠ some .global) (hl : value.literal? = some l) :
      DirectiveDoes seed plan id path (.member key value) [(id, Declaration.text key l)] []

/-- The ways in which a step can be performed. -/
inductive Does (seed : Seed) (plan : Plan) :
    Step → List (Nat × String) → List Step → Prop where
  | absentEntry {id : Nat} {path key : String} {value : Value} (ha : value.isAbsent = true) :
      Does seed plan (.entry id path key value) [] []
  | entry {id : Nat} {path key : String} {value : Value} {d : Directive}
      {writes : List (Nat × String)} {more : List Step} (ha : value.isAbsent = false)
      (hc : Directive.classify key value (Path.child path key) = .ok d)
      (hd : DirectiveDoes seed plan id (Path.child path key) d writes more) :
      Does seed plan (.entry id path key value) writes more
  | keyframes {host : Nat} {rule : Keyframes} {text : String} (hr : rule.css = .ok text) :
      Does seed plan (.keyframes host rule) [(host, text)] []
  | override {id : Nat} {mapping : Descriptor} {text : String}
      (ht : Declaration.textOf mapping = .ok text) :
      Does seed plan (.override id mapping) (if text.isEmpty then [] else [(id, text)]) []
  | absentMixin {host : Nat} {path name : String} {value : Value} (ha : value.isAbsent = true) :
      Does seed plan (.mixin host path name value) [] []
  | mixin {host : Nat} {path name : String} {value : Value} {body : Descriptor}
      (hb : value.block? = some body) :
      Does seed plan (.mixin host path name value) []
        [.scope ⟨host, .mixin, name⟩ (Path.child path name) body]
  | query {host : Nat} {selector path : String} {q : MediaQuery} :
      Does seed plan (.query host selector path q) []
        [.scope ⟨plan.answer ⟨host, .media, q.target⟩, .element, selector⟩ path q.css]
  | scope {r : Plan.Request} {path : String} {body : Descriptor} :
      Does seed plan (.scope r path body) [] (ofBody (plan.answer r) path body)

variable {seed : Seed} {plan plan' : Plan} {step : Step} {writes : List (Nat × String)}
  {more : List Step}

lemma directiveDoes_of_effect {id : Nat} {path : String} {d : Directive}
    (h : directiveEffect seed plan id path d = .ok ⟨writes, more⟩) :
    DirectiveDoes seed plan id path d writes more := by
  cases d with
  | atRules rules =>
    obtain ⟨host, hh, h⟩ := bind_eq_ok.1 h
    cases h
    exact .atRules hh
  | keyframes rules =>
    obtain ⟨host, hh, h⟩ := bind_eq_ok.1 h
    cases h
    exact .keyframes hh
  | mixins body =>
    obtain ⟨host, hh, h⟩ := bind_eq_ok.1 h
    cases h
    exact .mixins hh
  | media queries =>
    obtain ⟨host, hh, h⟩ := bind_eq_ok.1 h
    cases h
    exact .media hh
  | overrides mappings =>
    cases h
    exact .overrides
  | nested suffix body =>
    cases h
    exact .nested
  | member key value =>
    rw [directiveEffect, memberEffect] at h
    split at h
    · rename_i hk
      obtain ⟨body, hb, h⟩ := bind_eq_ok.1 h
      cases h
      exact .rule hk (Directive.blockOf_eq_ok.1 hb)
    · rename_i hk
      split at h
      · rename_i hl
        cases h
        exact .declaration hk hl
      · cases h

lemma does_of_effect (h : step.effect seed plan = .ok ⟨writes, more⟩) :
    Does seed plan step writes more := by
  cases step with
  | entry id path key value =>
    rw [effect] at h
    split at h
    · rename_i ha
      cases h
      exact .absentEntry ha
    · rename_i ha
      obtain ⟨d, hc, h⟩ := bind_eq_ok.1 h
      exact .entry (Bool.eq_false_iff.2 ha) hc (directiveDoes_of_effect h)
  | keyframes host rule =>
    obtain ⟨text, hr, h⟩ := bind_eq_ok.1 h
    cases h
    exact .keyframes hr
  | override id mapping =>
    obtain ⟨text, ht, h⟩ := bind_eq_ok.1 h
    cases h
    exact .override ht
  | mixin host path name value =>
    rw [effect] at h
    split at h
    · rename_i ha
      cases h
      exact .absentMixin ha
    · obtain ⟨body, hb, h⟩ := bind_eq_ok.1 h
      cases h
      exact .mixin (Directive.blockOf_eq_ok.1 hb)
  | query host selector path q =>
    cases h
    exact .query
  | scope r path body =>
    cases h
    exact .scope

lemma DirectiveDoes.effect {id : Nat} {path : String} {d : Directive}
    (hd : DirectiveDoes seed plan id path d writes more) :
    directiveEffect seed plan id path d = .ok ⟨writes, more⟩ := by
  cases hd with
  | atRules hh => exact bind_eq_ok.2 ⟨_, hh, rfl⟩
  | keyframes hh => exact bind_eq_ok.2 ⟨_, hh, rfl⟩
  | mixins hh => exact bind_eq_ok.2 ⟨_, hh, rfl⟩
  | media hh => exact bind_eq_ok.2 ⟨_, hh, rfl⟩
  | overrides => rfl
  | nested => rfl
  | rule hk hb =>
    rw [directiveEffect, memberEffect, if_pos hk]
    exact bind_eq_ok.2 ⟨_, Directive.blockOf_eq_ok.2 hb, rfl⟩
  | declaration hk hl => rw [directiveEffect, memberEffect, if_neg hk, hl]

/-- In each of the ways above a step can be performed. -/
lemma Does.effect (hd : Does seed plan step writes more) :
    step.effect seed plan = .ok ⟨writes, more⟩ := by
  cases hd with
  | absentEntry ha => rw [Step.effect, if_pos ha]
  | entry ha hc hd =>
    rw [Step.effect, if_neg (Bool.eq_false_iff.1 ha)]
    exact bind_eq_ok.2 ⟨_, hc, hd.effect⟩
  | keyframes hr => exact bind_eq_ok.2 ⟨_, hr, rfl⟩
  | override ht => exact bind_eq_ok.2 ⟨_, ht, rfl⟩
  | absentMixin ha => rw [Step.effect, if_pos ha]
  | mixin hb =>
    rw [Step.effect, if_neg (by rw [Value.isAbsent_of_block? hb]; exact Bool.false_ne_true)]
    exact bind_eq_ok.2 ⟨_, Directive.blockOf_eq_ok.2 hb, rfl⟩
  | query => rfl
  | scope => rfl

/-- A step that is performed makes some declarations and leaves some steps behind, in one of the
ways above, and changes the plan by its request and those declarations alone. -/
lemma does_of_perform (h : step.perform seed plan = .ok (plan', more)) :
    ∃ writes, step.effect seed plan = .ok ⟨writes, more⟩ ∧ Does seed plan step writes more
      ∧ plan' = (plan.grant step.request?).declareAll writes := by
  obtain ⟨writes, he, hp⟩ := perform_eq_ok.1 h
  exact ⟨writes, he, does_of_effect he, hp⟩

/-! ### Related agendas -/

/-- Elements are related one by one, if their images under two functions are. -/
lemma forall₂_map {α β γ : Type} {R : β → γ → Prop} {f : α → β} {g : α → γ}
    (h : ∀ x, R (f x) (g x)) (xs : List α) : List.Forall₂ R (xs.map f) (xs.map g) := by
  rw [List.forall₂_map_left_iff, List.forall₂_map_right_iff, List.forall₂_same]
  exact fun x _ => h x

/-- The steps of the same queries are related, if they are for two hosts and two selectors. -/
lemma forall₂_ofQueries {R : Step → Step → Prop} {host host' : Nat}
    {selector selector' path : String}
    (h : ∀ path q, R (.query host selector path q) (.query host' selector' path q)) (i : Nat)
    (queries : List MediaQuery) :
    List.Forall₂ R (ofQueries host selector path i queries)
      (ofQueries host' selector' path i queries) := by
  induction queries generalizing i with
  | nil => exact .nil
  | cons q rest ih => exact .cons (h _ q) (ih (i + 1))

/-! ### Targets -/

/-- The scope that a step is about: the one it builds into, or the host of what it builds. -/
def target : Step → Nat
  | .entry id _ _ _ => id
  | .keyframes host _ => host
  | .override id _ => id
  | .mixin host _ _ _ => host
  | .query host _ _ _ => host
  | .scope r _ _ => r.host

lemma target_of_mem_ofBody {id : Nat} {path : String} {body : Descriptor}
    (h : step ∈ ofBody id path body) : step.target = id := by
  obtain ⟨e, _, rfl⟩ := List.mem_map.1 h
  rfl

lemma eq_query_of_mem_ofQueries {host i : Nat} {selector path : String}
    {queries : List MediaQuery} (h : step ∈ ofQueries host selector path i queries) :
    ∃ path q, step = .query host selector path q := by
  induction queries generalizing i with
  | nil => cases h
  | cons q rest ih =>
    rcases List.mem_cons.1 h with rfl | h
    · exact ⟨_, q, rfl⟩
    · exact ih h

/-- The steps of queries have a property exactly if the queries have it. -/
lemma forall_mem_ofQueries {P : Step → Prop} {Q : MediaQuery → Prop} {host i : Nat}
    {selector path : String} {queries : List MediaQuery}
    (h : ∀ path q, P (.query host selector path q) ↔ Q q) :
    (∀ s ∈ ofQueries host selector path i queries, P s) ↔ ∀ q ∈ queries, Q q := by
  induction queries generalizing i with
  | nil => exact ⟨fun _ => List.forall_mem_nil _, fun _ => List.forall_mem_nil _⟩
  | cons q rest ih => rw [ofQueries, List.forall_mem_cons, List.forall_mem_cons, h, ih]

/-- What a directive in a scope does is about scopes on the chain of that scope. -/
lemma DirectiveDoes.targets {id : Nat} {path : String} {d : Directive}
    (hd : DirectiveDoes seed plan id path d writes more) :
    (∀ w ∈ writes, w.1 ≤ id) ∧ ∀ s ∈ more, s.target ≤ id := by
  cases hd with
  | atRules hh =>
    refine ⟨fun w hw => ?_, List.forall_mem_nil _⟩
    obtain ⟨rule, _, rfl⟩ := List.mem_map.1 hw
    exact Plan.le_of_mem_ancestors (Plan.globalHost_eq_ok hh).1
  | keyframes hh =>
    refine ⟨List.forall_mem_nil _, fun s hs => ?_⟩
    obtain ⟨rule, _, rfl⟩ := List.mem_map.1 hs
    exact Plan.le_of_mem_ancestors (Plan.globalHost_eq_ok hh).1
  | mixins hh =>
    refine ⟨List.forall_mem_nil _, fun s hs => ?_⟩
    obtain ⟨e, _, rfl⟩ := List.mem_map.1 hs
    exact Plan.mixinHost_le hh
  | media hh =>
    refine ⟨List.forall_mem_nil _, fun s hs => ?_⟩
    obtain ⟨_, _, rfl⟩ := eq_query_of_mem_ofQueries hs
    exact Plan.le_of_mem_ancestors (Plan.mediaHost_eq_ok hh).2.2.1
  | overrides =>
    refine ⟨List.forall_mem_nil _, fun s hs => ?_⟩
    obtain ⟨m, _, rfl⟩ := List.mem_map.1 hs
    exact Nat.le_refl _
  | nested =>
    refine ⟨List.forall_mem_nil _, fun s hs => ?_⟩
    rw [List.mem_singleton.1 hs]
    exact Nat.le_refl _
  | rule hk hb =>
    refine ⟨List.forall_mem_nil _, fun s hs => ?_⟩
    rw [List.mem_singleton.1 hs]
    exact Nat.le_refl _
  | declaration hk hl =>
    refine ⟨fun w hw => ?_, List.forall_mem_nil _⟩
    exact Nat.le_of_eq (congrArg Prod.fst (List.mem_singleton.1 hw))

/-- What a step does is about scopes that are there, if the step is. -/
lemma Does.targets (hd : Does seed plan step writes more) (hw : plan.WellFormed)
    (ht : step.target < plan.size) :
    (∀ w ∈ writes, w.1 < plan.size) ∧ ∀ s ∈ more, s.target < (plan.grant step.request?).size := by
  cases hd with
  | absentEntry ha => exact ⟨List.forall_mem_nil _, List.forall_mem_nil _⟩
  | entry ha hc hd =>
    obtain ⟨h₁, h₂⟩ := hd.targets
    exact ⟨fun w hm => Nat.lt_of_le_of_lt (h₁ w hm) ht,
      fun s hs => Nat.lt_of_le_of_lt (h₂ s hs) ht⟩
  | keyframes hr =>
    refine ⟨fun w hm => ?_, List.forall_mem_nil _⟩
    rw [List.mem_singleton.1 hm]
    exact ht
  | override htext =>
    refine ⟨fun w hm => ?_, List.forall_mem_nil _⟩
    split at hm
    · cases hm
    · rw [List.mem_singleton.1 hm]
      exact ht
  | absentMixin ha => exact ⟨List.forall_mem_nil _, List.forall_mem_nil _⟩
  | mixin hb =>
    refine ⟨List.forall_mem_nil _, fun s hs => ?_⟩
    rw [List.mem_singleton.1 hs]
    exact ht
  | query =>
    refine ⟨List.forall_mem_nil _, fun s hs => ?_⟩
    rw [List.mem_singleton.1 hs]
    exact hw.answer_lt _
  | scope =>
    refine ⟨List.forall_mem_nil _, fun s hs => ?_⟩
    rw [target_of_mem_ofBody hs]
    exact hw.answer_lt _

end Stylesheet.Step
