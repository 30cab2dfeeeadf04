/-
Builds without the absent values of their descriptors.

* `Step.erase`: a step without what is absent in its bodies;
* `Step.IsAbsent`: a step with nothing to do, as its value is absent;
* `Step.lockstep_erase`: a build goes along with one that finds nothing absent;
* `Plan.sameOutcome_build_erase`: whatever the plan, its scope and the seed, a descriptor is built
  as it is built without what is absent in it.

Keys have to be distinct in every mapping, or an absent value could stand before another one under
its key. Descriptors that are read from texts, or put together by insertions, have no key twice.
-/
import Stylesheet.Proofs.Build.Lockstep
import Stylesheet.Proofs.Payload.Erasure

namespace Stylesheet

namespace Step

/-- A step without what is absent in its bodies. -/
def erase : Step → Step
  | .entry id path key value => .entry id path key value.erase
  | .keyframes host rule => .keyframes host rule.erase
  | .override id mapping => .override id mapping.erase
  | .mixin host path name value => .mixin host path name value.erase
  | .query host selector path q => .query host selector path q.erase
  | .scope r path body => .scope r path body.erase

/-- An entry or a mixin without a value. -/
def IsAbsent : Step → Prop
  | .entry _ _ _ value => value.isAbsent = true
  | .mixin _ _ _ value => value.isAbsent = true
  | _ => False

/-- No mapping in what a step has to build has a key twice. -/
def DistinctKeys : Step → Prop
  | .entry _ _ _ value => value.distinctKeys = true
  | .mixin _ _ _ value => value.distinctKeys = true
  | .query _ _ _ q => q.css.distinctKeys = true
  | .scope _ _ body => body.distinctKeys = true
  | _ => True

/-- A step, and the same step without what is absent in it. -/
def Erased (step step' : Step) : Prop :=
  step.DistinctKeys ∧ step' = step.erase

variable {seed : Seed} {plan : Plan} {id : Nat} {path : String}

/-! ### Agendas -/

/-- The steps of entries go along with those of the entries that are there. -/
lemma follows_eraseEntries {f : String → Value → Step} {entries : List (String × Value)}
    (hf : ∀ key v, v.distinctKeys = true → Erased (f key v) (f key v.erase))
    (hi : ∀ key v, v.isAbsent = true → (f key v).IsAbsent)
    (hd : ∀ e ∈ entries, e.2.distinctKeys = true) :
    Follows IsAbsent Erased (entries.map fun e => f e.1 e.2)
      ((Value.eraseEntries entries).map fun e => f e.1 e.2) := by
  induction entries with
  | nil => exact .nil
  | cons e es ih =>
    obtain ⟨key, v⟩ := e
    obtain ⟨hv, hes⟩ := List.forall_mem_cons.1 hd
    cases ha : v.isAbsent with
    | true =>
      rw [Value.eraseEntries, if_pos ha]
      exact .skip (hi key v ha) (ih hes)
    | false =>
      rw [Value.eraseEntries_cons ha]
      exact .cons (hf key v hv) (ih hes)

lemma follows_ofBody_erase {body : Descriptor} (hd : body.distinctKeys = true) (id : Nat)
    (path : String) :
    Follows IsAbsent Erased (ofBody id path body) (ofBody id path body.erase) :=
  follows_eraseEntries (f := .entry id path) (fun _ _ hv => ⟨hv, rfl⟩) (fun _ _ ha => ha)
    (Descriptor.distinctKeys_iff.1 hd).2

lemma follows_ofQueries_erase {queries : List MediaQuery}
    (hd : ∀ q ∈ queries, q.css.distinctKeys = true) (host i : Nat) (selector path : String) :
    Follows IsAbsent Erased (ofQueries host selector path i queries)
      (ofQueries host selector path i (queries.map MediaQuery.erase)) := by
  induction queries generalizing i with
  | nil => exact .nil
  | cons q rest ih =>
    obtain ⟨hq, hrest⟩ := List.forall_mem_cons.1 hd
    exact .cons ⟨hq, rfl⟩ (ih hrest (i + 1))

/-! ### Effects -/

lemma directiveEffect_erase {d : Directive} (hd : d.DistinctKeys) :
    EffectsAlike IsAbsent Erased (directiveEffect seed plan id path d)
      (directiveEffect seed plan id path d.erase) := by
  cases d with
  | atRules rules => exact .bind_same rfl fun host _ => .performed _ .nil
  | keyframes rules =>
    refine .bind_same rfl fun host _ => .performed [] ?_
    rw [List.map_map]
    exact .map fun _ _ => ⟨trivial, rfl⟩
  | mixins body =>
    refine .bind_same rfl fun host _ => .performed [] ?_
    exact follows_eraseEntries (f := .mixin host path) (fun _ _ hv => ⟨hv, rfl⟩) (fun _ _ ha => ha)
      (Descriptor.distinctKeys_iff.1 hd).2
  | media queries =>
    exact .bind_same rfl fun host _ => .performed [] (follows_ofQueries_erase hd host 0 _ path)
  | overrides mappings =>
    refine .performed [] ?_
    rw [List.map_map]
    exact .map fun _ _ => ⟨trivial, rfl⟩
  | nested suffix body => exact .performed [] (.cons ⟨hd, rfl⟩ .nil)
  | member key value =>
    rw [Directive.erase, directiveEffect, directiveEffect, memberEffect, memberEffect]
    split
    · refine .bind Descriptor.erase (Directive.toOption_blockOf_erase _) fun body hb => ?_
      have hbody := Value.distinctKeys_of_block? hd (Directive.blockOf_eq_ok.1 hb)
      exact .performed [] (.cons ⟨hbody, rfl⟩ .nil)
    · rw [Value.literal?_erase]
      cases value.literal? with
      | none => exact .refused _ _
      | some l => exact .performed _ .nil

/-- A build goes along with one that finds nothing absent. -/
lemma lockstep_erase (seed : Seed) :
    Lockstep seed seed IsAbsent Erased fun _ _ => True where
  next _ _ _ _ _ _ _ := trivial
  skip step plan hi := by
    cases step with
    | entry id path key value =>
      refine ⟨rfl, ?_⟩
      rw [effect]
      exact if_pos hi
    | mixin host path name value =>
      refine ⟨rfl, ?_⟩
      rw [effect]
      exact if_pos hi
    | _ => exact hi.elim
  alike step step' rest plan hs _ := by
    obtain ⟨hd, rfl⟩ := hs
    cases step with
    | entry id path key value =>
      refine ⟨rfl, ?_⟩
      rw [erase, effect, effect, Value.isAbsent_erase]
      split
      · exact .performed [] .nil
      · exact .bind Directive.erase (Directive.toOption_classify_erase hd _ _) fun d hc =>
          directiveEffect_erase (Directive.distinctKeys_of_classify hd hc)
    | keyframes host rule =>
      refine ⟨rfl, ?_⟩
      rw [erase, effect, effect, Keyframes.css_erase]
      exact .bind_same rfl fun text _ => .performed _ .nil
    | override id mapping =>
      refine ⟨rfl, ?_⟩
      rw [erase, effect, effect, Declaration.textOf_erase]
      exact .bind_same rfl fun text _ => .performed _ .nil
    | mixin host path name value =>
      refine ⟨rfl, ?_⟩
      rw [erase, effect, effect, Value.isAbsent_erase]
      split
      · exact .performed [] .nil
      · refine .bind Descriptor.erase (Directive.toOption_blockOf_erase _) fun body hb => ?_
        have hbody := Value.distinctKeys_of_block? hd (Directive.blockOf_eq_ok.1 hb)
        exact .performed [] (.cons ⟨hbody, rfl⟩ .nil)
    | query host selector path q => exact ⟨rfl, .performed [] (.cons ⟨hd, rfl⟩ .nil)⟩
    | scope r path body => exact ⟨rfl, .performed [] (follows_ofBody_erase hd _ path)⟩

end Step

namespace Plan

/-- **Absent values are invisible**: built into any scope of any plan, under any seed, a descriptor
without a key twice and the same descriptor without all that is absent in it are both built or both
refused, and they leave the same plan behind. -/
theorem sameOutcome_build_erase {d : Descriptor} (hd : d.distinctKeys = true) (plan : Plan)
    (target : Nat) (seed : Seed) :
    ((∃ final, plan.build target d seed = .ok final)
        ↔ ∃ final, plan.build target d.erase seed = .ok final)
      ∧ left (plan.build target d seed) = left (plan.build target d.erase seed) := by
  have hsame : SameOutcome (plan.build target d seed) (plan.build target d.erase seed) :=
    (Step.lockstep_erase seed).sameOutcome (Step.follows_ofBody_erase hd target _) trivial
  exact ⟨hsame.exists_ok_iff, hsame.left_eq⟩

/-- A descriptor with absent entries, features and items, that is refused at its last rule. -/
def sparse : Descriptor :=
  ⟨[("note", .absent),
    ("page", .block [("color", .absent), ("margin", .literal (.text "0")),
      ("media", .list [.absent, .block [("print", .literal (.text "")), ("screen", .absent),
        ("css", .block [("color", .literal (.text "black")), ("mixins", .absent)])]])]),
    ("keyframes", .list [.absent, .block [("name", .literal (.text "fade")),
      ("steps", .list [.block [("percentage", .absent), ("from", .block [("top", .absent)]),
        ("to", .block [])]])]]),
    ("tile", .block [("overrides", .list [.absent]), ("hover", .block [("color", .absent)])])]⟩

/-- A build that is refused on its way, with absent values all over. -/
theorem sameOutcome_build_erase_sparse :
    sparse.distinctKeys = true
      ∧ ((∃ final, empty.build 0 sparse (.keyed "app") = .ok final)
        ↔ ∃ final, empty.build 0 sparse.erase (.keyed "app") = .ok final)
      ∧ left (empty.build 0 sparse (.keyed "app"))
        = left (empty.build 0 sparse.erase (.keyed "app"))
      ∧ (left (empty.build 0 sparse.erase (.keyed "app"))).size = 5 := by
  have hd : sparse.distinctKeys = true := by decide +kernel
  obtain ⟨hiff, hleft⟩ := sameOutcome_build_erase hd empty 0 (.keyed "app")
  exact ⟨hd, hiff, hleft, by decide +kernel⟩

end Plan

end Stylesheet
