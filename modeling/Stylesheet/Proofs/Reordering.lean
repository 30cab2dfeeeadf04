/-
Builds of descriptors whose media queries have their entries in another order.

* `Step.Reordered`: two steps that do the same, up to the order of queries in their bodies;
* `Step.forall₂_ofBody`, `forall₂_ofQueries_reordered`: the steps of reordered bodies and queries;
* `Step.lockstep_reordered`: two builds of such steps go along;
* `Plan.reordered_build`: whatever the plan, its scope and the seed, a descriptor is built as it is
  built with the entries of its media queries in another order.

Keys have to be distinct in every mapping, or the order of two bodies of one query would decide
which of them is built. Descriptors that are read from texts, or put together by insertions, have no
key twice.
-/
import Stylesheet.Proofs.Build.Lockstep
import Stylesheet.Proofs.Payload.Reordering
import Stylesheet.Sheet

namespace Stylesheet

namespace Step

/-- Two steps that do the same, up to the order of queries in their bodies. -/
inductive Reordered : Step → Step → Prop where
  | entry {key : String} {v w : Value} (id : Nat) (path : String) (hd : v.distinctKeys = true)
      (h : EntryReordered (key, v) (key, w)) :
      Reordered (.entry id path key v) (.entry id path key w)
  | keyframes {rule rule' : Keyframes} (host : Nat) (h : rule'.css = rule.css) :
      Reordered (.keyframes host rule) (.keyframes host rule')
  | override {m m' : Descriptor} (id : Nat) (h : Declaration.textOf m' = Declaration.textOf m) :
      Reordered (.override id m) (.override id m')
  | mixin {name : String} {v w : Value} (host : Nat) (path : String) (hd : v.distinctKeys = true)
      (h : EntryReordered (name, v) (name, w)) :
      Reordered (.mixin host path name v) (.mixin host path name w)
  | query {q q' : MediaQuery} (host : Nat) (selector path : String) (h : q.Reordered q') :
      Reordered (.query host selector path q) (.query host selector path q')
  | scope {body body' : Descriptor} (r : Plan.Request) (path : String)
      (hd : body.distinctKeys = true) (h : body.Reordered body') :
      Reordered (.scope r path body) (.scope r path body')

variable {seed : Seed} {plan : Plan} {id : Nat} {path : String} {agenda agenda' : List Step}
  {idle : Step → Prop} {R : Step → Step → Prop}

/-! ### Agendas -/

lemma Follows.of_forall₂ (h : List.Forall₂ R agenda agenda') : Follows idle R agenda agenda' := by
  induction h with
  | nil => exact .nil
  | cons hs _ ih => exact .cons hs ih

/-- The steps of reordered entries are reordered. -/
lemma forall₂_entries {f : String → Value → Step}
    (hf : ∀ key v w, v.distinctKeys = true → EntryReordered (key, v) (key, w) →
      Reordered (f key v) (f key w)) {body body' : Descriptor} (hd : body.distinctKeys = true)
    (h : body.Reordered body') :
    List.Forall₂ Reordered (body.entries.map fun e => f e.1 e.2)
      (body'.entries.map fun e => f e.1 e.2) := by
  obtain ⟨entries⟩ := body
  obtain ⟨entries'⟩ := body'
  have hvalues := (Descriptor.distinctKeys_iff.1 hd).2
  clear hd
  change List.Forall₂ EntryReordered entries entries' at h
  induction h with
  | nil => exact .nil
  | @cons e e' _ _ he _ ih =>
    obtain ⟨hv, hrest⟩ := List.forall_mem_cons.1 hvalues
    obtain ⟨key, v⟩ := e
    obtain ⟨key', w⟩ := e'
    obtain rfl : key' = key := he.fst_eq
    exact .cons (hf key' v w hv he) (ih hrest)

lemma forall₂_ofBody {body body' : Descriptor} (hd : body.distinctKeys = true)
    (h : body.Reordered body') (id : Nat) (path : String) :
    List.Forall₂ Reordered (ofBody id path body) (ofBody id path body') :=
  forall₂_entries (f := .entry id path) (fun _ _ _ hv he => .entry id path hv he) hd h

lemma forall₂_ofQueries_reordered {queries queries' : List MediaQuery}
    (h : List.Forall₂ MediaQuery.Reordered queries queries') (host i : Nat)
    (selector path : String) :
    List.Forall₂ Reordered (ofQueries host selector path i queries)
      (ofQueries host selector path i queries') := by
  induction h generalizing i with
  | nil => exact .nil
  | cons hq _ ih => exact .cons (.query host selector _ hq) (ih (i + 1))

/-! ### Effects -/

/-- Effects that start with two computations that come to results together are alike, if they go on
alike from there. -/
lemma EffectsAlike.bind_together {α β : Type} {S : α → β → Prop} {x : Except CompileError α}
    {y : Except CompileError β} (hxy : Together S x y) {f : α → Except CompileError Effect}
    {g : β → Except CompileError Effect} (h : ∀ a b, S a b → EffectsAlike idle R (f a) (g b)) :
    EffectsAlike idle R (x >>= f) (y >>= g) := by
  cases hxy with
  | refused e e' => exact .refused e e'
  | done hab => exact h _ _ hab

lemma directiveEffect_reordered {d d' : Directive} (h : d.Reordered d') :
    EffectsAlike NoIdle Reordered (directiveEffect seed plan id path d)
      (directiveEffect seed plan id path d') := by
  cases h with
  | atRules rules => exact .bind_same rfl fun host _ => .performed _ .nil
  | keyframes hr =>
    refine .bind_same rfl fun host _ => .performed [] (.of_forall₂ ?_)
    rw [List.forall₂_map_left_iff, List.forall₂_map_right_iff]
    exact hr.imp fun _ _ => .keyframes host
  | mixins hd hb =>
    refine .bind_same rfl fun host _ => .performed [] (.of_forall₂ ?_)
    exact forall₂_entries (f := .mixin host path) (fun _ _ _ hv he => .mixin host path hv he) hd hb
  | media hq =>
    exact .bind_same rfl fun host _ =>
      .performed [] (.of_forall₂ (forall₂_ofQueries_reordered hq host 0 _ path))
  | overrides hm =>
    refine .performed [] (.of_forall₂ ?_)
    rw [List.forall₂_map_left_iff, List.forall₂_map_right_iff]
    exact hm.imp fun _ _ => .override id
  | nested suffix hd hb => exact .performed [] (.cons (.scope _ path hd hb) .nil)
  | @member value value' key hd hv =>
    rw [directiveEffect, directiveEffect, memberEffect, memberEffect, hv.literal?_eq]
    split
    · have he : EntryReordered (key, value) (key, value') := .value hv
      exact .bind_together (Directive.together_blockOf hd he key _) fun _ _ hb =>
        .performed [] (.cons (.scope _ path hb.1 hb.2) .nil)
    · cases value.literal? with
      | none => exact .refused _ _
      | some l => exact .performed _ .nil

/-- Two builds of reordered steps go along. -/
lemma lockstep_reordered (seed : Seed) :
    Lockstep seed seed NoIdle Reordered fun _ _ => True where
  next _ _ _ _ _ _ _ := trivial
  skip _ _ hi := hi.elim
  alike step step' rest plan hs _ := by
    cases hs with
    | entry id path hd he =>
      refine ⟨rfl, ?_⟩
      have habsent := he.isAbsent_eq
      dsimp only at habsent
      rw [effect, effect, habsent]
      split
      · exact .performed [] .nil
      · exact .bind_together (Directive.together_classify hd he _) fun _ _ =>
          directiveEffect_reordered
    | keyframes host hr =>
      refine ⟨rfl, ?_⟩
      rw [effect, effect, hr]
      exact .bind_same rfl fun text _ => .performed _ .nil
    | override id hm =>
      refine ⟨rfl, ?_⟩
      rw [effect, effect, hm]
      exact .bind_same rfl fun text _ => .performed _ .nil
    | mixin host path hd he =>
      refine ⟨rfl, ?_⟩
      have habsent := he.isAbsent_eq
      dsimp only at habsent
      rw [effect, effect, habsent]
      split
      · exact .performed [] .nil
      · exact .bind_together (Directive.together_blockOf hd he _ _) fun _ _ hb =>
          .performed [] (.cons (.scope _ _ hb.1 hb.2) .nil)
    | query host selector path hq =>
      obtain ⟨htarget, hd, hb⟩ := hq
      rw [effect, effect, request?, request?, htarget]
      exact ⟨rfl, .performed [] (.cons (.scope _ path hd hb) .nil)⟩
    | scope r path hd hb =>
      exact ⟨rfl, .performed [] (.of_forall₂ (forall₂_ofBody hd hb _ path))⟩

end Step

namespace Plan

variable {d d' : Descriptor}

/-- Two reordered descriptors have the same outcome. -/
lemma sameOutcome_build_reordered (hd : d.distinctKeys = true) (h : d.Reordered d') (plan : Plan)
    (target : Nat) (seed : Seed) :
    SameOutcome (plan.build target d seed) (plan.build target d' seed) :=
  (Step.lockstep_reordered seed).sameOutcome (.of_forall₂ (Step.forall₂_ofBody hd h target _))
    trivial

/-- **Order in media queries**: put the entries of any of its media queries in another order, at any
depth, and a descriptor is built into the same plan, or refused as before, whatever the seed is; it
has the same stylesheet. So it is for builds into any scope of any plan, also as to what they leave
behind. -/
theorem reordered_build (hd : d.distinctKeys = true) (h : d.Reordered d') :
    (∀ seed plan, ofDescriptor d seed = .ok plan ↔ ofDescriptor d' seed = .ok plan)
      ∧ (∀ seed css, (Sheet.mk d seed).css = .ok css ↔ (Sheet.mk d' seed).css = .ok css)
      ∧ ∀ (plan : Plan) (target : Nat) (seed : Seed),
          (∀ final, plan.build target d seed = .ok final
            ↔ plan.build target d' seed = .ok final)
          ∧ left (plan.build target d seed) = left (plan.build target d' seed) := by
  have hsame := fun plan target seed => sameOutcome_build_reordered hd h plan target seed
  have hplan : ∀ seed plan, ofDescriptor d seed = .ok plan ↔ ofDescriptor d' seed = .ok plan := by
    intro seed plan
    rw [ofDescriptor_eq_ok, ofDescriptor_eq_ok]
    exact (hsame empty 0 seed).eq_ok_iff
  refine ⟨hplan, fun seed css => ?_, fun plan target seed => ?_⟩
  · rw [Sheet.css, Sheet.css, bind_eq_ok, bind_eq_ok]
    exact exists_congr fun plan => and_congr_left' (hplan seed plan)
  · exact ⟨fun final => (hsame plan target seed).eq_ok_iff, (hsame plan target seed).left_eq⟩

/-- A rule with a media query, and a mixin in it with another one, by the entries of the two. -/
def twoQueries (outer inner : List (String × Value)) : Descriptor :=
  ⟨[("a", .block [("color", .literal (.text "red")), ("media", .list [.block outer]),
    ("mixins", .block [("nav", .block [("media", .list [.absent, .block inner])])])])]⟩

/-- A feature that is only named. -/
def printFeature : String × Value :=
  ("print", .literal (.text ""))

/-- A feature with a value. -/
def widthFeature : String × Value :=
  ("min-width", .literal (.text "9px"))

/-- A body with a rule under `&`. -/
def nestedBody : String × Value :=
  ("css", .block [("margin", .literal (.text "0")),
    ("& b", .block [("top", .literal (.text "0"))])])

/-- The queries are reordered with their entries. -/
lemma reordered_twoQueries {outer outer' inner inner' : List (String × Value)}
    (ho : outer.Perm outer') (hi : inner.Perm inner') :
    (twoQueries outer inner).Reordered (twoQueries outer' inner') := by
  have hmedia : EntryReordered ("media", .list [.block outer]) ("media", .list [.block outer']) :=
    .media rfl (.cons (.query (forall₂_entryReordered outer) ho) .nil)
  have hinner : EntryReordered ("media", .list [.absent, .block inner])
      ("media", .list [.absent, .block inner']) :=
    .media rfl (.cons (.value .absent) (.cons (.query (forall₂_entryReordered inner) hi) .nil))
  have hmixins : EntryReordered ("mixins", .block [("nav", .block [("media",
      .list [.absent, .block inner])])]) ("mixins", .block [("nav", .block [("media",
      .list [.absent, .block inner'])])]) :=
    .value (.block (.cons (.value (.block (.cons hinner .nil))) .nil))
  exact .cons (.value (.block (.cons (.value (.literal _)) (.cons hmedia (.cons hmixins .nil)))))
    .nil

/-- The stylesheet of two queries with one feature each. -/
def twoQueriesCss : String :=
  ".a \x7bcolor:red\x7d@media (print)\x7b.a \x7bmargin:0\x7d.a b \x7btop:0\x7d"
    ++ "nav \x7bmargin:0\x7dnav b \x7btop:0\x7d\x7d"

/-- Both queries have their entries in another order, with two features in the one and with the body
first or last: descriptors that are built together, and a stylesheet that is the same. -/
theorem reordered_build_twoQueries :
    (twoQueries [printFeature, nestedBody, widthFeature] [nestedBody, printFeature]).distinctKeys
        = true
      ∧ (twoQueries [printFeature, nestedBody, widthFeature] [nestedBody, printFeature]).Reordered
        (twoQueries [nestedBody, widthFeature, printFeature] [printFeature, nestedBody])
      ∧ (∀ seed plan,
        ofDescriptor (twoQueries [printFeature, nestedBody, widthFeature]
            [nestedBody, printFeature]) seed = .ok plan
          ↔ ofDescriptor (twoQueries [nestedBody, widthFeature, printFeature]
            [printFeature, nestedBody]) seed = .ok plan)
      ∧ (Sheet.mk (twoQueries [printFeature, nestedBody] [nestedBody, printFeature])
          .identity).css = .ok twoQueriesCss
      ∧ (Sheet.mk (twoQueries [nestedBody, printFeature] [printFeature, nestedBody])
          .identity).css = .ok twoQueriesCss := by
  have hswap : [printFeature, nestedBody].Perm [nestedBody, printFeature] := .swap _ _ []
  have htriple : [printFeature, nestedBody, widthFeature].Perm
      [nestedBody, widthFeature, printFeature] := .trans (.swap _ _ _) (.cons _ (.swap _ _ []))
  have hd : (twoQueries [printFeature, nestedBody, widthFeature]
      [nestedBody, printFeature]).distinctKeys = true := by decide +kernel
  have hd' : (twoQueries [printFeature, nestedBody] [nestedBody, printFeature]).distinctKeys
      = true := by decide +kernel
  have hcss : (Sheet.mk (twoQueries [printFeature, nestedBody] [nestedBody, printFeature])
      .identity).css = .ok twoQueriesCss := by decide +kernel
  have hreordered := reordered_twoQueries htriple hswap.symm
  have hreordered' := reordered_twoQueries hswap hswap.symm
  exact ⟨hd, hreordered, (reordered_build hd hreordered).1, hcss,
    ((reordered_build hd' hreordered').2.1 _ _).1 hcss⟩

end Plan

end Stylesheet
