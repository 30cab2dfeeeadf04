/-
Declarations of media blocks.

A media block writes no declarations of its own. Scopes answer to their fragments, whatever kind is
asked for, so that a mixin or a body under `&` that is named like the prelude of a media block is
built into the block, and its declarations are not written.

* `Plan.BareMedia`: no media block has declarations;
* `Plan.mediaBodies`: the bodies that a build opens in media blocks;
* `Plan.bareMedia_iff`: media blocks are bare, and all declarations are written, exactly if no such
  body has declarations of its own.
-/
import Stylesheet.Proofs.Build.Opened
import Stylesheet.Proofs.Refinement

namespace Stylesheet

/-- The body that a step opens in a media block, with the request that the block answers. -/
def Step.mediaBody? (plan : Plan) : Step → Option (Plan.Request × Descriptor)
  | .scope r _ body =>
    if (plan.enter r).kind? (plan.answer r) = some .media then some (r, body) else none
  | _ => none

namespace Plan

open scoped List

variable {seed : Seed} {plan : Plan} {d : Descriptor}

/-- No media block of a plan has declarations. -/
def BareMedia (plan : Plan) : Prop :=
  ∀ s ∈ plan.scopes, s.kind = .media → s.declarations = []

/-- The bodies that the build of a descriptor opens in media blocks, each with the request that the
block answers. -/
def mediaBodies (d : Descriptor) (seed : Seed) : List (Request × Descriptor) :=
  (trace seed (Step.ofBody 0 "" d) empty).filterMap fun e => e.2.mediaBody? e.1

lemma mem_mediaBodies {r : Request} {body : Descriptor} :
    (r, body) ∈ mediaBodies d seed ↔
      ∃ p path, (p, .scope r path body) ∈ trace seed (Step.ofBody 0 "" d) empty
        ∧ (p.enter r).kind? (p.answer r) = some .media := by
  rw [mediaBodies, List.mem_filterMap]
  constructor
  · rintro ⟨⟨p, step⟩, he, hb⟩
    cases step with
    | scope r' path body' =>
      rw [Step.mediaBody?] at hb
      split at hb
      · rename_i hk
        cases hb
        exact ⟨p, path, he, hk⟩
      · cases hb
    | _ => cases hb
  · rintro ⟨p, path, he, hk⟩
    refine ⟨_, he, ?_⟩
    rw [Step.mediaBody?, if_pos hk]

lemma bareMedia_iff_declarations :
    plan.BareMedia ↔ ∀ id, plan.kind? id = some .media → plan.declarations id = [] := by
  constructor
  · intro hb id hk
    obtain ⟨s, hs, hm⟩ := Option.map_eq_some_iff.1 hk
    rw [declarations_of_scope? hs]
    exact hb s (List.mem_of_getElem? hs) hm
  · intro hb s hs hm
    obtain ⟨id, hid⟩ := List.getElem?_of_mem hs
    rw [← declarations_of_scope? hid]
    exact hb id (hm ▸ kind?_of_scope? hid)

/-! ### What is opened in media blocks -/

/-- A body is opened in a media block only for a mixin or under `&`, at the root, and under the name
of a prelude. -/
lemma request_of_mem_mediaBodies {b : Request × Descriptor} (hb : b ∈ mediaBodies d seed) :
    b.1.host = 0 ∧ (b.1.kind = .mixin ∨ b.1.kind = .nested)
      ∧ ∃ q : MediaQuery, b.1.fragment = q.target := by
  obtain ⟨r, body⟩ := b
  obtain ⟨p, path, he, hk⟩ := mem_mediaBodies.1 hb
  obtain ⟨rest, ho⟩ := Orderly.of_mem_trace (.build d) he
  exact ho.answered_by_media hk

/-- Media blocks are bare exactly if no body that was opened in them has declarations of its own. -/
lemma bareMedia_iff_mediaBodies (h : ofDescriptor d seed = .ok plan) :
    plan.BareMedia ↔ ∀ b ∈ mediaBodies d seed, b.2.ownTexts = [] := by
  have hrun := ofDescriptor_eq_ok.1 h
  obtain ⟨hrooted, _⟩ := journalOf_lands h False.elim
  have hroot : ∀ {id}, plan.kind? id = some .media → id ≠ 0 := by
    rintro id hk rfl
    rw [hrooted.kind?_eq_global.2 rfl] at hk
    cases hk
  -- a scope keeps the kind that it had when a body was opened in it
  have hkind : ∀ {p r path body},
      (p, .scope r path body) ∈ trace seed (Step.ofBody 0 "" d) empty →
        plan.kind? (p.answer r) = (p.enter r).kind? (p.answer r) := by
    intro p r path body he
    obtain ⟨rest, ho⟩ := Orderly.of_mem_trace (.build d) he
    exact (extends_of_mem_trace he hrun).kind? (ho.rooted.wellFormed.answer_lt r)
  rw [bareMedia_iff_declarations]
  constructor
  · rintro hb ⟨r, body⟩ hm
    obtain ⟨p, path, he, hk⟩ := mem_mediaBodies.1 hm
    rw [← hkind he] at hk
    have hperm := declarations_perm_opened h (hroot hk)
    rw [hb _ hk] at hperm
    have hopened := List.flatMap_eq_nil_iff.1 hperm.nil_eq.symm _ he
    rwa [Step.openedAt, if_pos rfl] at hopened
  · intro hb id hk
    have hperm := declarations_perm_opened h (hroot hk)
    have hnone : ((trace seed (Step.ofBody 0 "" d) empty).flatMap
        fun e => e.2.openedAt id e.1) = [] := by
      rw [List.flatMap_eq_nil_iff]
      rintro ⟨p, step⟩ he
      cases step with
      | scope r path body =>
        rw [Step.openedAt]
        split
        · rename_i hid
          refine hb _ (mem_mediaBodies.2 ⟨p, path, he, ?_⟩)
          rwa [← hkind he, hid]
        · rfl
      | _ => rfl
    rw [hnone] at hperm
    exact hperm.eq_nil

/-! ### What is written -/

/-- The texts that are written are the declarations of the scopes that are no media blocks. -/
lemma map_text_written (hw : plan.WellFormed) :
    plan.written.map Contribution.text = (plan.visited 0).flatMap fun id =>
      if (plan.context id).kind = .media then [] else plan.declarations id := by
  rw [hw.written_eq, List.map_flatMap]
  refine List.flatMap_congr fun id _ => ?_
  split
  · rfl
  · simp [Function.comp_def]

/-- The declarations of media blocks are what is missing in the stylesheet. -/
lemma declarations_perm_written (hw : plan.WellFormed) :
    (plan.scopes.flatMap (·.declarations)).Perm
      (plan.written.map Contribution.text ++ (plan.visited 0).flatMap fun id =>
        if (plan.context id).kind = .media then plan.declarations id else []) := by
  have hsplit : ∀ id, plan.declarations id
      = (if (plan.context id).kind = .media then [] else plan.declarations id)
        ++ if (plan.context id).kind = .media then plan.declarations id else [] := by
    intro id
    split <;> simp
  calc plan.scopes.flatMap (·.declarations)
    _ = (List.range plan.size).flatMap plan.declarations := by
        rw [List.flatMap_def, map_declarations_scopes, ← List.flatMap_def]
    _ ~ (plan.visited 0).flatMap plan.declarations :=
        (hw.visited_perm.flatMap_right _).symm
    _ = (plan.visited 0).flatMap fun id =>
          (if (plan.context id).kind = .media then [] else plan.declarations id)
            ++ if (plan.context id).kind = .media then plan.declarations id else [] :=
        List.flatMap_congr fun id _ => hsplit id
    _ ~ _ := (List.flatMap_append_perm _ _ _).symm
    _ = _ := by rw [map_text_written hw]

/-- Every declaration is written exactly if media blocks are bare. -/
lemma written_perm_iff_bareMedia (hw : plan.WellFormed) :
    (plan.written.map Contribution.text).Perm (plan.scopes.flatMap (·.declarations))
      ↔ plan.BareMedia := by
  have hperm := declarations_perm_written hw
  have hkind : ∀ {id}, id < plan.size →
      ((plan.context id).kind = .media ↔ plan.kind? id = some .media) := by
    intro id hid
    obtain ⟨kind, _, hk, _⟩ := exists_kind_fragment hid
    rw [context, hk, Option.getD_some, Option.some.injEq]
  rw [bareMedia_iff_declarations]
  constructor
  · intro h id hk
    have hlen := (h.trans hperm).length_eq
    rw [List.length_append, Nat.left_eq_add, List.length_eq_zero_iff, List.flatMap_eq_nil_iff]
      at hlen
    have hid := lt_size_of_kind? hk
    have hd := hlen id (hw.visited_perm.mem_iff.2 (List.mem_range.2 hid))
    rwa [if_pos ((hkind hid).2 hk)] at hd
  · intro hb
    have hnone : ((plan.visited 0).flatMap fun id =>
        if (plan.context id).kind = .media then plan.declarations id else []) = [] := by
      rw [List.flatMap_eq_nil_iff]
      intro id hid
      split
      · rename_i hm
        have hlt := ((hw.mem_visited hw.size_pos).1 hid).1
        exact hb id ((hkind hlt).1 hm)
      · rfl
    rw [hnone, List.append_nil] at hperm
    exact hperm.symm

/-- **Bare media blocks**: the media blocks of a descriptor that has been built are bare, and all
its declarations are written, exactly if no body with declarations of its own was opened in one of
them. Such a body stands at the root, as a mixin or under `&`, under the name of a prelude. -/
theorem bareMedia_iff (h : ofDescriptor d seed = .ok plan) :
    (plan.BareMedia ↔ ∀ b ∈ mediaBodies d seed, b.2.ownTexts = [])
      ∧ ((plan.written.map Contribution.text).Perm (plan.scopes.flatMap (·.declarations))
          ↔ ∀ b ∈ mediaBodies d seed, b.2.ownTexts = [])
      ∧ ∀ b ∈ mediaBodies d seed, b.1.host = 0 ∧ (b.1.kind = .mixin ∨ b.1.kind = .nested)
          ∧ ∃ q : MediaQuery, b.1.fragment = q.target := by
  obtain ⟨hrooted, _⟩ := journalOf_lands h False.elim
  have hbare := bareMedia_iff_mediaBodies h
  exact ⟨hbare, (written_perm_iff_bareMedia hrooted.wellFormed).trans hbare,
    fun b hb => request_of_mem_mediaBodies hb⟩

instance (plan : Plan) : Decidable plan.BareMedia :=
  inferInstanceAs (Decidable (∀ s ∈ plan.scopes, s.kind = .media → s.declarations = []))

/-- A rule with a media block, and a mixin that is named like the prelude of the block. -/
def mixinLikePrelude : Descriptor :=
  ⟨[("a", .block [("media", .list [.block [("print", .literal (.text "")),
      ("css", .block [("color", .literal (.text "red"))])]])]),
    ("mixins", .block [("@media (print)", .block [("margin", .literal (.text "0"))])])]⟩

/-- The exact condition at a mixin that is named like a prelude. -/
theorem bareMedia_iff_mixinLikePrelude :
    ∃ plan, ofDescriptor mixinLikePrelude .identity = .ok plan
      ∧ (plan.BareMedia ↔ ∀ b ∈ mediaBodies mixinLikePrelude .identity, b.2.ownTexts = [])
      ∧ ((plan.written.map Contribution.text).Perm (plan.scopes.flatMap (·.declarations))
          ↔ ∀ b ∈ mediaBodies mixinLikePrelude .identity, b.2.ownTexts = [])
      ∧ ∀ b ∈ mediaBodies mixinLikePrelude .identity, b.1.host = 0
          ∧ (b.1.kind = .mixin ∨ b.1.kind = .nested)
          ∧ ∃ q : MediaQuery, b.1.fragment = q.target := by
  obtain ⟨plan, h, _⟩ : ∃ plan, ofDescriptor mixinLikePrelude .identity = .ok plan ∧ _ :=
    exists_ok_of_any (p := fun plan => plan.size = 4) (by decide +kernel)
  exact ⟨plan, h, bareMedia_iff h⟩

/-- A media block is not bare where a mixin is named like its prelude, and the declaration of the
mixin is not written. -/
theorem not_bareMedia_mixinLikePrelude :
    ∃ plan, ofDescriptor mixinLikePrelude .identity = .ok plan ∧ ¬ plan.BareMedia
      ∧ plan.css = "@media (print)\x7b.a \x7bcolor:red\x7d\x7d" := by
  obtain ⟨plan, h, hp⟩ := exists_ok_of_any (x := ofDescriptor mixinLikePrelude .identity)
    (p := fun plan => ¬ plan.BareMedia ∧ plan.css = "@media (print)\x7b.a \x7bcolor:red\x7d\x7d")
    (by decide +kernel)
  exact ⟨plan, h, of_decide_eq_true hp⟩

end Plan

end Stylesheet
