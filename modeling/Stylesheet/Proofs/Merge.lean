/-
Stylesheets that are merged.

* `Plan.written_perm_journalOf`: the stylesheet of a descriptor has what was declared in scopes that
  are no media blocks;
* `Plan.exists_merge`: where kinds agree, the stylesheet of merged descriptors has what those of the
  two have.

Scopes answer to their fragments. A rule of one descriptor and a mixin of the other that have one
selector are built into one scope, and the kind of the first decides how the second goes on.
-/
import Stylesheet.Proofs.Build.SideBySide
import Stylesheet.Proofs.InsertionOrder
import Stylesheet.Proofs.Refinement

namespace Stylesheet

namespace Plan

open scoped List

variable {seed : Seed} {plan later : Plan} {d : Descriptor}

/-! ### What a journal writes -/

/-- What a declaration adds to the stylesheet of a plan, if it is made in no media block. -/
def writtenOf (plan : Plan) (w : Nat × String) : List Contribution :=
  if (plan.context w.1).kind = .media then [] else [plan.contribution w]

lemma writtenOf_eq {w w' : Nat × String} (hc : later.context w'.1 = plan.context w.1)
    (ht : w'.2 = w.2) : later.writtenOf w' = plan.writtenOf w := by
  rw [writtenOf, contribution, hc, ht, writtenOf, contribution]

/-- The stylesheet of a descriptor has what was declared in scopes that are no media blocks. -/
lemma written_perm_journalOf (h : ofDescriptor d seed = .ok plan) :
    plan.written.Perm ((journalOf d seed).flatMap plan.writtenOf) := by
  have hw := (Orderly.of_ofDescriptor h).rooted.wellFormed
  have hvisited : ∀ w ∈ journalOf d seed, w.1 ∈ plan.visited 0 := fun w hm =>
    hw.visited_perm.mem_iff.2 (List.mem_range.2 (lt_size_of_mem_journalOf h hm))
  have hscope : ∀ id, (if (plan.context id).kind = .media then []
      else (plan.declarations id).map (plan.context id).contribute)
        = ((journalOf d seed).filter fun w => w.1 = id).flatMap plan.writtenOf := by
    intro id
    have hid : ∀ w ∈ (journalOf d seed).filter fun w => w.1 = id, w.1 = id := fun w hm =>
      of_decide_eq_true (List.mem_filter.1 hm).2
    rw [map_contribute_declarations h]
    split
    · rename_i hk
      rw [eq_comm, List.flatMap_eq_nil_iff]
      exact fun w hm => if_pos (hid w hm ▸ hk)
    · rename_i hk
      rw [List.map_eq_flatMap]
      refine List.flatMap_congr fun w hm => ?_
      rw [writtenOf, if_neg (hid w hm ▸ hk)]
  calc plan.written
    _ = ((plan.visited 0).flatMap fun id => (journalOf d seed).filter fun w => w.1 = id).flatMap
          plan.writtenOf := by
        rw [hw.written_eq, List.flatMap_assoc]
        exact List.flatMap_congr fun id _ => hscope id
    _ ~ ((journalOf d seed).filter fun w => w.1 ∈ plan.visited 0).flatMap plan.writtenOf :=
        (perm_gathered (hw.nodup_visited hw.size_pos) _).flatMap_right _
    _ = (journalOf d seed).flatMap plan.writtenOf := by
        rw [List.filter_eq_self.2 fun w hm => decide_eq_true (hvisited w hm)]

/-! ### Merged stylesheets -/

/-- **Merged stylesheets**: if two descriptors without common keys are built, and scopes of the same
path in their plans are of the same kind, then the merged descriptor is built, and its stylesheet
has what the stylesheets of the two have, each of it once. -/
theorem exists_merge {d₁ d₂ : Descriptor} {p₁ p₂ : Plan} (hn : d₂.keys.Nodup)
    (hd : ∀ key ∈ d₂.keys, key ∉ d₁.keys) (h₁ : ofDescriptor d₁ seed = .ok p₁)
    (h₂ : ofDescriptor d₂ seed = .ok p₂) (hk : KindsAgree p₁ p₂) :
    ∃ plan, ofDescriptor (d₁.merge d₂) seed = .ok plan
      ∧ plan.written.Perm (p₁.written ++ p₂.written) := by
  have hrooted := (Orderly.of_ofDescriptor h₁).rooted
  have hrun₁ := ofDescriptor_eq_ok.1 h₁
  have hrun₂ := ofDescriptor_eq_ok.1 h₂
  have hbody : Step.ofBody 0 "" (d₁.merge d₂) = Step.ofBody 0 "" d₁ ++ Step.ofBody 0 "" d₂ := by
    rw [Descriptor.merge_of_disjoint hn hd]
    exact List.map_append
  -- the second descriptor is built on the plan of the first as it is built on its own
  obtain ⟨plan, hrun, hjournal⟩ :=
    (SideBySide.start hrooted).exists_run hk (.build d₂)
      (Step.matches_ofBody (.root rooted_empty hrooted) "" d₂) hrun₂
  have h : ofDescriptor (d₁.merge d₂) seed = .ok plan := by
    rw [ofDescriptor_eq_ok, hbody, run_append hrun₁, hrun]
  have hsplit : journalOf (d₁.merge d₂) seed
      = journalOf d₁ seed ++ journal seed (Step.ofBody 0 "" d₂) p₁ := by
    rw [journalOf, hbody, journal_append hrun₁, journalOf]
  have hw := (Orderly.of_ofDescriptor h).rooted.wellFormed
  have hw₂ := (Orderly.of_ofDescriptor h₂).rooted.wellFormed
  have hfirst : (journalOf d₁ seed).flatMap plan.writtenOf
      = (journalOf d₁ seed).flatMap p₁.writtenOf := by
    refine List.flatMap_congr fun w hm => writtenOf_eq ?_ rfl
    exact (extends_of_run hrun).context (lt_size_of_mem_journalOf h₁ hm)
  have hsecond : (journal seed (Step.ofBody 0 "" d₂) p₁).flatMap plan.writtenOf
      = (journalOf d₂ seed).flatMap p₂.writtenOf := by
    rw [List.flatMap_def, List.flatMap_def]
    refine congrArg List.flatten ?_
    rw [← List.forall₂_eq_eq_eq, List.forall₂_map_left_iff, List.forall₂_map_right_iff]
    exact (hjournal.imp fun w w' hm => writtenOf_eq (hm.1.context hw₂ hw) hm.2).flip
  refine ⟨plan, h, ?_⟩
  calc plan.written
    _ ~ (journalOf (d₁.merge d₂) seed).flatMap plan.writtenOf := written_perm_journalOf h
    _ = (journalOf d₁ seed).flatMap p₁.writtenOf ++ (journalOf d₂ seed).flatMap p₂.writtenOf := by
        rw [hsplit, List.flatMap_append, hfirst, hsecond]
    _ ~ p₁.written ++ p₂.written :=
        (written_perm_journalOf h₁).symm.append (written_perm_journalOf h₂).symm

/-- A rule with a media block and a mixin. -/
def header : Descriptor :=
  ⟨[("header", .block [("color", .literal (.text "red")),
    ("media", .list [.block [("print", .literal (.text "")),
      ("css", .block [("color", .literal (.text "black"))])]]),
    ("mixins", .block [("a", .block [("top", .literal (.text "0"))])])])]⟩

/-- Another rule with the same media block and the same mixin. -/
def footer : Descriptor :=
  ⟨[("footer", .block [
    ("media", .list [.block [("print", .literal (.text "")),
      ("css", .block [("color", .literal (.text "gray"))])]]),
    ("mixins", .block [("a", .block [("left", .literal (.text "0"))])])])]⟩

/-- Rules that share a media block and a mixin are merged. -/
theorem exists_merge_header_footer :
    ∃ p₁ p₂ plan, ofDescriptor header .identity = .ok p₁ ∧ ofDescriptor footer .identity = .ok p₂
      ∧ KindsAgree p₁ p₂ ∧ ofDescriptor (header.merge footer) .identity = .ok plan
      ∧ plan.written.Perm (p₁.written ++ p₂.written) := by
  obtain ⟨p₁, h₁, hp⟩ := exists_ok_of_any (x := ofDescriptor header .identity)
    (p := fun p => (ofDescriptor footer .identity).toOption.any fun q => KindsAgree p q)
    (by decide +kernel)
  obtain ⟨p₂, h₂, hk⟩ := exists_ok_of_any hp
  have hkinds : KindsAgree p₁ p₂ := of_decide_eq_true hk
  obtain ⟨plan, h, hperm⟩ := exists_merge (by decide) (by decide) h₁ h₂ hkinds
  exact ⟨p₁, p₂, plan, h₁, h₂, hkinds, h, hperm⟩

/-- A rule. -/
def plainRule : Descriptor :=
  ⟨[("a", .block [("color", .literal (.text "red"))])]⟩

/-- A mixin with the selector of the rule, and a mixin in it. -/
def mixinLikeRule : Descriptor :=
  ⟨[("mixins", .block [(".a", .block [
    ("mixins", .block [(":hover", .block [("color", .literal (.text "blue"))])])])])]⟩

/-- Where kinds differ, the stylesheet of merged descriptors can have other selectors than those of
the two: a mixin that is built into a rule does not hand its selector on. -/
theorem not_perm_merge_mixinLikeRule :
    mixinLikeRule.keys.Nodup ∧ (∀ key ∈ mixinLikeRule.keys, key ∉ plainRule.keys)
      ∧ ∃ p₁ p₂ plan, ofDescriptor plainRule .identity = .ok p₁
        ∧ ofDescriptor mixinLikeRule .identity = .ok p₂
        ∧ ofDescriptor (plainRule.merge mixinLikeRule) .identity = .ok plan
        ∧ ¬ plan.written.Perm (p₁.written ++ p₂.written)
        ∧ p₂.css = ".a:hover \x7bcolor:blue\x7d"
        ∧ plan.css = ".a \x7bcolor:red\x7d:hover \x7bcolor:blue\x7d" := by
  obtain ⟨p₁, h₁, hp⟩ := exists_ok_of_any (x := ofDescriptor plainRule .identity)
    (p := fun p₁ => (ofDescriptor mixinLikeRule .identity).toOption.any fun p₂ =>
      (ofDescriptor (plainRule.merge mixinLikeRule) .identity).toOption.any fun plan =>
        ¬ plan.written.Perm (p₁.written ++ p₂.written)
          ∧ p₂.css = ".a:hover \x7bcolor:blue\x7d"
          ∧ plan.css = ".a \x7bcolor:red\x7d:hover \x7bcolor:blue\x7d")
    (by decide +kernel)
  obtain ⟨p₂, h₂, hp⟩ := exists_ok_of_any hp
  obtain ⟨plan, h, hp⟩ := exists_ok_of_any hp
  exact ⟨by decide, by decide, p₁, p₂, plan, h₁, h₂, h, of_decide_eq_true hp⟩

end Plan

end Stylesheet
