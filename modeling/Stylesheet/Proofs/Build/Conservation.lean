/-
Builds lose nothing and make nothing up.

* `Descriptor.globalTexts`, `Descriptor.scopedTexts`: the texts of a descriptor for the stylesheet
  itself, and those for its rules, in the order of the source;
* `Plan.perm_gathered`: declarations gathered scope by scope are those that were made;
* `Plan.conserves_texts`: a finished build puts the former in the root and the latter in the other
  scopes, each of them once and in order.
-/
import Mathlib.Data.List.Perm.Basic
import Stylesheet.Proofs.Build.Reading

namespace Stylesheet

/-- The texts of a descriptor for the stylesheet itself: at-rules, keyframes rules, and overrides of
the descriptor as a whole. -/
def Descriptor.globalTexts (d : Descriptor) (seed : Seed) : List String :=
  ((d.meaning seed).filter fun m => m.isRaw).map Contribution.text

/-- The texts of a descriptor for its rules: literal members and overrides of all bodies in it. -/
def Descriptor.scopedTexts (d : Descriptor) (seed : Seed) : List String :=
  ((d.meaning seed).filter fun m => !m.isRaw).map Contribution.text

namespace Plan

variable {seed : Seed} {kept : Prop} {plan : Plan} {d : Descriptor}
  {writes : List (Nat × String)} {ms : List Contribution}

/-! ### Finished builds -/

/-- What the build of a descriptor declares, in order. -/
def journalOf (d : Descriptor) (seed : Seed) : List (Nat × String) :=
  journal seed (Step.ofBody 0 "" d) empty

/-- Whether all requests of the build of a descriptor are answered in kind. -/
def BuildKeeps (d : Descriptor) (seed : Seed) : Prop :=
  RunKeeps seed (Step.ofBody 0 "" d) empty

instance (d : Descriptor) (seed : Seed) : Decidable (BuildKeeps d seed) :=
  inferInstanceAs (Decidable (RunKeeps seed (Step.ofBody 0 "" d) empty))

/-- The declarations of a finished build are the contributions of the descriptor, one by one. -/
lemma journalOf_lands (h : ofDescriptor d seed = .ok plan) (hk : kept → BuildKeeps d seed) :
    plan.Rooted ∧ List.Forall₂ (plan.Lands kept) (journalOf d seed) (d.meaning seed) :=
  journal_lands rooted_empty (.ofBody (.root rooted_empty) "" d) hk (ofDescriptor_eq_ok.1 h)

/-- A scope ends up with its entries in the journal, in their order. -/
lemma declarations_of_ofDescriptor (h : ofDescriptor d seed = .ok plan) (id : Nat) :
    plan.declarations id = textsAt id (journalOf d seed) := by
  have hready := Ready.ofBody rooted_empty.wellFormed rooted_empty.wellFormed.size_pos "" d
  have hleft : (left (run seed (Step.ofBody 0 "" d) empty)).declarations id
      = empty.declarations id ++ textsAt id (journalOf d seed) :=
    hready.declarations_left_run id
  have hnone : empty.declarations id = [] := by
    cases id with
    | zero => rfl
    | succ id => rfl
  rwa [ofDescriptor_eq_ok.1 h, left, hnone, List.nil_append] at hleft

/-- Every declaration of a finished build is made in a scope of the plan. -/
lemma lt_size_of_mem_journalOf (h : ofDescriptor d seed = .ok plan) {w : Nat × String}
    (hw : w ∈ journalOf d seed) : w.1 < plan.size := by
  have hready := Ready.ofBody rooted_empty.wellFormed rooted_empty.wellFormed.size_pos "" d
  have hlt := hready.lt_size_of_mem_journal hw
  rwa [ofDescriptor_eq_ok.1 h] at hlt

/-! ### Gathering -/

/-- Declarations gathered scope by scope are those that were made in the scopes. -/
lemma perm_gathered {ids : List Nat} (hn : ids.Nodup) (writes : List (Nat × String)) :
    (ids.flatMap fun id => writes.filter fun w => w.1 = id).Perm
      (writes.filter fun w => w.1 ∈ ids) := by
  induction ids with
  | nil => simp
  | cons id ids ih =>
    obtain ⟨hid, hn⟩ := List.nodup_cons.1 hn
    have hfirst : (writes.filter fun w => w.1 ∈ id :: ids).filter (fun w => w.1 = id)
        = writes.filter fun w => w.1 = id := by
      rw [List.filter_filter]
      refine List.filter_congr fun w _ => ?_
      by_cases hw : w.1 = id <;> simp [hw]
    have hothers : (writes.filter fun w => w.1 ∈ id :: ids).filter (fun w => !decide (w.1 = id))
        = writes.filter fun w => w.1 ∈ ids := by
      rw [List.filter_filter]
      refine List.filter_congr fun w _ => ?_
      by_cases hw : w.1 = id
      · simp [hw, hid]
      · simp [hw]
    rw [List.flatMap_cons, ← hfirst]
    refine ((ih hn).append_left _).trans ?_
    rw [← hothers]
    exact List.filter_append_perm _ _

/-- What agrees one by one agrees after the same choice on both sides. -/
lemma map_filter_of_forall₂ {p : Nat × String → Bool} {q : Contribution → Bool}
    (h : List.Forall₂ (fun w m => m.text = w.2 ∧ q m = p w) writes ms) :
    (writes.filter p).map (·.2) = (ms.filter q).map Contribution.text := by
  induction h with
  | nil => rfl
  | cons hwm _ ih =>
    obtain ⟨htext, hchoice⟩ := hwm
    rw [List.filter_cons, List.filter_cons, hchoice]
    split
    · rw [List.map_cons, List.map_cons, ih, htext]
    · exact ih

/-- The journal of a finished build has the global texts at the root, and the others elsewhere. -/
lemma texts_journalOf (h : ofDescriptor d seed = .ok plan) :
    textsAt 0 (journalOf d seed) = d.globalTexts seed
      ∧ ((journalOf d seed).filter fun w => !decide (w.1 = 0)).map (·.2) = d.scopedTexts seed := by
  obtain ⟨_, hl⟩ := journalOf_lands h False.elim
  have hraw : ∀ {w m}, plan.Lands False w m → m.text = w.2 ∧ m.isRaw = decide (w.1 = 0) := by
    rintro w m ⟨c, hs, rfl⟩
    refine ⟨c.text_contribute w.2, ?_⟩
    rw [Bool.eq_iff_iff, c.isRaw_contribute, decide_eq_true_eq, hs.eq_zero]
  constructor
  · exact map_filter_of_forall₂ (hl.imp fun _ _ hwm => hraw hwm)
  · refine map_filter_of_forall₂ (hl.imp fun _ _ hwm => ⟨(hraw hwm).1, ?_⟩)
    rw [(hraw hwm).2]

/-- The scopes of a plan by their numbers. -/
lemma map_declarations_scopes (plan : Plan) :
    plan.scopes.map (·.declarations) = (List.range plan.size).map plan.declarations := by
  refine List.ext_getElem (by simp [size]) fun i h₁ h₂ => ?_
  simp only [List.length_map] at h₁
  rw [List.getElem_map, List.getElem_map, List.getElem_range, declarations, scope?,
    List.getElem?_eq_getElem h₁]
  rfl

/-- **Builds lose nothing and make nothing up**: when a descriptor has been built, the root has its
global texts in the order of the source, and the other scopes together have its scoped texts, each
of them once, and every scope in the order of the source. -/
theorem conserves_texts (h : ofDescriptor d seed = .ok plan) :
    ∃ root others, plan.scopes = root :: others ∧ root.declarations = d.globalTexts seed
      ∧ (others.flatMap (·.declarations)).Perm (d.scopedTexts seed)
      ∧ ∀ s ∈ others, s.declarations.Sublist (d.scopedTexts seed) := by
  obtain ⟨hroot, hothers⟩ := texts_journalOf h
  obtain ⟨hrooted, _⟩ := journalOf_lands h False.elim
  obtain ⟨root, others, hscopes⟩ := List.exists_cons_of_length_pos hrooted.wellFormed.size_pos
  have hnumbers := plan.map_declarations_scopes
  have hsize : plan.size = others.length + 1 := by rw [size, hscopes, List.length_cons]
  rw [hscopes, hsize, List.range_succ_eq_map, List.map_cons, List.map_cons, List.map_map,
    List.cons.injEq] at hnumbers
  obtain ⟨hfirst, hrest⟩ := hnumbers
  refine ⟨root, others, hscopes, ?_, ?_, ?_⟩
  · rw [hfirst, declarations_of_ofDescriptor h, hroot]
  · have hflat : others.flatMap (·.declarations)
        = (((List.range others.length).map Nat.succ).flatMap fun id =>
            (journalOf d seed).filter fun w => w.1 = id).map (·.2) := by
      rw [List.flatMap_def, hrest, List.map_flatMap, List.flatMap_map, List.flatMap_def]
      refine congrArg List.flatten (List.map_congr_left fun i _ => ?_)
      exact declarations_of_ofDescriptor h (i + 1)
    have hnodup : ((List.range others.length).map Nat.succ).Nodup :=
      List.nodup_range.map fun _ _ => Nat.succ.inj
    have hmem : ∀ w ∈ journalOf d seed,
        decide (w.1 ∈ (List.range others.length).map Nat.succ) = !decide (w.1 = 0) := by
      intro w hw
      have hlt := lt_size_of_mem_journalOf h hw
      rw [Bool.eq_iff_iff, Bool.not_eq_true', decide_eq_true_eq, decide_eq_false_iff_not,
        List.mem_map]
      constructor
      · rintro ⟨i, _, hi⟩
        omega
      · intro hne
        exact ⟨w.1 - 1, List.mem_range.2 (by omega), by omega⟩
    rw [hflat, ← hothers, ← List.filter_congr hmem]
    exact (perm_gathered hnodup _).map _
  · intro s hs
    have hm : s.declarations ∈ others.map (·.declarations) := List.mem_map_of_mem hs
    rw [hrest] at hm
    obtain ⟨i, _, hi⟩ := List.mem_map.1 hm
    rw [← hi, Function.comp_apply, declarations_of_ofDescriptor h, ← hothers, textsAt]
    refine (List.monotone_filter_right _ fun w hw => ?_).map _
    have hw' := of_decide_eq_true hw
    simp [hw']

/-- Overrides of the whole stylesheet, and a rule with a mixin of the same name, which is built into
the rule; at-rules and animations in both of them. -/
def twoOfOneName : Descriptor :=
  ⟨[("overrides", .list [.block [("--gap", .literal (.text "1px;"))], .block []]),
    ("menu", .block [("color", .literal (.text "red")),
      ("atRules", .list [.literal (.text "@import 'base' "), .absent]),
      ("overrides", .list [.block [("color", .literal (.text "navy")), ("top", .absent)]]),
      ("mixins", .block [(".menu", .block [
        ("keyframes", .list [.absent, .block [("name", .literal (.text "turn")), ("steps", .list [
          .block [("percentage", .literal (.text "50%")),
            ("css", .block [("zIndex", .literal (.text "1"))])]])]]),
        ("margin", .literal (.text "0"))])])]),
    ("atRules", .list [.literal (.text "@layer a \x7b\x7d")])]⟩

/-- Texts are conserved where two scopes have one name. -/
theorem conserves_texts_twoOfOneName :
    ∃ plan, ofDescriptor twoOfOneName .identity = .ok plan
      ∧ twoOfOneName.globalTexts .identity
        = ["--gap:1px;", "@import 'base';", "@keyframes turn\x7b50% \x7bz-index:1\x7d\x7d",
          "@layer a \x7b\x7d"]
      ∧ twoOfOneName.scopedTexts .identity = ["color:red", "color:navy", "margin:0"]
      ∧ plan.size = 2
      ∧ ∃ root others, plan.scopes = root :: others
        ∧ root.declarations = twoOfOneName.globalTexts .identity
        ∧ (others.flatMap (·.declarations)).Perm (twoOfOneName.scopedTexts .identity)
        ∧ ∀ s ∈ others, s.declarations.Sublist (twoOfOneName.scopedTexts .identity) := by
  obtain ⟨plan, h, hsize⟩ : ∃ plan, ofDescriptor twoOfOneName .identity = .ok plan ∧ _ :=
    exists_ok_of_any (p := fun plan => plan.size = 2) (by decide +kernel)
  exact ⟨plan, h, by decide +kernel, by decide +kernel, of_decide_eq_true hsize,
    conserves_texts h⟩

end Plan

end Stylesheet
