/-
Extensions of sheets.

* `Descriptor.eq_of_reflects`: the insertions that a descriptor stands for decide what it is;
* `Descriptor.merge_assoc`: of three descriptors, any two neighbours can be merged first;
* `Sheet.className_extend`: an extension keeps the class names of the tokens that a sheet knows;
* `Plan.buildAll_root`: builds into the root, one after another, are one run over all their entries;
* `Sheet.run_extendAll`: a sheet that is extended by new keys is built on its own plan;
* `Sheet.extend_extend`: two extensions are one, and they are built one after the other.

An extension puts a new value in the place of an old one, so that in general the plan of an extended
sheet is not the plan of the sheet with something built into it. Where no key is put in twice, the
entries of the extension come last, and what is built for them starts from the plan that the entries
of the sheet have left.
-/
import Stylesheet.Proofs.Build.Reachable
import Stylesheet.Proofs.ClassNames
import Stylesheet.Proofs.InsertionOrder

namespace Stylesheet

/-! ### Descriptors -/

namespace Descriptor

variable {d e : Descriptor} {puts : List (String × Value)}

/-- The entries of a descriptor without a key twice are its keys with their values. -/
lemma entries_eq_of_nodup (hn : d.keys.Nodup) :
    d.entries = d.keys.filterMap fun key => (d.get? key).map (key, ·) := by
  obtain ⟨entries⟩ := d
  induction entries with
  | nil => rfl
  | cons first rest ih =>
    obtain ⟨k, value⟩ := first
    obtain ⟨hfirst, hrest⟩ := List.nodup_cons.1 hn
    have hkeys : keys ⟨(k, value) :: rest⟩ = k :: keys ⟨rest⟩ := rfl
    have hself : get? ⟨(k, value) :: rest⟩ k = some value := List.lookup_cons_self
    have hother : ∀ key ∈ keys ⟨rest⟩, get? ⟨(k, value) :: rest⟩ key = get? ⟨rest⟩ key := by
      intro key hkey
      have hne : key ≠ k := fun heq => hfirst (heq ▸ hkey)
      rw [get?, List.lookup_cons, beq_eq_false_iff_ne.2 hne]
      rfl
    rw [hkeys, List.filterMap_cons, hself, Option.map_some,
      List.filterMap_congr fun key hkey => by rw [hother key hkey], ← ih hrest]

/-- The insertions that a descriptor stands for decide what it is. -/
lemma eq_of_reflects (h : d.Reflects puts) (h' : e.Reflects puts) : d = e := by
  have hkeys : d.keys = e.keys := h.keys_eq.trans h'.keys_eq.symm
  have hget : d.get? = e.get? := funext fun key => (h.get?_eq key).trans (h'.get?_eq key).symm
  have hentries : d.entries = e.entries := by
    rw [entries_eq_of_nodup h.nodup_keys, entries_eq_of_nodup h'.nodup_keys, hkeys, hget]
  exact congrArg mk hentries

/-- A descriptor without a key twice stands for its entries. -/
lemma reflects_entries (hn : d.keys.Nodup) : d.Reflects d.entries where
  keys_eq := (eraseDups_of_nodup hn).symm
  get?_eq key := (lookup_reverse hn key).symm

/-- Of three descriptors, any two neighbours can be merged first. -/
lemma merge_assoc {d₁ d₂ d₃ : Descriptor} (h₁ : d₁.keys.Nodup) (h₂ : d₂.keys.Nodup)
    (h₃ : d₃.keys.Nodup) : (d₁.merge d₂).merge d₃ = d₁.merge (d₂.merge d₃) := by
  have hleft := ((reflects_entries h₁).merge (reflects_entries h₂)).merge (reflects_entries h₃)
  have hright := (reflects_entries h₁).merge ((reflects_entries h₂).merge (reflects_entries h₃))
  rw [List.append_assoc] at hleft
  exact eq_of_reflects hleft hright

/-- A merge keeps all keys. -/
lemma contains_merge {key : String} (h : d.contains key = true) :
    (d.merge e).contains key = true := by
  rw [contains, get?_merge, Option.isSome_or, ← contains, h, Bool.or_true]

end Descriptor

/-! ### Class names -/

namespace Sheet

variable {sheet : Sheet} {base : Plan} {e₁ e₂ : Descriptor}

/-- An extension keeps the class names of the tokens that a sheet knows. -/
lemma className_extend {token : String} (h : sheet.descriptor.contains token = true)
    (extension : Descriptor) :
    (sheet.extend extension).className token = sheet.className token := by
  have hcontains : (sheet.extend extension).descriptor.contains token = true :=
    Descriptor.contains_merge h
  rw [className, hcontains, className, h]
  rfl

end Sheet

/-! ### Builds into the root -/

namespace Plan

variable {seed : Seed} {plan base : Plan} {d : Descriptor}

/-- Builds into the root of a plan, one after another, are one run over all their entries. -/
lemma buildAll_root (hf : plan.fragment? 0 = some "") (seed : Seed)
    (extensions : List Descriptor) :
    plan.buildAll 0 seed extensions = run seed (extensions.flatMap (Step.ofBody 0 "")) plan := by
  induction extensions generalizing plan with
  | nil => exact run_nil.symm
  | cons e rest ih =>
    have hbuild : plan.build 0 e seed = run seed (Step.ofBody 0 "" e) plan := by
      rw [build, ← fragment?, hf, Option.getD_some]
    have hsize : 0 < plan.size := by
      obtain ⟨s, hs, _⟩ := Option.map_eq_some_iff.1 hf
      exact lt_size hs
    rw [buildAll, hbuild, List.flatMap_cons, run_append_eq_bind]
    cases hrun : run seed (Step.ofBody 0 "" e) plan with
    | error failure => rfl
    | ok next =>
      -- the paths of the next build start at the fragment of the root again
      have hnext : next.fragment? 0 = some "" := by
        rw [(extends_of_run hrun).fragment? hsize, hf]
      exact ih hnext

/-- Two builds, one after the other. -/
lemma buildAll_pair (plan : Plan) (target : Nat) (seed : Seed) (d e : Descriptor) :
    plan.buildAll target seed [d, e]
      = plan.build target d seed >>= fun next => next.build target e seed := by
  have hlast : ∀ next : Plan, next.buildAll target seed [e] = next.build target e seed :=
    fun _ => bind_pure _
  rw [buildAll]
  simp only [hlast]

end Plan

namespace Sheet

variable {sheet : Sheet} {base : Plan} {extensions : List Descriptor} {e₁ e₂ : Descriptor}

/-- Extensions by new keys come after the entries of a sheet, one after another. -/
lemma entries_extendAll
    (hn : (sheet.descriptor.keys ++ extensions.flatMap Descriptor.keys).Nodup) :
    (sheet.extendAll extensions).descriptor.entries
      = sheet.descriptor.entries ++ extensions.flatMap Descriptor.entries := by
  induction extensions generalizing sheet with
  | nil => exact (List.append_nil _).symm
  | cons e rest ih =>
    rw [List.flatMap_cons, ← List.append_assoc] at hn
    obtain ⟨_, he, hdisjoint⟩ := List.nodup_append'.1 hn.of_append_left
    have hextend : (sheet.extend e).descriptor = ⟨sheet.descriptor.entries ++ e.entries⟩ :=
      Descriptor.merge_of_disjoint he fun key hkey hmem => hdisjoint hmem hkey
    have hkeys : (sheet.extend e).descriptor.keys = sheet.descriptor.keys ++ e.keys := by
      rw [hextend]
      exact List.map_append
    have hrest := @ih (sheet.extend e) (by rwa [hkeys])
    rw [hextend, List.append_assoc, ← List.flatMap_cons] at hrest
    exact hrest

section

variable (h : sheet.plan = .ok base)
  (hn : (sheet.descriptor.keys ++ extensions.flatMap Descriptor.keys).Nodup)

include h hn

/-- The entries of a sheet that is extended by new keys are built by building the extensions into
the plan of the sheet. -/
lemma run_extendAll :
    Plan.run sheet.seed (Step.ofBody 0 "" (sheet.extendAll extensions).descriptor) Plan.empty
      = base.buildAll 0 sheet.seed extensions := by
  have hbody : Step.ofBody 0 "" (sheet.extendAll extensions).descriptor
      = Step.ofBody 0 "" sheet.descriptor ++ extensions.flatMap (Step.ofBody 0 "") := by
    rw [Step.ofBody, entries_extendAll hn, List.map_append, List.map_flatMap]
    rfl
  have hroot := (Plan.Orderly.of_ofDescriptor h).rooted.fragment?_root
  rw [hbody, Plan.run_append (Plan.ofDescriptor_eq_ok.1 h), Plan.buildAll_root hroot]

lemma plan_extendAll_eq_ok {plan : Plan} :
    (sheet.extendAll extensions).plan = .ok plan
      ↔ base.buildAll 0 sheet.seed extensions = .ok plan := by
  rw [← run_extendAll h hn, Sheet.plan, seed_extendAll, Plan.ofDescriptor_eq_ok]

lemma plan_extendAll_eq_error {e : CompileError} :
    (sheet.extendAll extensions).plan = .error e
      ↔ ∃ left, base.buildAll 0 sheet.seed extensions = .error ⟨e, left⟩ := by
  rw [← run_extendAll h hn, Sheet.plan, seed_extendAll, Plan.ofDescriptor_eq_error]

end

/-- **Extensions**: two extensions of a sheet, one after the other, are the extension by both of
them merged, and tokens that the sheet knows keep their class names. If the sheet can be compiled
and no key comes in two of the three descriptors, the extended sheet is compiled by building the
extensions into the plan of the sheet, one after the other: it has the plan that both builds come
to, or else it is refused with the error of the first of them that fails. -/
theorem extend_extend (hs : sheet.descriptor.keys.Nodup) (h₁ : e₁.keys.Nodup)
    (h₂ : e₂.keys.Nodup) :
    (sheet.extend e₁).extend e₂ = sheet.extend (e₁.merge e₂)
      ∧ (∀ token, sheet.descriptor.contains token = true →
          (sheet.extend e₁).className token = sheet.className token
            ∧ ((sheet.extend e₁).extend e₂).className token = sheet.className token)
      ∧ ∀ base, sheet.plan = .ok base → (∀ key ∈ e₁.keys, key ∉ sheet.descriptor.keys) →
          (∀ key ∈ e₂.keys, key ∉ sheet.descriptor.keys ∧ key ∉ e₁.keys) →
          (∀ plan, ((sheet.extend e₁).extend e₂).plan = .ok plan
              ↔ ∃ first, base.build 0 e₁ sheet.seed = .ok first
                ∧ first.build 0 e₂ sheet.seed = .ok plan)
            ∧ ∀ e, ((sheet.extend e₁).extend e₂).plan = .error e
              ↔ (∃ left, base.build 0 e₁ sheet.seed = .error ⟨e, left⟩)
                ∨ ∃ first left, base.build 0 e₁ sheet.seed = .ok first
                  ∧ first.build 0 e₂ sheet.seed = .error ⟨e, left⟩ := by
  refine ⟨?_, fun token htoken => ?_, fun base hbase hd₁ hd₂ => ?_⟩
  · rw [extend, extend, extend, Descriptor.merge_assoc hs h₁ h₂]
  · have hfirst := className_extend htoken e₁
    exact ⟨hfirst, (className_extend (Descriptor.contains_merge htoken) e₂).trans hfirst⟩
  · have hn : (sheet.descriptor.keys ++ [e₁, e₂].flatMap Descriptor.keys).Nodup := by
      rw [List.flatMap_cons, List.flatMap_singleton, List.nodup_append', List.nodup_append',
        List.disjoint_append_right]
      exact ⟨hs, ⟨h₁, h₂, List.disjoint_right.2 fun key hkey => (hd₂ key hkey).2⟩,
        List.disjoint_right.2 hd₁, List.disjoint_right.2 fun key hkey => (hd₂ key hkey).1⟩
    have hboth : (sheet.extend e₁).extend e₂ = sheet.extendAll [e₁, e₂] := rfl
    rw [hboth]
    refine ⟨fun plan => ?_, fun e => ?_⟩
    · rw [plan_extendAll_eq_ok hbase hn, Plan.buildAll_pair, bind_eq_ok]
    · rw [plan_extendAll_eq_error hbase hn, exists_comm, ← exists_or]
      simp only [Plan.buildAll_pair, bind_eq_error]

/-- A sheet under a key, with a rule that has a media block and a mixin. -/
def page : Sheet :=
  ⟨⟨[("page", .block [("color", .literal (.text "red")),
    ("media", .list [.block [("print", .literal (.text "")),
      ("css", .block [("color", .literal (.text "black"))])]]),
    ("mixins", .block [("a", .block [("top", .literal (.text "0"))])])])]⟩, .ofKey? (some "app")⟩

/-- A rule in the same media block. -/
def aside : Descriptor :=
  ⟨[("aside", .block [("media", .list [.block [("print", .literal (.text "")),
    ("css", .block [("display", .literal (.text "none"))])]])])]⟩

/-- The same mixin, as an entry of a whole descriptor. -/
def links : Descriptor :=
  ⟨[("mixins", .block [("a", .block [("left", .literal (.text "0"))])])]⟩

/-- Extensions that go on in a media block and in a mixin of the sheet are built one after the
other. -/
theorem extend_extend_page :
    ∃ base first plan, page.plan = .ok base ∧ base.build 0 aside page.seed = .ok first
      ∧ first.build 0 links page.seed = .ok plan
      ∧ ((page.extend aside).extend links).plan = .ok plan
      ∧ (page.extend aside).extend links = page.extend (aside.merge links)
      ∧ ((page.extend aside).extend links).className "page" = page.className "page" := by
  obtain ⟨base, hbase, hp⟩ := exists_ok_of_any (x := page.plan)
    (p := fun base => (base.build 0 aside page.seed).toOption.any fun first =>
      (first.build 0 links page.seed).toOption.any fun plan => plan.size = 7) (by decide +kernel)
  obtain ⟨first, hfirst, hp⟩ := exists_ok_of_any hp
  obtain ⟨plan, hplan, _⟩ := exists_ok_of_any hp
  obtain ⟨hextend, hclass, hbuilt⟩ :=
    extend_extend (by decide : page.descriptor.keys.Nodup) (by decide : aside.keys.Nodup)
      (by decide : links.keys.Nodup)
  obtain ⟨hok, _⟩ := hbuilt base hbase (by decide) (by decide)
  exact ⟨base, first, plan, hbase, hfirst, hplan, (hok plan).2 ⟨first, hfirst, hplan⟩, hextend,
    (hclass "page" rfl).2⟩

end Sheet

end Stylesheet
