/-
Media blocks as containers.

* `Descriptor.mixins`: the mixins at the top of a descriptor;
* `Step.StaysIn`: what a step is about is in a media block, or is global text;
* `Rooted.mem_ancestors_mixinHost`: mixins in a media block are hosted in it, but for those that
  stand right in the block;
* `Step.Does.staysIn`: what a step in a media block leaves behind is in the block;
* `Plan.Contained`: a plan in which only the inside of a media block changed, and the text in the
  root;
* `Plan.Enclosed`: an orderly plan and an agenda that stays in a media block;
* `Enclosed.contained`: so do runs, finished or not;
* `Plan.contained_build`: all of it together.

A build into a scope in a media block stays there, with everything that it nests. A build right into
the block does too, unless it names mixins, which are hosted by the stylesheet then.
-/
import Stylesheet.Proofs.Build.Hoisting
import Stylesheet.Statement

namespace Stylesheet

open Plan

/-- The mixins of an entry, by their names. What is no mapping is no mixin. -/
def Directive.mixinsOf (key : String) (value : Value) : List (String × Descriptor) :=
  match classify key value "" with
  | .ok (.mixins body) => body.entries.filterMap fun e => e.2.block?.map fun b => (e.1, b)
  | _ => []

/-- The mixins at the top of a descriptor, by their names. -/
def Descriptor.mixins (d : Descriptor) : List (String × Descriptor) :=
  d.entries.flatMap fun e => Directive.mixinsOf e.1 e.2

/-- What a step is about is in a media block, or is text for the root. What stands right in the
block names no mixins. -/
def Step.StaysIn (m : Nat) (plan : Plan) : Step → Prop
  | .entry id _ key value =>
    m ∈ plan.ancestors id ∧ (id = m → Directive.mixinsOf key value = [])
  | .keyframes host _ => host = 0
  | .override id _ => m ∈ plan.ancestors id
  | .mixin host _ _ value => value.block? = none ∨ m ∈ plan.ancestors host
  | .query _ _ _ _ => False
  | .scope r _ _ => m ∈ plan.ancestors r.host

/-! ### Hosts in a media block -/

namespace Plan

variable {plan later : Plan} {id host m : Nat}

/-- The nearest scope of some kind around a scope is no further out than any other of that kind. -/
lemma WellFormed.mem_ancestors_of_find? (h : plan.WellFormed) (hid : id < plan.size)
    {p : Nat → Bool} (hm : m ∈ plan.ancestors id) (hp : p m = true)
    (hf : (plan.ancestors id).find? p = some host) : m ∈ plan.ancestors host := by
  induction id, hid using h.parent_induction with
  | root =>
    have hhost := List.mem_of_find?_eq_some hf
    rw [h.ancestors_root] at hhost
    rw [List.mem_singleton.1 hhost]
    exact hm
  | under id around hid _ hparent ih =>
    have hchain := h.ancestors_of_parent? hparent
    rw [hchain, List.find?_cons] at hf
    split at hf
    · cases hf
      exact hm
    · rename_i hne
      rw [hchain] at hm
      rcases List.mem_cons.1 hm with rfl | hm
      · rw [hp] at hne
        cases hne
      · exact ih hm hf

/-- A scope in a media block is there. -/
lemma lt_size_of_mem_ancestors (hk : plan.kind? m = some .media) (hm : m ∈ plan.ancestors id) :
    id < plan.size := by
  cases hp : plan.parent? id with
  | some p => exact lt_size_of_parent? hp
  | none =>
    rw [ancestors, hp] at hm
    rw [← List.mem_singleton.1 hm]
    exact lt_size_of_kind? hk

/-- Media blocks have no host in a media block. -/
lemma mediaHost_ne_ok (hk : plan.kind? m = some .media) (hm : m ∈ plan.ancestors id) :
    plan.mediaHost id ≠ .ok host := by
  intro hh
  have hnone := (mediaHost_eq_ok hh).1
  rw [withinMedia, List.any_eq_false] at hnone
  exact hnone m hm (decide_eq_true hk)

namespace Rooted

variable (h : plan.Rooted) (hk : plan.kind? m = some .media)

include h hk

lemma ne_zero_of_media : m ≠ 0 := by
  rintro rfl
  rw [h.kind?_eq_global.2 rfl] at hk
  cases hk

/-- The root is in no media block. -/
lemma ne_zero_of_mem_ancestors (hm : m ∈ plan.ancestors id) : id ≠ 0 := by
  rintro rfl
  rw [h.wellFormed.ancestors_root] at hm
  exact h.ne_zero_of_media hk (List.mem_singleton.1 hm)

/-- Mixins below a media block are hosted in the block. -/
lemma mem_ancestors_mixinHost (hm : m ∈ plan.ancestors id) (hne : id ≠ m)
    (hh : plan.mixinHost id = .ok host) : m ∈ plan.ancestors host := by
  rcases mixinHost_eq_ok hh with ⟨rfl, _⟩ | ⟨_, _, hf⟩
  · exact hm
  · have hid := lt_size_of_mem_ancestors hk hm
    obtain ⟨p, hp, hlt⟩ := h.wellFormed.parent_lt
      (Nat.pos_of_ne_zero (h.ne_zero_of_mem_ancestors hk hm)) hid
    have hchain := h.wellFormed.ancestors_of_parent? hp
    rw [hchain, List.tail_cons] at hf
    rw [hchain, List.mem_cons] at hm
    exact h.wellFormed.mem_ancestors_of_find? (Nat.lt_trans hlt hid)
      (hm.resolve_left (Ne.symm hne)) (by simp [hk]) hf

/-- What answers a request in a media block is in the block, and is not the block itself. -/
lemma mem_ancestors_answer (hroot : plan.parent? m = some 0) {r : Request}
    (hm : m ∈ plan.ancestors r.host) :
    m ∈ (plan.enter r).ancestors (plan.answer r) ∧ plan.answer r ≠ m := by
  have hr := lt_size_of_mem_ancestors hk hm
  have hparent := h.wellFormed.parent?_answer r
  constructor
  · rw [(h.wellFormed.enter hr).ancestors_of_parent? hparent, (extends_enter r).ancestors hr]
    exact List.mem_cons_of_mem _ hm
  · intro he
    rw [he, (extends_enter r).parent? (lt_size_of_kind? hk), hroot, Option.some.injEq] at hparent
    exact h.ne_zero_of_mem_ancestors hk hm hparent.symm

end Rooted

end Plan

/-! ### One step -/

namespace Step

variable {seed : Seed} {plan later : Plan} {step : Step} {more : List Step}
  {writes : List (Nat × String)} {id m : Nat}

lemma StaysIn.mono (h : step.StaysIn m plan) (ht : step.target < plan.size)
    (he : plan.Extends later) : step.StaysIn m later := by
  cases step with
  | entry id path key value =>
    have hchain : later.ancestors id = plan.ancestors id := he.ancestors ht
    rw [StaysIn, hchain]
    exact h
  | keyframes host rule => exact h
  | override id mapping =>
    have hchain : later.ancestors id = plan.ancestors id := he.ancestors ht
    rw [StaysIn, hchain]
    exact h
  | mixin host path name value =>
    have hchain : later.ancestors host = plan.ancestors host := he.ancestors ht
    rw [StaysIn, hchain]
    exact h
  | query host selector path q => exact h.elim
  | scope r path body =>
    have hchain : later.ancestors r.host = plan.ancestors r.host := he.ancestors ht
    rw [StaysIn, hchain]
    exact h

/-- What an entry in a media block does stays there, but for text for the root. -/
lemma DirectiveDoes.staysIn {key path : String} {value : Value} {d : Directive} (h : plan.Rooted)
    (hk : plan.kind? m = some .media) (hs : StaysIn m plan (.entry id path key value))
    (hc : Directive.classify key value (Path.child path key) = .ok d)
    (hd : DirectiveDoes seed plan id (Path.child path key) d writes more) :
    (∀ w ∈ writes, w.1 = 0 ∨ m ∈ plan.ancestors w.1) ∧ ∀ s ∈ more, s.StaysIn m plan := by
  obtain ⟨hm, hnone⟩ := hs
  cases hd with
  | atRules hh =>
    obtain rfl := h.globalHost_eq_zero hh
    exact ⟨List.forall_mem_map.2 fun _ _ => .inl rfl, List.forall_mem_nil _⟩
  | keyframes hh =>
    exact ⟨List.forall_mem_nil _, List.forall_mem_map.2 fun _ _ => h.globalHost_eq_zero hh⟩
  | @mixins body host hh =>
    refine ⟨List.forall_mem_nil _, List.forall_mem_map.2 fun e he => ?_⟩
    by_cases hid : id = m
    · have hmixins := hnone hid
      rw [Directive.mixinsOf, Directive.classify_path hc ""] at hmixins
      exact .inl (Option.map_eq_none_iff.1 (List.filterMap_eq_nil_iff.1 hmixins e he))
    · exact .inr (h.mem_ancestors_mixinHost hk hm hid hh)
  | media hh => exact absurd hh (mediaHost_ne_ok hk hm)
  | overrides => exact ⟨List.forall_mem_nil _, List.forall_mem_map.2 fun _ _ => hm⟩
  | nested => exact ⟨List.forall_mem_nil _, List.forall_mem_singleton.2 hm⟩
  | rule hg hb =>
    exact absurd (h.kind?_eq_global.1 hg) (h.ne_zero_of_mem_ancestors hk hm)
  | declaration hg hl => exact ⟨List.forall_mem_singleton.2 (.inr hm), List.forall_mem_nil _⟩

/-- What a step in a media block asks for, declares and leaves behind is in the block, but for text
for the root. -/
lemma Does.staysIn (h : plan.Rooted) (hk : plan.kind? m = some .media)
    (hroot : plan.parent? m = some 0) (hs : step.StaysIn m plan)
    (hd : Does seed plan step writes more) :
    (∀ r, step.request? = some r → m ∈ plan.ancestors r.host)
      ∧ (∀ w ∈ writes, w.1 = 0 ∨ m ∈ plan.ancestors w.1)
      ∧ ∀ s ∈ more, s.StaysIn m (plan.grant step.request?) := by
  cases hd with
  | absentEntry ha => exact ⟨nofun, List.forall_mem_nil _, List.forall_mem_nil _⟩
  | entry ha hc hd =>
    obtain ⟨hwrites, hmore⟩ := hd.staysIn h hk hs hc
    exact ⟨nofun, hwrites, hmore⟩
  | keyframes hr =>
    exact ⟨nofun, List.forall_mem_singleton.2 (.inl hs), List.forall_mem_nil _⟩
  | @override id mapping text ht =>
    refine ⟨nofun, fun w hw => ?_, List.forall_mem_nil _⟩
    split at hw
    · cases hw
    · rw [List.mem_singleton.1 hw]
      exact .inr hs
  | absentMixin ha => exact ⟨nofun, List.forall_mem_nil _, List.forall_mem_nil _⟩
  | @mixin host path name value body hb =>
    refine ⟨nofun, List.forall_mem_nil _, List.forall_mem_singleton.2 ?_⟩
    refine Or.resolve_left hs fun hnone => ?_
    rw [hb] at hnone
    cases hnone
  | query => exact False.elim hs
  | @scope r path body =>
    obtain ⟨hm, hne⟩ := h.mem_ancestors_answer hk hroot hs
    refine ⟨fun r' hr => ?_, List.forall_mem_nil _, List.forall_mem_map.2 fun e _ => ?_⟩
    · cases hr
      exact hs
    · exact ⟨hm, fun he => absurd he hne⟩

end Step

/-! ### Plans -/

namespace Plan

variable {seed : Seed} {plan later last : Plan} {step : Step} {agenda rest more : List Step}
  {writes : List (Nat × String)} {texts more' : List String} {m : Nat}

/-- A plan in which scopes were entered and changed in a media block alone, and some texts were
declared in the root. -/
structure Contained (m : Nat) (texts : List String) (plan later : Plan) : Prop where
  kept : plan.Extends later
  root : later.scope? 0
    = (plan.scope? 0).map fun s => { s with declarations := s.declarations ++ texts }
  /-- What is outside of the block is as it was. -/
  outside : ∀ id, id < plan.size → id ≠ 0 → m ∉ plan.ancestors id →
    later.scope? id = plan.scope? id
  /-- What is new is in the block. -/
  inside : ∀ id, plan.size ≤ id → id < later.size → m ∈ later.ancestors id

namespace Contained

protected lemma refl (m : Nat) (plan : Plan) : Contained m [] plan plan where
  kept := .refl plan
  root := by simp
  outside _ _ _ _ := rfl
  inside _ hle hlt := absurd hlt (Nat.not_lt.2 hle)

protected lemma trans (h₁ : Contained m texts plan later) (h₂ : Contained m more' later last) :
    Contained m (texts ++ more') plan last where
  kept := h₁.kept.trans h₂.kept
  root := by
    rw [h₂.root, h₁.root, Option.map_map]
    simp [Function.comp_def, List.append_assoc]
  outside id hid hne hm := by
    have hlt := Nat.lt_of_lt_of_le hid h₁.kept.size_le
    rw [h₂.outside id hlt hne (by rwa [h₁.kept.ancestors hid]), h₁.outside id hid hne hm]
  inside id hle hlt := by
    by_cases hmid : id < later.size
    · rw [h₂.kept.ancestors hmid]
      exact h₁.inside id hle hmid
    · exact h₂.inside id (Nat.not_lt.1 hmid) hlt

lemma enter (h : plan.Rooted) (hk : plan.kind? m = some .media) {r : Request}
    (hm : m ∈ plan.ancestors r.host) : Contained m [] plan (plan.enter r) := by
  cases hc : plan.child? r.host r.fragment with
  | some c =>
    rw [enter_of_some hc]
    exact .refl m plan
  | none =>
    have hne := h.ne_zero_of_mem_ancestors hk hm
    have hsize := h.wellFormed.size_pos
    refine ⟨extends_enter r, ?_, fun id hid _ hout => ?_, fun id hle hlt => ?_⟩
    · rw [scope?_enter hc, if_neg (by omega), if_neg (Ne.symm hne)]
      simp
    · have hhost : id ≠ r.host := fun he => hout (he ▸ hm)
      rw [scope?_enter hc, if_neg (by omega), if_neg hhost]
    · rw [size_enter_of_none hc] at hlt
      obtain rfl : id = plan.answer r := by
        rw [answer_of_none hc]
        omega
      have hr := lt_size_of_mem_ancestors hk hm
      rw [(h.wellFormed.enter hr).ancestors_of_parent? (h.wellFormed.parent?_answer r),
        (extends_enter r).ancestors hr]
      exact List.mem_cons_of_mem _ hm

lemma grant (h : plan.Rooted) (hk : plan.kind? m = some .media) {request : Option Request}
    (hm : ∀ r, request = some r → m ∈ plan.ancestors r.host) :
    Contained m [] plan (plan.grant request) := by
  cases request with
  | none => exact .refl m plan
  | some r => exact .enter h hk (hm r rfl)

lemma declareAll (hw : ∀ w ∈ writes, w.1 = 0 ∨ m ∈ plan.ancestors w.1) :
    Contained m (textsAt 0 writes) plan (plan.declareAll writes) where
  kept := extends_declareAll writes
  root := scope?_declareAll writes 0
  outside id hid hne hm := by
    have hnone : textsAt id writes = [] := textsAt_eq_nil fun w hmem he => by
      rcases hw w hmem with h₀ | hin
      · exact hne (he.symm.trans h₀)
      · exact hm (he ▸ hin)
    rw [scope?_declareAll, hnone]
    simp
  inside id hle hlt := by
    rw [size_declareAll] at hlt
    omega

end Contained

/-- An orderly plan with a media block, and an agenda that stays in the block. -/
structure Enclosed (m : Nat) (agenda : List Step) (plan : Plan) : Prop extends
    Orderly agenda plan where
  block : plan.kind? m = some .media
  staysIn : ∀ step ∈ agenda, step.StaysIn m plan

namespace Enclosed

/-- What the next step of an agenda asks for, declares and leaves behind. -/
lemma does (h : Enclosed m (step :: rest) plan) (hd : Step.Does seed plan step writes more) :
    (∀ r, step.request? = some r → m ∈ plan.ancestors r.host)
      ∧ (∀ w ∈ writes, w.1 = 0 ∨ m ∈ plan.ancestors w.1)
      ∧ ∀ s ∈ more, s.StaysIn m (plan.grant step.request?) :=
  hd.staysIn h.rooted h.block (h.media m h.block).1 (h.staysIn step List.mem_cons_self)

/-- After a step that was performed, the agenda stays in the block as before. -/
lemma performed (h : Enclosed m (step :: rest) plan) (hd : Step.Does seed plan step writes more) :
    Enclosed m (more ++ rest) (plan.after step writes) where
  toOrderly := h.toOrderly.performed hd
  block := ((extends_after plan step writes).kind? (lt_size_of_kind? h.block)).trans h.block
  staysIn s hs := by
    rcases List.mem_append.1 hs with hs | hs
    · have ht := (hd.targets h.rooted.wellFormed (h.targets step List.mem_cons_self)).2 s hs
      exact ((h.does hd).2.2 s hs).mono ht (extends_declareAll writes)
    · exact (h.staysIn s (List.mem_cons_of_mem _ hs)).mono
        (h.targets s (List.mem_cons_of_mem _ hs)) (extends_after plan step writes)

lemma contained_after (h : Enclosed m (step :: rest) plan)
    (hd : Step.Does seed plan step writes more) :
    Contained m (textsAt 0 writes) plan (plan.after step writes) := by
  obtain ⟨hrequest, hwrites, _⟩ := h.does hd
  have hgrant : Contained m [] plan (plan.grant step.request?) :=
    .grant h.rooted h.block hrequest
  refine hgrant.trans (.declareAll fun w hw => (hwrites w hw).imp_right fun hm => ?_)
  rwa [hgrant.kept.ancestors (lt_size_of_mem_ancestors h.block hm)]

/-- A run in a media block is contained in it, whether it finishes or not. -/
lemma contained (h : Enclosed m agenda plan) :
    Contained m (textsAt 0 (journal seed agenda plan)) plan (left (run seed agenda plan)) := by
  induction agenda, plan using run_induction seed with
  | nil plan =>
    rw [run_nil, journal_nil, textsAt_nil]
    exact .refl m plan
  | refused step rest plan e he =>
    rw [run_refused he, journal_refused he, textsAt_nil]
    exact .refl m plan
  | performed step rest plan writes more he hd ih =>
    rw [run_performed he, journal_performed he, textsAt_append]
    exact (h.contained_after hd).trans (ih (h.performed hd))

/-- A build into a scope in a media block stays in the block, unless the scope is the block and
mixins are named. -/
lemma ofBody (h : Orderly [] plan) (hk : plan.kind? m = some .media) {target : Nat}
    (hm : m ∈ plan.ancestors target) (path : String) {d : Descriptor}
    (hd : target = m → d.mixins = []) : Enclosed m (Step.ofBody target path d) plan where
  toOrderly := h.ofBody (lt_size_of_mem_ancestors hk hm) path d
  block := hk
  staysIn := by
    refine List.forall_mem_map.2 fun e he => ⟨hm, fun ht => ?_⟩
    exact List.flatMap_eq_nil_iff.1 (hd ht) e he

end Enclosed

/-! ### Builds -/

variable {target : Nat} {d : Descriptor}

/-- A build into another scope than the root declares at-rules and animations in the root, and
nothing else. -/
lemma Orderly.textsAt_root_build (h : Orderly [] plan) (ht : target < plan.size) (hne : target ≠ 0)
    (path : String) :
    textsAt 0 (journal seed (Step.ofBody target path d) plan)
      = (trace seed (Step.ofBody target path d) plan).flatMap fun e => e.2.hoistedTexts := by
  have hready := h.ofBody ht path d
  have hnone : ((trace seed (Step.ofBody target path d) plan).flatMap fun e => e.2.rootOverrides)
      = [] := by
    have hprefix := hready.overrides_isPrefix seed
    rwa [Step.flatMap_pendingOverrides_ofBody, if_neg hne, List.prefix_nil] at hprefix
  rw [hready.textsAt_root_journal]
  refine List.flatMap_congr fun e he => ?_
  rw [List.flatMap_eq_nil_iff.1 hnone e he, List.append_nil]

/-- Mixins right in a media block are hosted by the stylesheet. -/
lemma Rooted.mixinHost_of_media (h : plan.Rooted) (hk : plan.kind? m = some .media)
    (hroot : plan.parent? m = some 0) : plan.mixinHost m = .ok 0 := by
  have hkind : plan.kind? 0 = some .global := h.kind?_eq_global.2 rfl
  rw [mixinHost, if_neg (by simp [hk]), h.wellFormed.ancestors_of_parent? hroot,
    h.wellFormed.ancestors_root, List.tail_cons, List.find?_cons]
  simp [hkind]

/-- A build of a single mixin goes on with its body, in a scope under the host. -/
lemma run_mixin {id host : Nat} (hh : plan.mixinHost id = .ok host) (path name : String)
    (body : List (String × Value)) :
    ∃ path', run seed (Step.ofBody id path ⟨[("mixins", .block [(name, .block body)])]⟩) plan
      = run seed (Step.ofBody (plan.answer ⟨host, .mixin, name⟩) path' ⟨body⟩)
          (plan.enter ⟨host, .mixin, name⟩) := by
  have hread : Directive.classify "mixins" (.block [(name, .block body)]) (Path.child path "mixins")
      = .ok (.mixins ⟨[(name, .block body)]⟩) := Directive.classify_eq_ok.2 (.mixins rfl rfl)
  let path' := Path.child (Path.child path "mixins") name
  refine ⟨path', ?_⟩
  calc run seed (Step.ofBody id path ⟨[("mixins", .block [(name, .block body)])]⟩) plan
    _ = run seed [.mixin host (Path.child path "mixins") name (.block body)] plan :=
      run_performed (Step.Does.entry rfl hread (.mixins hh)).effect
    _ = run seed [.scope ⟨host, .mixin, name⟩ path' ⟨body⟩] plan :=
      run_performed (Step.Does.mixin rfl).effect
    _ = run seed (Step.ofBody (plan.answer ⟨host, .mixin, name⟩) path' ⟨body⟩ ++ [])
          (plan.enter ⟨host, .mixin, name⟩) :=
      run_performed Step.Does.scope.effect
    _ = _ := by rw [List.append_nil]

/-- A mixin of a new name, right in a media block, gets out of the block. -/
lemma Orderly.not_contained_mixin (h : Orderly [] plan) (hk : plan.kind? m = some .media)
    {name : String} (hc : plan.child? 0 name = none) (body : List (String × Value)) (seed : Seed)
    (texts : List String) :
    ¬ Contained m texts plan
        (left (plan.build m ⟨[("mixins", .block [(name, .block body)])]⟩ seed)) := by
  intro hcontained
  have hw := h.rooted.wellFormed
  have hhost := h.rooted.mixinHost_of_media hk (h.media m hk).1
  have hlt := hw.answer_lt ⟨0, .mixin, name⟩
  -- the mixin is entered under the root, whatever happens to its body
  have hextends : (plan.enter ⟨0, .mixin, name⟩).Extends
      (left (plan.build m ⟨[("mixins", .block [(name, .block body)])]⟩ seed)) := by
    obtain ⟨path', hrun⟩ := run_mixin hhost (((plan.scope? m).map (·.fragment)).getD "") name body
    rw [Plan.build, hrun]
    exact extends_left_run
  have hnew := hcontained.inside _ (Nat.le_of_eq (answer_of_none hc).symm)
    (Nat.lt_of_lt_of_le hlt hextends.size_le)
  have hentered := hw.enter (r := ⟨0, .mixin, name⟩) hw.size_pos
  rw [hextends.ancestors hlt, hentered.ancestors_of_parent? (hw.parent?_answer _),
    hentered.ancestors_root, answer_of_none hc, List.mem_cons, List.mem_singleton] at hnew
  rcases hnew with he | he
  · exact absurd (lt_size_of_kind? hk) (he ▸ Nat.lt_irrefl _)
  · exact h.rooted.ne_zero_of_media hk he

/-- **Containment**: a build into a scope in a media block, finished or not, enters scopes in the
block alone and changes none outside of it, but for at-rules and animations that it declares in the
root; if the scope is the block itself, then as long as the descriptor names no mixins. A mixin that
is built right into a media block gets out of it whenever its name is a new one. -/
theorem contained_build (h : plan.Reachable) (hroot : plan.kind? 0 = some .global)
    (hk : plan.kind? m = some .media) :
    (∀ target d seed, m ∈ plan.ancestors target → (target = m → d.mixins = []) →
        Contained m (plan.hoisted target d seed) plan (left (plan.build target d seed)))
      ∧ ∀ name body seed texts, plan.child? 0 name = none →
          ¬ Contained m texts plan
              (left (plan.build m ⟨[("mixins", .block [(name, .block body)])]⟩ seed)) := by
  have horderly := orderly_of_reachable h hroot
  constructor
  · intro target d seed hm hd
    have hlt := lt_size_of_mem_ancestors hk hm
    have hne := horderly.rooted.ne_zero_of_mem_ancestors hk hm
    rw [hoisted, buildTrace, ← horderly.textsAt_root_build hlt hne]
    exact (Enclosed.ofBody horderly hk hm _ hd).contained
  · intro name body seed texts hc
    exact horderly.not_contained_mixin hk hc body seed texts

/-- A rule with a media block. -/
def printed : Plan :=
  left (empty.build 0 ⟨[("a", .block [("media", .list [.block [("print", .literal (.text "")),
    ("css", .block [("color", .literal (.text "red"))])]])])]⟩ .identity)

/-- Global text, a rule under `&` and mixins, before a value that is refused. -/
def nestedMixins : Descriptor :=
  ⟨[("atRules", .list [.literal (.text "@charset 'utf-8'")]),
    ("& b", .block [("top", .literal (.text "0")),
      ("mixins", .block [("c", .block [("left", .literal (.text "0"))])])]),
    ("right", .block [])]⟩

/-- What is built into the rule in the media block stays in the block, and so does what is built
into the block without mixins; a mixin that is built into the block does not. -/
theorem contained_build_printed :
    printed.kind? 0 = some .global ∧ printed.kind? 2 = some .media ∧ 2 ∈ printed.ancestors 3
      ∧ Contained 2 ["@charset 'utf-8';"] printed (left (printed.build 3 nestedMixins .identity))
      ∧ nestedMixins.mixins = []
      ∧ Contained 2 ["@charset 'utf-8';"] printed (left (printed.build 2 nestedMixins .identity))
      ∧ printed.child? 0 "body" = none
      ∧ ¬ Contained 2 [] printed
          (left (printed.build 2 ⟨[("mixins", .block [("body", .block [])])]⟩ .identity)) := by
  have hreachable : printed.Reachable := .build .empty Nat.one_pos _ _
  have hroot : printed.kind? 0 = some .global := by decide +kernel
  have hmedia : printed.kind? 2 = some .media := by decide +kernel
  have hin : 2 ∈ printed.ancestors 3 := by decide +kernel
  have hself : 2 ∈ printed.ancestors 2 := by decide +kernel
  have hmixins : nestedMixins.mixins = [] := by decide +kernel
  have hnew : printed.child? 0 "body" = none := by decide +kernel
  have htexts : ∀ target, target = 2 ∨ target = 3 →
      printed.hoisted target nestedMixins .identity = ["@charset 'utf-8';"] := by
    rintro _ (rfl | rfl) <;> decide +kernel
  obtain ⟨hcontained, hleaks⟩ := contained_build hreachable hroot hmedia
  have hrule := hcontained 3 nestedMixins .identity hin nofun
  have hblock := hcontained 2 nestedMixins .identity hself fun _ => hmixins
  rw [htexts _ (.inr rfl)] at hrule
  rw [htexts _ (.inl rfl)] at hblock
  exact ⟨hroot, hmedia, hin, hrule, hmixins, hblock, hnew, hleaks _ _ _ _ hnew⟩

/-- A descriptor of a single mixin. -/
def bareMixin : Descriptor :=
  ⟨[("mixins", .block [("body", .block [("margin", .literal (.text "0"))])])]⟩

/-- A mixin that is built right into a media block is entered under the root, and written after the
block. -/
theorem not_contained_build_mixin :
    printed.Reachable ∧ printed.kind? 0 = some .global ∧ printed.kind? 2 = some .media
      ∧ 2 ∈ printed.ancestors 2 ∧ printed.size = 4
      ∧ (left (printed.build 2 bareMixin .identity)).kind? 4 = some .mixin
      ∧ (left (printed.build 2 bareMixin .identity)).ancestors 4 = [4, 0]
      ∧ (left (printed.build 2 bareMixin .identity)).css
        = "@media (print)\x7b.a \x7bcolor:red\x7d\x7dbody \x7bmargin:0\x7d"
      ∧ ∀ texts, ¬ Contained 2 texts printed (left (printed.build 2 bareMixin .identity)) := by
  refine ⟨.build .empty Nat.one_pos _ _, by decide +kernel, by decide +kernel, by decide +kernel,
    by decide +kernel, by decide +kernel, by decide +kernel, by decide +kernel,
    fun texts hcontained => ?_⟩
  have hin := hcontained.inside 4 (by decide +kernel) (by decide +kernel)
  revert hin
  decide +kernel

end Plan

end Stylesheet
