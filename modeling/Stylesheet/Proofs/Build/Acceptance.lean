/-
What a build accepts.

* `Step.AvoidsPreludes`: nothing that a step has to build is named like a prelude;
* `Plan.Tidy`: an orderly build in which only media blocks are named by preludes, and no body is
  built into one;
* `Tidy.performed`: builds stay tidy;
* `Step.Fits`: what a step has to build is well formed in a setting;
* `Step.Does.fits_iff`: a step that is performed fits exactly if all that it leaves behind does;
* `Tidy.exists_does`: a step that fits can be performed;
* `Tidy.exists_run_iff`, `Plan.exists_ofDescriptor_iff`: a run finishes exactly if all of its agenda
  fits, and a descriptor is built exactly if it is well formed.

A build refuses by the kinds of scopes, the grammar by settings. They agree as long as every request
is answered in a setting that the grammar knows of, so names that lead into media blocks are
excluded.
-/
import Stylesheet.Proofs.Build.Orderly
import Stylesheet.Proofs.Names
import Stylesheet.Proofs.Plan.Settings

namespace Stylesheet

namespace Step

open Plan

variable {seed : Seed} {plan : Plan} {step : Step} {writes : List (Nat × String)}
  {more : List Step}

/-! ### Names -/

/-- Nothing that a step has to build is named like a prelude. -/
def AvoidsPreludes : Step → Prop
  | .entry _ _ key value =>
    ∀ path d, Directive.classify key value path = .ok d → d.AvoidsPreludes
  | .mixin _ _ name value =>
    ¬ MediaQuery.IsPreludeLike name ∧ ∀ body, value.block? = some body → body.AvoidsPreludes
  | .query _ _ _ q => q.css.AvoidsPreludes
  | .scope r _ body =>
    (r.kind = .mixin ∨ r.kind = .nested → ¬ MediaQuery.IsPreludeLike r.fragment)
      ∧ body.AvoidsPreludes
  | _ => True

lemma avoidsPreludes_of_mem_ofBody {id : Nat} {path : String} {body : Descriptor}
    (h : body.AvoidsPreludes) (hs : step ∈ ofBody id path body) : step.AvoidsPreludes := by
  obtain ⟨e, he, rfl⟩ := List.mem_map.1 hs
  exact fun path d hc => h.of_classify he hc

lemma DirectiveDoes.avoidsPreludes {id : Nat} {path : String} {d : Directive}
    (hd : DirectiveDoes seed plan id path d writes more) (h : d.AvoidsPreludes) :
    ∀ s ∈ more, s.AvoidsPreludes := by
  cases hd with
  | keyframes hh =>
    intro s hs
    obtain ⟨rule, _, rfl⟩ := List.mem_map.1 hs
    exact trivial
  | mixins hh =>
    intro s hs
    obtain ⟨e, he, rfl⟩ := List.mem_map.1 hs
    exact ⟨h.names _ (List.mem_map_of_mem he),
      fun body hb => h.bodies body (List.mem_filterMap.2 ⟨e, he, hb⟩)⟩
  | media hh =>
    rw [forall_mem_ofQueries fun _ _ => Iff.rfl]
    exact fun q hq => h.bodies _ (List.mem_map_of_mem hq)
  | overrides =>
    intro s hs
    obtain ⟨m, _, rfl⟩ := List.mem_map.1 hs
    exact trivial
  | nested =>
    exact List.forall_mem_singleton.2 ⟨fun _ => h.names _ (List.mem_singleton_self _),
      h.bodies _ (List.mem_singleton_self _)⟩
  | rule hk hb =>
    exact List.forall_mem_singleton.2
      ⟨fun hr => hr.elim nofun nofun, h.bodies _ (Option.mem_toList.2 hb)⟩
  | _ => exact List.forall_mem_nil _

/-- What a step leaves behind avoids the preludes that the step avoids. -/
lemma Does.avoidsPreludes (hd : Does seed plan step writes more) (h : step.AvoidsPreludes) :
    ∀ s ∈ more, s.AvoidsPreludes := by
  cases hd with
  | entry ha hc hd => exact hd.avoidsPreludes (h _ _ hc)
  | mixin hb => exact List.forall_mem_singleton.2 ⟨fun _ => h.1, h.2 _ hb⟩
  | query =>
    exact List.forall_mem_singleton.2 ⟨fun hr => hr.elim nofun nofun, h⟩
  | scope => exact fun s hs => avoidsPreludes_of_mem_ofBody h.2 hs
  | _ => exact List.forall_mem_nil _

/-! ### Entries -/

lemma DirectiveDoes.entry_not_mem {i id : Nat} {path p key : String} {d : Directive}
    {value : Value} (hd : DirectiveDoes seed plan i path d writes more) :
    .entry id p key value ∉ more := by
  intro hs
  cases hd with
  | media hh =>
    obtain ⟨_, _, he⟩ := eq_query_of_mem_ofQueries hs
    cases he
  | nested => cases List.mem_singleton.1 hs
  | rule hk hb => cases List.mem_singleton.1 hs
  | keyframes hh =>
    obtain ⟨_, _, he⟩ := List.mem_map.1 hs
    cases he
  | mixins hh =>
    obtain ⟨_, _, he⟩ := List.mem_map.1 hs
    cases he
  | overrides =>
    obtain ⟨_, _, he⟩ := List.mem_map.1 hs
    cases he
  | _ => cases hs

/-- Entries are left behind only by a step that builds a body, for the scope that answers it. -/
lemma Does.scope_of_entry_mem {id : Nat} {path key : String} {value : Value}
    (hd : Does seed plan step writes more) (hs : .entry id path key value ∈ more) :
    ∃ r p body, step = .scope r p body ∧ id = plan.answer r := by
  cases hd with
  | entry ha hc hd => exact absurd hs hd.entry_not_mem
  | mixin hb => cases List.mem_singleton.1 hs
  | query => cases List.mem_singleton.1 hs
  | scope => exact ⟨_, _, _, rfl, target_of_mem_ofBody hs⟩
  | _ => cases hs

/-! ### Settings -/

/-- What a step has to build is well formed, where the scope that it is about has a setting. -/
def Fits (setting : Setting) : Step → Prop
  | .entry _ _ key value => value.isAbsent = false → Grammar.Entry setting key value
  | .keyframes _ rule => rule.Flat
  | .override _ mapping => mapping.Flat
  | .mixin _ _ _ value => Grammar.Mixin setting value
  | .query _ _ _ q => Grammar.Body .payload q.css.entries
  | .scope _ _ body => Grammar.Body setting.inner body.entries

/-- The steps of a body fit exactly if the body is well formed in the setting of its scope. -/
lemma fits_ofBody {setting : Nat → Setting} {id : Nat} {path : String} {body : Descriptor} :
    (∀ s ∈ ofBody id path body, s.Fits (setting s.target))
      ↔ Grammar.Body (setting id) body.entries := by
  rw [Grammar.body_iff, ofBody, List.forall_mem_map]
  rfl

lemma DirectiveDoes.fits_iff {id : Nat} {path : String} {d : Directive} (h : plan.Rooted)
    (hid : id < plan.size) (hk : plan.kind? id ≠ some .media)
    (hd : DirectiveDoes seed plan id path d writes more) :
    d.Fits (plan.setting id) ↔ ∀ s ∈ more, s.Fits (plan.setting s.target) := by
  cases hd with
  | atRules hh => exact iff_of_true trivial (List.forall_mem_nil _)
  | keyframes hh =>
    rw [List.forall_mem_map]
    rfl
  | mixins hh =>
    rw [List.forall_mem_map, Directive.Fits]
    refine forall₂_congr fun e _ => ?_
    rw [Fits, target, Grammar.Mixin, Grammar.Mixin, h.inner_setting_of_mixinHost hid hk hh]
  | media hh =>
    have hrule := (h.exists_mediaHost hid).1 ⟨_, hh⟩
    rw [forall_mem_ofQueries fun _ _ => Iff.rfl, Directive.Fits, and_iff_right hrule]
  | overrides =>
    rw [List.forall_mem_map]
    rfl
  | nested =>
    rw [List.forall_mem_singleton]
    rfl
  | rule hg hb =>
    have htop : plan.setting id = .top := setting_eq_top.2 (h.kind?_eq_global.1 hg)
    rw [List.forall_mem_singleton, Directive.Fits, if_pos htop, Fits, target, htop]
    constructor
    · rintro ⟨body, hb', hbody⟩
      rw [hb] at hb'
      cases hb'
      exact hbody
    · exact fun hbody => ⟨_, hb, hbody⟩
  | declaration hg hl =>
    have htop : plan.setting id ≠ .top := fun ht => hg (h.kind?_eq_global.2 (setting_eq_top.1 ht))
    rw [Directive.Fits, if_neg htop]
    exact iff_of_true ⟨_, hl⟩ (List.forall_mem_nil _)

/-- What a directive has to build is built, if it is well formed. -/
lemma exists_directiveDoes {id : Nat} {path : String} {d : Directive} (h : plan.Rooted)
    (hid : id < plan.size) (hf : d.Fits (plan.setting id)) :
    ∃ writes more, DirectiveDoes seed plan id path d writes more := by
  cases d with
  | atRules rules => exact ⟨_, _, .atRules (h.globalHost_eq_ok_zero hid _)⟩
  | keyframes rules => exact ⟨_, _, .keyframes (h.globalHost_eq_ok_zero hid _)⟩
  | mixins body =>
    obtain ⟨host, hh⟩ := h.exists_mixinHost hid
    exact ⟨_, _, .mixins hh⟩
  | media queries =>
    obtain ⟨host, hh⟩ := (h.exists_mediaHost hid).2 hf.1
    exact ⟨_, _, .media hh⟩
  | overrides mappings => exact ⟨_, _, .overrides⟩
  | nested suffix body => exact ⟨_, _, .nested⟩
  | member key value =>
    rw [Directive.Fits] at hf
    split at hf
    · rename_i ht
      obtain ⟨body, hb, _⟩ := hf
      exact ⟨_, _, .rule (h.kind?_eq_global.2 (setting_eq_top.1 ht)) hb⟩
    · rename_i ht
      obtain ⟨l, hl⟩ := hf
      exact ⟨_, _, .declaration (fun hg => ht (setting_eq_top.2 (h.kind?_eq_global.1 hg))) hl⟩

end Step

namespace Plan

variable {seed : Seed} {plan : Plan} {step : Step} {agenda rest more : List Step}
  {writes : List (Nat × String)}

/-! ### Tidy builds -/

/-- The scopes right under the root that are named like preludes are media blocks. -/
def PreludesAreMedia : Plan → Prop :=
  ForallHeadings fun kind fragment parent =>
    parent = some 0 → MediaQuery.IsPreludeLike fragment → kind = .media

/-- An orderly build in which only media blocks are named like preludes, and in which no entry is
built into one. -/
structure Tidy (agenda : List Step) (plan : Plan) : Prop extends Orderly agenda plan where
  avoids : ∀ step ∈ agenda, step.AvoidsPreludes
  preludes : plan.PreludesAreMedia
  entries : ∀ id path key value, .entry id path key value ∈ agenda →
    plan.kind? id ≠ some .media

namespace Tidy

lemma build {d : Descriptor} (hd : d.AvoidsPreludes) : Tidy (Step.ofBody 0 "" d) empty where
  toOrderly := .build d
  avoids step hs := Step.avoidsPreludes_of_mem_ofBody hd hs
  preludes id kind fragment parent hid hp := by
    cases id with
    | zero =>
      cases hid
      cases hp
    | succ id => cases hid
  entries id path key value hs := by
    rw [show id = 0 from Step.target_of_mem_ofBody hs]
    exact nofun

/-- Of the scopes right under the root, a body is asked for only under another name than a
prelude. -/
lemma not_isPreludeLike {r : Request} {path : String} {body : Descriptor}
    (h : Tidy (.scope r path body :: rest) plan) (hr : r.host = 0) :
    ¬ MediaQuery.IsPreludeLike r.fragment := by
  have ha := (h.avoids _ List.mem_cons_self).1
  rcases h.regular _ List.mem_cons_self with hk | hk | ⟨_, hhost | ⟨name, hn⟩⟩
  · exact ha (.inl hk)
  · exact ha (.inr hk)
  · exact absurd hr hhost
  · rw [hn]
    exact MediaQuery.not_isPreludeLike_class name

/-- No request for a body is answered by a media block. -/
lemma kind?_answer_ne_media {r : Request} {path : String} {body : Descriptor}
    (h : Tidy (.scope r path body :: rest) plan) :
    (plan.enter r).kind? (plan.answer r) ≠ some .media := by
  intro hk
  obtain ⟨hr, _, q, hq⟩ := h.answered_by_media hk
  exact h.not_isPreludeLike hr (hq ▸ MediaQuery.isPreludeLike_target q)

lemma preludesAreMedia_grant (h : Tidy (step :: rest) plan) :
    (plan.grant step.request?).PreludesAreMedia := by
  cases step with
  | query host selector path q => exact h.preludes.enter fun _ _ => rfl
  | scope r path body =>
    exact h.preludes.enter fun hr hlike =>
      absurd hlike (h.not_isPreludeLike (Option.some.inj hr))
  | _ => exact h.preludes

/-- The request of a query is answered by a media block. -/
lemma kind?_answer_query {host : Nat} {selector path : String} {q : MediaQuery}
    (h : Tidy (.query host selector path q :: rest) plan) :
    (plan.enter ⟨host, .media, q.target⟩).kind? (plan.answer ⟨host, .media, q.target⟩)
      = some .media := by
  obtain rfl : host = 0 := h.regular _ List.mem_cons_self
  have hw := h.rooted.wellFormed
  obtain ⟨kind, _, hk, _⟩ := exists_kind_fragment (hw.answer_lt ⟨0, .media, q.target⟩)
  have hheading := heading?_eq_some hk (hw.fragment?_answer _) (hw.parent?_answer _)
  rw [hk, h.preludesAreMedia_grant _ _ _ _ hheading rfl (MediaQuery.isPreludeLike_target q)]

/-- After a step that was performed, a build is as tidy as before. -/
lemma performed (h : Tidy (step :: rest) plan) (hd : Step.Does seed plan step writes more) :
    Tidy (more ++ rest) (plan.after step writes) where
  toOrderly := h.toOrderly.performed hd
  avoids s hs := by
    rcases List.mem_append.1 hs with hs | hs
    · exact hd.avoidsPreludes (h.avoids step List.mem_cons_self) s hs
    · exact h.avoids s (List.mem_cons_of_mem _ hs)
  preludes := h.preludesAreMedia_grant.declareAll writes
  entries id path key value hs := by
    rw [after, kind?_declareAll]
    rcases List.mem_append.1 hs with hs | hs
    · obtain ⟨r, path, body, rfl, hid⟩ := hd.scope_of_entry_mem hs
      rw [hid]
      exact h.kind?_answer_ne_media
    · have hs' := List.mem_cons_of_mem step hs
      have hid : id < plan.size := h.targets _ hs'
      rw [(extends_grant step.request?).kind? hid]
      exact h.entries id path key value hs'

/-! ### What fits -/

/-- A step that is performed fits exactly if all that it leaves behind does. -/
lemma fits_iff (h : Tidy (step :: rest) plan) (hd : Step.Does seed plan step writes more) :
    step.Fits (plan.setting step.target)
      ↔ ∀ s ∈ more, s.Fits ((plan.grant step.request?).setting s.target) := by
  have ht := h.targets step List.mem_cons_self
  cases hd with
  | absentEntry ha =>
    exact iff_of_true (fun hf => absurd (ha.symm.trans hf) (by decide)) (List.forall_mem_nil _)
  | entry ha hc hd =>
    have hk := h.entries _ _ _ _ List.mem_cons_self
    refine Iff.trans ?_ (hd.fits_iff h.rooted ht hk)
    constructor
    · intro hf
      obtain ⟨d, hc', hfits⟩ := (Grammar.entry_iff _).1 (hf ha)
      rw [hc] at hc'
      cases hc'
      exact hfits
    · exact fun hfits _ => (Grammar.entry_iff _).2 ⟨_, hc, hfits⟩
  | keyframes hr => exact iff_of_true (Keyframes.exists_css.1 ⟨_, hr⟩) (List.forall_mem_nil _)
  | override htext =>
    exact iff_of_true (Descriptor.exists_textOf.1 ⟨_, htext⟩) (List.forall_mem_nil _)
  | absentMixin ha =>
    exact iff_of_true (fun hf => absurd (ha.symm.trans hf) (by decide)) (List.forall_mem_nil _)
  | mixin hb =>
    rw [List.forall_mem_singleton]
    constructor
    · intro hf
      obtain ⟨body, hb', hbody⟩ := hf (Value.isAbsent_of_block? hb)
      rw [hb] at hb'
      cases hb'
      exact hbody
    · exact fun hbody _ => ⟨_, hb, hbody⟩
  | @query host selector path q =>
    have hs := h.rooted.setting_answer_media (r := ⟨host, .media, q.target⟩) ht h.kind?_answer_query
    rw [List.forall_mem_singleton, Step.request?, grant, Step.target, Step.target, Step.Fits,
      Step.Fits, hs]
    rfl
  | @scope r path body =>
    have hs := h.rooted.setting_answer (r := r) ht h.kind?_answer_ne_media
    rw [Step.request?, grant, Step.fits_ofBody, hs]
    rfl

/-- A step that fits can be performed. -/
lemma exists_does (seed : Seed) (h : Tidy (step :: rest) plan)
    (hf : step.Fits (plan.setting step.target)) :
    ∃ writes more, Step.Does seed plan step writes more := by
  cases step with
  | entry id path key value =>
    cases ha : value.isAbsent with
    | true => exact ⟨_, _, .absentEntry ha⟩
    | false =>
      obtain ⟨d, hc, hfits⟩ := (Grammar.entry_iff (Path.child path key)).1 (hf ha)
      have hid : id < plan.size := h.targets _ List.mem_cons_self
      obtain ⟨writes, more, hd⟩ := Step.exists_directiveDoes h.rooted hid hfits
      exact ⟨writes, more, .entry ha hc hd⟩
  | keyframes host rule =>
    obtain ⟨text, hr⟩ := Keyframes.exists_css.2 hf
    exact ⟨_, _, .keyframes hr⟩
  | override id mapping =>
    obtain ⟨text, ht⟩ := Descriptor.exists_textOf.2 hf
    exact ⟨_, _, .override ht⟩
  | mixin host path name value =>
    cases ha : value.isAbsent with
    | true => exact ⟨_, _, .absentMixin ha⟩
    | false =>
      obtain ⟨body, hb, _⟩ := hf ha
      exact ⟨_, _, .mixin hb⟩
  | query host selector path q => exact ⟨_, _, .query⟩
  | scope r path body => exact ⟨_, _, .scope⟩

/-- A run finishes exactly if all of its agenda fits. -/
lemma exists_run_iff (seed : Seed) (h : Tidy agenda plan) :
    (∃ final, run seed agenda plan = .ok final)
      ↔ ∀ step ∈ agenda, step.Fits (plan.setting step.target) := by
  induction agenda, plan using run_induction seed with
  | nil plan => exact iff_of_true ⟨plan, run_nil⟩ (List.forall_mem_nil _)
  | refused step rest plan e he =>
    rw [run_refused he]
    refine iff_of_false nofun fun hf => ?_
    obtain ⟨writes, more, hd⟩ := h.exists_does seed (hf step List.mem_cons_self)
    rw [perform_of_effect hd.effect] at he
    cases he
  | performed step rest plan writes more he hd ih =>
    have hext : (plan.grant step.request?).Extends (plan.after step writes) :=
      extends_declareAll writes
    have hmore : ∀ s ∈ more, (plan.after step writes).setting s.target
        = (plan.grant step.request?).setting s.target := fun s hs =>
      hext.setting ((hd.targets h.rooted.wellFormed (h.targets step List.mem_cons_self)).2 s hs)
    have hrest : ∀ s ∈ rest, (plan.after step writes).setting s.target
        = plan.setting s.target := fun s hs =>
      (extends_after plan step writes).setting (h.targets s (List.mem_cons_of_mem _ hs))
    rw [run_performed he, ih (h.performed hd), List.forall_mem_append, List.forall_mem_cons,
      h.fits_iff hd]
    refine and_congr (forall₂_congr fun s hs => ?_) (forall₂_congr fun s hs => ?_)
    · rw [hmore s hs]
    · rw [hrest s hs]

end Tidy

/-- **Acceptance**: if none of its mixins is named, and none of its bodies under `&` suffixed, as
preludes begin, a descriptor is built exactly if it is well formed, whatever the seed. -/
theorem exists_ofDescriptor_iff {d : Descriptor} (seed : Seed) (hd : d.AvoidsPreludes) :
    (∃ plan, ofDescriptor d seed = .ok plan) ↔ Grammar.Body .top d.entries := by
  have hroot : empty.setting 0 = .top := setting_eq_top.2 rfl
  rw [← hroot, ← Step.fits_ofBody, ← (Tidy.build hd).exists_run_iff seed]
  exact exists_congr fun plan => ofDescriptor_eq_ok

/-- A descriptor with an entry of every kind. -/
def almanac : Descriptor :=
  ⟨[("atRules", .list [.literal (.text "@import url(base.css)"), .absent]),
    ("keyframes", .list [.block [("name", .literal (.text "fade")), ("steps", .list [
      .block [("percentage", .literal (.text "50%")),
        ("css", .block [("opacity", .literal (.text "0"))])]])]]),
    ("page", .block [
      ("color", .literal (.text "black")),
      ("&:hover", .block [("overrides", .list [.block [("margin", .literal (.text "0"))]])]),
      ("media", .list [.block [("print", .literal (.text "")), ("css", .block [
        ("mixins", .block [("a", .block [("top", .literal (.text "0"))])])])]])]),
    ("& > ul", .block [("mixins", .block [("li", .block [("left", .literal (.text "0"))])])]),
    ("note", .absent)]⟩

/-- A descriptor with an entry of every kind is built, so that it is well formed. -/
theorem body_almanac : Grammar.Body .top almanac.entries := by
  obtain ⟨plan, h, _⟩ : ∃ plan, ofDescriptor almanac .identity = .ok plan ∧ _ :=
    exists_ok_of_any (p := fun plan => plan.size = 8) (by decide +kernel)
  exact (exists_ofDescriptor_iff .identity (by decide +kernel)).1 ⟨plan, h⟩

end Plan

end Stylesheet
