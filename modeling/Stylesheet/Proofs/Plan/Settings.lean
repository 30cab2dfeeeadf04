/-
The settings of scopes.

* `Plan.setting`: the setting of the bodies that are built into a scope;
* `WellFormed.withinMedia_of_parent?`: a scope is in a media block if it is one, or the scope around
  it is in one;
* `Rooted.globalHost_eq_ok_zero`, `exists_mixinHost`, `mediaHost_eq`: which directives have a host,
  or why there is none;
* `Rooted.withinMedia_of_mixinHost`, `inner_setting_of_mixinHost`: mixins are hosted in the same
  media block, where bodies have the same setting;
* `Rooted.setting_answer`: the setting of what answers a request.

The grammar knows settings alone, a build asks for hosts. What is proved here is that a host is
found exactly where the setting has one.
-/
import Stylesheet.Proofs.Grammar
import Stylesheet.Proofs.Plan.Context

namespace Stylesheet.Plan

variable {plan later : Plan} {id host : Nat}

/-- The setting of the bodies that are built into a scope. -/
def setting (plan : Plan) (id : Nat) : Setting :=
  if id = 0 then .top else if plan.withinMedia id then .payload else .rule

lemma setting_eq_top : plan.setting id = .top ↔ id = 0 := by
  rw [setting]
  split
  · rename_i h₀
    exact ⟨fun _ => h₀, fun _ => rfl⟩
  · rename_i h₀
    constructor
    · split <;> exact nofun
    · exact fun h => absurd h h₀

/-! ### Media blocks around a scope -/

namespace WellFormed

variable (h : plan.WellFormed)

include h

lemma withinMedia_of_parent? {p : Nat} (hp : plan.parent? id = some p) :
    plan.withinMedia id = (decide (plan.kind? id = some .media) || plan.withinMedia p) := by
  rw [withinMedia, h.ancestors_of_parent? hp, List.any_cons, ← withinMedia]

/-- A scope and the nearest global or media scope around it are in the same media blocks. -/
lemma withinMedia_of_find? (hid : id < plan.size)
    (hf : (plan.ancestors id).find?
      (fun a => plan.kind? a = some .global ∨ plan.kind? a = some .media) = some host) :
    plan.withinMedia host = plan.withinMedia id := by
  induction id, hid using h.parent_induction with
  | root =>
    have hm := List.mem_of_find?_eq_some hf
    rw [h.ancestors_root] at hm
    rw [List.mem_singleton.1 hm]
  | under id p hid _ hp ih =>
    rw [h.ancestors_of_parent? hp, List.find?_cons] at hf
    split at hf
    · cases hf
      rfl
    · rename_i hn
      have hmedia : plan.kind? id ≠ some .media := fun hk => by simp [hk] at hn
      rw [ih hf, h.withinMedia_of_parent? hp, decide_eq_false hmedia, Bool.false_or]

end WellFormed

lemma Extends.withinMedia (h : plan.Extends later) (hid : id < plan.size) :
    later.withinMedia id = plan.withinMedia id := by
  have hkind : ∀ a ∈ plan.ancestors id, later.kind? a = plan.kind? a := fun a ha =>
    h.kind? (Nat.lt_of_le_of_lt (le_of_mem_ancestors ha) hid)
  rw [Plan.withinMedia, Plan.withinMedia, h.ancestors hid, Bool.eq_iff_iff, List.any_eq_true,
    List.any_eq_true]
  refine exists_congr fun a => and_congr_right fun ha => ?_
  rw [hkind a ha]

lemma Extends.setting (h : plan.Extends later) (hid : id < plan.size) :
    later.setting id = plan.setting id := by
  rw [Plan.setting, Plan.setting, h.withinMedia hid]

/-! ### Hosts -/

namespace Rooted

variable (h : plan.Rooted)

include h

lemma withinMedia_root : plan.withinMedia 0 = false := by
  have hk : plan.kind? 0 = some .global := h.kind?_eq_global.2 rfl
  rw [withinMedia, h.wellFormed.ancestors_root, List.any_cons, List.any_nil, hk]
  rfl

lemma inner_setting (id : Nat) :
    (plan.setting id).inner = if plan.withinMedia id then .payload else .rule := by
  rw [setting]
  split
  · rename_i h₀
    rw [h₀, h.withinMedia_root]
    rfl
  · split <;> rfl

/-- Global text has a host everywhere. -/
lemma globalHost_eq_ok_zero (hid : id < plan.size) (directive : Directive.Reserved) :
    plan.globalHost id directive = .ok 0 := by
  cases hh : plan.globalHost id directive with
  | ok host => rw [h.globalHost_eq_zero hh]
  | error e =>
    rw [globalHost] at hh
    split at hh
    · cases hh
    · rename_i hf
      have hroot := List.find?_eq_none.1 hf 0 (h.wellFormed.zero_mem_ancestors hid)
      simp [h.kind?_eq_global] at hroot

/-- Mixins have a host everywhere. -/
lemma exists_mixinHost (hid : id < plan.size) : ∃ host, plan.mixinHost id = .ok host := by
  rw [mixinHost]
  split
  · exact ⟨id, rfl⟩
  · rename_i hk
    have h₀ : 0 < id := Nat.pos_of_ne_zero fun h₀ => hk (.inl (h.kind?_eq_global.2 h₀))
    obtain ⟨p, hp, hlt⟩ := h.wellFormed.parent_lt h₀ hid
    split
    · exact ⟨_, rfl⟩
    · rename_i hf
      rw [h.wellFormed.ancestors_of_parent? hp, List.tail_cons] at hf
      have hroot := List.find?_eq_none.1 hf 0
        (h.wellFormed.zero_mem_ancestors (Nat.lt_trans hlt hid))
      simp [h.kind?_eq_global] at hroot

/-- Mixins are hosted in the media block that their scope is in, but for those that stand right in a
media block: they are hosted by the stylesheet. -/
lemma withinMedia_of_mixinHost (hid : id < plan.size)
    (hp : plan.kind? id = some .media → plan.parent? id = some 0)
    (hh : plan.mixinHost id = .ok host) :
    plan.withinMedia host = (plan.withinMedia id && !decide (plan.kind? id = some .media)) := by
  rcases mixinHost_eq_ok hh with ⟨rfl, hk⟩ | ⟨hg, _, hf⟩
  · have hm : plan.kind? host ≠ some .media := by rcases hk with hk | hk <;> simp [hk]
    rw [decide_eq_false hm, Bool.not_false, Bool.and_true]
  · have h₀ : 0 < id := Nat.pos_of_ne_zero fun h₀ => hg (h.kind?_eq_global.2 h₀)
    obtain ⟨p, hparent, hlt⟩ := h.wellFormed.parent_lt h₀ hid
    rw [h.wellFormed.ancestors_of_parent? hparent, List.tail_cons] at hf
    rw [h.wellFormed.withinMedia_of_find? (Nat.lt_trans hlt hid) hf,
      h.wellFormed.withinMedia_of_parent? hparent]
    by_cases hk : plan.kind? id = some .media
    · rw [hp hk, Option.some.injEq] at hparent
      rw [← hparent, h.withinMedia_root, decide_eq_true hk]
      rfl
    · rw [decide_eq_false hk, Bool.false_or, Bool.not_false, Bool.and_true]

/-- The bodies of mixins have the setting of other bodies in the scope, unless that is a media
block. -/
lemma inner_setting_of_mixinHost (hid : id < plan.size) (hk : plan.kind? id ≠ some .media)
    (hh : plan.mixinHost id = .ok host) :
    (plan.setting host).inner = (plan.setting id).inner := by
  rw [h.inner_setting, h.inner_setting,
    h.withinMedia_of_mixinHost hid (fun hm => absurd hm hk) hh, decide_eq_false hk, Bool.not_false,
    Bool.and_true]

/-- What the request for a media block comes to is a matter of the setting. -/
lemma mediaHost_eq (hid : id < plan.size) :
    plan.mediaHost id = match plan.setting id with
      | .top => .error (.orphanedScope .media .rule)
      | .rule => .ok 0
      | .payload => .error (.unsupportedNesting .media) := by
  rw [mediaHost, setting]
  by_cases h₀ : id = 0
  · have hk : plan.kind? id = some .global := h.kind?_eq_global.2 h₀
    rw [if_pos h₀, h₀, h.withinMedia_root, ← h₀, if_neg Bool.false_ne_true, if_pos hk]
  · have hk : plan.kind? id ≠ some .global := fun hk => h₀ (h.kind?_eq_global.1 hk)
    rw [if_neg h₀]
    cases plan.withinMedia id with
    | true => rfl
    | false =>
      rw [if_neg Bool.false_ne_true, if_neg Bool.false_ne_true, if_neg hk,
        h.globalHost_eq_ok_zero hid]

/-- Media blocks have a host exactly in the setting of rules. -/
lemma exists_mediaHost (hid : id < plan.size) :
    (∃ host, plan.mediaHost id = .ok host) ↔ plan.setting id = .rule := by
  rw [h.mediaHost_eq hid]
  cases plan.setting id with
  | top => exact iff_of_false nofun nofun
  | rule => exact iff_of_true ⟨0, rfl⟩ rfl
  | payload => exact iff_of_false nofun nofun

/-! ### Answers -/

lemma withinMedia_answer {r : Request} (hr : r.host < plan.size) :
    (plan.enter r).withinMedia (plan.answer r)
      = (decide ((plan.enter r).kind? (plan.answer r) = some .media)
        || plan.withinMedia r.host) := by
  rw [(h.wellFormed.enter hr).withinMedia_of_parent? (h.wellFormed.parent?_answer r),
    (extends_enter r).withinMedia hr]

/-- What answers a request is in the setting that bodies have in the host, unless it is a media
block. -/
lemma setting_answer {r : Request} (hr : r.host < plan.size)
    (hk : (plan.enter r).kind? (plan.answer r) ≠ some .media) :
    (plan.enter r).setting (plan.answer r) = (plan.setting r.host).inner := by
  rw [setting, if_neg (h.wellFormed.answer_ne_zero r hr), h.withinMedia_answer hr,
    decide_eq_false hk, Bool.false_or, h.inner_setting]

/-- A media block that answers a request is in the setting of payloads. -/
lemma setting_answer_media {r : Request} (hr : r.host < plan.size)
    (hk : (plan.enter r).kind? (plan.answer r) = some .media) :
    (plan.enter r).setting (plan.answer r) = .payload := by
  rw [setting, if_neg (h.wellFormed.answer_ne_zero r hr), h.withinMedia_answer hr,
    decide_eq_true hk, Bool.true_or, if_pos rfl]

end Rooted

end Stylesheet.Plan
