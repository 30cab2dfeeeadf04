/-
Seeds that rename rules.

* `Descriptor.renameRules`: a descriptor with the names of its rules taken through a function;
* `Step.Renamed`: the same step but for its path, or the step of a rule under its new name;
* `Step.lockstep_renamed`: builds under a seed go along with builds that find the rules renamed;
* `Plan.eq_ok_iff_renameRules`: a seed that gives no reserved name does the same as renaming the
  rules beforehand;
* `Plan.keyed_iff_renameRules`: a keyed seed renames rules by the code of the key and the name.
-/
import Stylesheet.Proofs.Base64
import Stylesheet.Proofs.Build.Lockstep
import Stylesheet.Proofs.Build.Orderly
import Stylesheet.Sheet

namespace Stylesheet

open Directive

/-! ### Descriptors -/

namespace Descriptor

/-- A key with the name of a rule taken through a function. -/
def renameRule (rename : String → String) (key : String) : String :=
  if isReservedKey key then key else rename key

/-- A descriptor with the names of its rules taken through a function. Reserved keys stay. -/
def renameRules (rename : String → String) (d : Descriptor) : Descriptor :=
  ⟨d.entries.map fun e => (renameRule rename e.1, e.2)⟩

variable {rename : String → String} {d : Descriptor}

lemma keys_renameRules : (d.renameRules rename).keys = d.keys.map (renameRule rename) := by
  rw [keys, renameRules, List.map_map, keys, List.map_map]
  rfl

/-- Different keys stay different, if different names do and no name becomes a reserved key. -/
lemma renameRule_injective (hinj : Function.Injective rename)
    (hr : ∀ key, isReservedKey (rename key) = false) :
    Function.Injective (renameRule rename) := by
  intro k l h
  rw [renameRule, renameRule] at h
  split at h
  · rename_i hk
    split at h
    · exact h
    · rw [h, hr] at hk
      cases hk
  · split at h
    · rename_i hl
      rw [← h, hr] at hl
      cases hl
    · exact hinj h

end Descriptor

/-! ### Steps -/

namespace Step

open Plan

/-- The same step but for its path, or the step of a rule under its new name. -/
inductive Renamed (rename : String → String) : Step → Step → Prop where
  | rule {path path' key : String} {value : Value} (hk : isReservedKey key = false) :
      Renamed rename (.entry 0 path key value) (.entry 0 path' (rename key) value)
  | entry {id : Nat} {path path' key : String} {value : Value}
      (h : id = 0 → isReservedKey key = true) :
      Renamed rename (.entry id path key value) (.entry id path' key value)
  | keyframes {host : Nat} {rule : Keyframes} :
      Renamed rename (.keyframes host rule) (.keyframes host rule)
  | override {id : Nat} {mapping : Descriptor} :
      Renamed rename (.override id mapping) (.override id mapping)
  | mixin {host : Nat} {path path' name : String} {value : Value} :
      Renamed rename (.mixin host path name value) (.mixin host path' name value)
  | query {host : Nat} {selector path path' : String} {q : MediaQuery} :
      Renamed rename (.query host selector path q) (.query host selector path' q)
  | scope {r : Request} {path path' : String} {body : Descriptor} :
      Renamed rename (.scope r path body) (.scope r path' body)

variable {seed : Seed} {plan : Plan} {id : Nat} {path path' key : String} {value : Value}
  {rest : List Step} {rename : String → String}

lemma follows_ofQueries (host i : Nat) (selector path path' : String) (queries : List MediaQuery) :
    Follows NoIdle (Renamed rename) (ofQueries host selector path i queries)
      (ofQueries host selector path' i queries) := by
  induction queries generalizing i with
  | nil => exact .nil
  | cons q queries ih => exact .cons .query (ih (i + 1))

/-- A directive that is no rule does the same under every seed and every path. -/
lemma directiveEffect_renamed {d : Directive} (h : plan.Rooted)
    (hd : ∀ key value, d = .member key value → id ≠ 0) :
    EffectsAlike NoIdle (Renamed rename) (directiveEffect seed plan id path d)
      (directiveEffect .identity plan id path' d) := by
  cases d with
  | atRules rules => exact .bind_same rfl fun host _ => .performed _ .nil
  | keyframes rules =>
    exact .bind_same rfl fun host _ => .performed [] (.map fun _ _ => .keyframes)
  | mixins body => exact .bind_same rfl fun host _ => .performed [] (.map fun _ _ => .mixin)
  | media queries =>
    exact .bind_same rfl fun host _ => .performed [] (follows_ofQueries host 0 _ _ _ queries)
  | overrides mappings => exact .performed [] (.map fun _ _ => .override)
  | nested suffix body => exact .performed [] (.cons .scope .nil)
  | member key value =>
    have hk : plan.kind? id ≠ some .global :=
      fun hk => hd key value rfl (h.kind?_eq_global.1 hk)
    simp only [directiveEffect, memberEffect, if_neg hk]
    cases value.literal? with
    | none => exact .refused _ _
    | some l => exact .performed _ .nil

/-- A rule is built as a rule of its new name. -/
lemma effect_rule_renamed (h : plan.Rooted) (hk : isReservedKey key = false)
    (hk' : isReservedKey (seed.apply key) = false) :
    EffectsAlike NoIdle (Renamed seed.apply) ((entry 0 path key value).effect seed plan)
      ((entry 0 path' (seed.apply key) value).effect .identity plan) := by
  have hroot : plan.kind? 0 = some .global := h.kind?_eq_global.2 rfl
  have hmember : ∀ {key path}, isReservedKey key = false →
      classify key value path = .ok (.member key value) := fun hk =>
    classify_eq_ok.2 (.member (isReservedKey_eq_false.1 hk).1 (isReservedKey_eq_false.1 hk).2)
  simp only [effect, hmember hk, hmember hk']
  split
  · exact .performed [] .nil
  · simp only [bind, Except.bind, directiveEffect, memberEffect, if_pos hroot, blockOf]
    cases value.block? with
    | none => exact .refused _ _
    | some body => exact .performed [] (.cons .scope .nil)

/-- An entry that names no rule does the same under every seed and every path. -/
lemma effect_entry_renamed (h : plan.Rooted) (hk : id = 0 → isReservedKey key = true) :
    EffectsAlike NoIdle (Renamed rename) ((entry id path key value).effect seed plan)
      ((entry id path' key value).effect .identity plan) := by
  rw [effect, effect]
  split
  · exact .performed [] .nil
  · refine .bind_same (toOption_classify_path _ _ _ _) fun d hc => directiveEffect_renamed h ?_
    rintro key' value' rfl rfl
    cases classify_eq_ok.1 hc with
    | member hnone hs =>
      have hno := isReservedKey_eq_false.2 ⟨hnone, hs⟩
      rw [hk rfl] at hno
      cases hno

/-- Under a seed that gives no reserved name, a build goes along with one that finds the rules
renamed. -/
lemma lockstep_renamed
    (hr : ∀ key, isReservedKey key = false → isReservedKey (seed.apply key) = false) :
    Lockstep seed .identity NoIdle (Renamed seed.apply) Orderly where
  next _ _ _ _ _ h hd := h.performed hd
  skip _ _ hi := hi.elim
  alike step step' rest plan hs h := by
    have ht := h.targets step List.mem_cons_self
    cases hs with
    | rule hk => exact ⟨rfl, effect_rule_renamed h.rooted hk (hr _ hk)⟩
    | entry hk => exact ⟨rfl, effect_entry_renamed h.rooted hk⟩
    | keyframes => exact ⟨rfl, .bind_same rfl fun text _ => .performed _ .nil⟩
    | override => exact ⟨rfl, .bind_same rfl fun text _ => .performed _ .nil⟩
    | mixin =>
      refine ⟨rfl, ?_⟩
      rw [effect, effect]
      split
      · exact .performed [] .nil
      · exact .bind_same rfl fun body _ => .performed [] (.cons .scope .nil)
    | query => exact ⟨rfl, .performed [] (.cons .scope .nil)⟩
    | scope =>
      refine ⟨rfl, .performed [] (.map fun e _ => .entry fun h₀ => ?_)⟩
      exact absurd h₀ (h.rooted.wellFormed.answer_ne_zero _ ht)

lemma follows_renameRules (path path' : String) (d : Descriptor) :
    Follows NoIdle (Renamed rename) (ofBody 0 path d) (ofBody 0 path' (d.renameRules rename)) := by
  rw [ofBody, ofBody, Descriptor.renameRules, List.map_map]
  refine .map fun e _ => ?_
  rw [Function.comp, Descriptor.renameRule]
  split
  · rename_i hk
    exact .entry fun _ => hk
  · rename_i hk
    exact .rule (Bool.eq_false_iff.2 hk)

end Step

namespace Plan

variable {d : Descriptor}

/-- A seed that gives no reserved name does the same as renaming the rules beforehand. -/
lemma eq_ok_iff_renameRules (seed : Seed)
    (hr : ∀ key, isReservedKey key = false → isReservedKey (seed.apply key) = false) (plan : Plan) :
    ofDescriptor d seed = .ok plan
      ↔ ofDescriptor (d.renameRules seed.apply) .identity = .ok plan := by
  rw [ofDescriptor_eq_ok, ofDescriptor_eq_ok]
  exact ((Step.lockstep_renamed hr).sameOutcome (Step.follows_renameRules "" "" d)
    (.build d)).eq_ok_iff

lemma css_eq_ok_iff_renameRules (seed : Seed)
    (hr : ∀ key, isReservedKey key = false → isReservedKey (seed.apply key) = false)
    (css : String) :
    Sheet.css ⟨d, seed⟩ = .ok css ↔ Sheet.css ⟨d.renameRules seed.apply, .identity⟩ = .ok css := by
  simp only [Sheet.css, bind_eq_ok, Sheet.plan, eq_ok_iff_renameRules seed hr]

/-- **Keyed seeds rename rules**: a build behind a key is the build of the descriptor with the code
of the key and the name in the place of every name of a rule. The new names are different, and none
of them is reserved; either both builds succeed, with one plan and one stylesheet, or none. -/
theorem keyed_iff_renameRules (key : String) {d : Descriptor} (hd : d.keys.Nodup) :
    (d.renameRules fun name => Base64.encodeText (key ++ name)).keys.Nodup
      ∧ (∀ name ∈ d.keys, isReservedKey name = false →
          isReservedKey (Base64.encodeText (key ++ name)) = false)
      ∧ (∀ plan, ofDescriptor d (.keyed key) = .ok plan
          ↔ ofDescriptor (d.renameRules fun name => Base64.encodeText (key ++ name)) .identity
            = .ok plan)
      ∧ ∀ css, Sheet.css ⟨d, .keyed key⟩ = .ok css
          ↔ Sheet.css ⟨d.renameRules fun name => Base64.encodeText (key ++ name), .identity⟩
            = .ok css := by
  have hinj : Function.Injective fun name => Base64.encodeText (key ++ name) := fun k l h =>
    (String.append_right_inj key).1 (Base64.encodeText_injective h)
  have hreserved : ∀ name, isReservedKey (Base64.encodeText (key ++ name)) = false := fun name =>
    isReservedKey_encodeText (key ++ name)
  refine ⟨?_, fun name _ _ => hreserved name, ?_, ?_⟩
  · rw [Descriptor.keys_renameRules]
    exact hd.map (Descriptor.renameRule_injective hinj hreserved)
  · exact fun plan => eq_ok_iff_renameRules (.keyed key) (fun name _ => hreserved name) plan
  · exact fun css => css_eq_ok_iff_renameRules (.keyed key) (fun name _ => hreserved name) css

/-- Global text, a rule with a media query, and a mixin. -/
def banner : Descriptor :=
  ⟨[("atRules", .list [.literal (.text "@import url(base.css)")]),
    ("banner", .block [("color", .literal (.text "red")), ("media", .list [.block [
      ("print", .literal (.text "")), ("css", .block [("color", .literal (.text "black"))])]])]),
    ("mixins", .block [("body", .block [("margin", .literal (.text "0"))])])]⟩

/-- A build behind a key that succeeds, and the build of the descriptor with new names. -/
theorem keyed_iff_renameRules_banner :
    ∃ plan, ofDescriptor banner (.keyed "app") = .ok plan
      ∧ ofDescriptor (banner.renameRules fun name => Base64.encodeText ("app" ++ name)) .identity
        = .ok plan
      ∧ (plan.child? 0 ".YXBwYmFubmVy").isSome = true := by
  obtain ⟨plan, h, hplan⟩ := exists_ok_of_any (x := ofDescriptor banner (.keyed "app"))
    (p := fun plan => (plan.child? 0 ".YXBwYmFubmVy").isSome) (by decide +kernel)
  exact ⟨plan, h, ((keyed_iff_renameRules "app" (by decide)).2.2.1 plan).1 h, hplan⟩

end Plan

end Stylesheet
