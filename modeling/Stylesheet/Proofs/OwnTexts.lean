/-
The declarations that the entries of a body make in the body itself.

* `Directive.overrideTexts`, `entryTexts`: the declarations of a mapping of overrides, and of an
  entry of a body;
* `Descriptor.ownTexts`: those of a body;
* `Directive.ownTexts`, `entryTexts_of_classify`: an entry makes those of its directive.
-/
import Stylesheet.Proofs.Readings

namespace Stylesheet

/-- A mapping is no literal. -/
lemma Value.literal?_of_block? {value : Value} {body : Descriptor}
    (h : value.block? = some body) : value.literal? = none := by
  cases value with
  | block entries => rfl
  | _ => cases h

namespace Directive

/-- The declarations of a mapping of overrides: one, if it is flat and there is a literal in it. -/
def overrideTexts (mapping : Descriptor) : List String :=
  if mapping.Flat ∧ mapping.hasLiteral = true then [";".intercalate mapping.memberTexts] else []

/-- The declarations that an entry makes in the body it stands in, if that is no whole
descriptor. -/
def entryTexts (key : String) : Value → List String
  | .literal l => if isPlainKey key then [Declaration.propertyName key ++ ":" ++ l.css] else []
  | .list items => if key = "overrides" then (Value.mappings items).flatMap overrideTexts else []
  | _ => []

lemma entryTexts_of_isAbsent {key : String} {value : Value} (ha : value.isAbsent = true) :
    entryTexts key value = [] := by
  cases value with
  | absent => rfl
  | _ => cases ha

lemma overrideTexts_of_textOf {mapping : Descriptor} {text : String}
    (h : Declaration.textOf mapping = .ok text) :
    overrideTexts mapping = if text.isEmpty then [] else [text] := by
  obtain ⟨hflat, rfl⟩ := Declaration.textOf_eq_ok.1 h
  rw [overrideTexts, Descriptor.isEmpty_intercalate_memberTexts]
  simp only [hflat, true_and, List.isEmpty_iff, Descriptor.memberTexts_eq_nil]
  cases mapping.hasLiteral <;> rfl

lemma overrideTexts_of_error {mapping : Descriptor} {e : CompileError}
    (h : Declaration.textOf mapping = .error e) : overrideTexts mapping = [] := by
  refine if_neg fun hflat => ?_
  rw [Declaration.textOf_eq_ok.2 ⟨hflat.1, rfl⟩] at h
  cases h

/-- The declarations that a directive makes in the body it stands in, if that is no whole
descriptor. -/
def ownTexts : Directive → List String
  | .overrides mappings => mappings.flatMap overrideTexts
  | .member key value => value.literal?.toList.map (Declaration.text key)
  | _ => []

/-- No key is reserved and plain. -/
lemma isPlainKey_of_reserved {key : String} {reserved : Reserved}
    (hk : Reserved.ofKey? key = some reserved) : isPlainKey key = false := by
  rw [← Bool.not_eq_true, isPlainKey_eq_true, hk]
  exact fun h => nomatch h.1

/-- An entry makes the declarations of its directive. -/
lemma entryTexts_of_classify {key path : String} {value : Value} {d : Directive}
    (hc : classify key value path = .ok d) : entryTexts key value = d.ownTexts := by
  have hother : ∀ {reserved : Reserved}, Reserved.ofKey? key = some reserved →
      reserved ≠ .overrides → entryTexts key value = [] := fun {reserved} hk hne => by
    rw [entryTexts.eq_def]
    split
    · rw [isPlainKey_of_reserved hk]
      rfl
    · refine if_neg fun hkey => hne ?_
      rw [eq_key_of_ofKey? hk] at hkey
      revert hkey
      cases reserved <;> decide
    · rfl
  cases classify_eq_ok.1 hc with
  | atRules hk _ _ => exact hother hk nofun
  | keyframes hk _ => exact hother hk nofun
  | mixins hk _ => exact hother hk nofun
  | media hk _ => exact hother hk nofun
  | overrides hk hv hm =>
    obtain rfl := Value.list?_eq_some.1 hv
    have hkey : key = "overrides" := eq_key_of_ofKey? hk
    rw [entryTexts, if_pos hkey, mappings_of_mappingsOf hm, ownTexts]
  | nested _ _ _ hb =>
    rw [Value.block?_eq_some.1 hb]
    rfl
  | member hk hs =>
    rw [ownTexts, entryTexts.eq_def]
    split
    · rw [if_pos (isPlainKey_eq_true.2 ⟨hk, hs⟩)]
      rfl
    · exact if_neg (ne_key_of_ofKey? hk .overrides)
    · rename_i hl _
      cases value with
      | literal l => exact absurd rfl (hl l)
      | _ => rfl

end Directive

/-- The declarations that the entries of a body make in the body itself. -/
def Descriptor.ownTexts (body : Descriptor) : List String :=
  body.entries.flatMap fun e => Directive.entryTexts e.1 e.2

end Stylesheet
