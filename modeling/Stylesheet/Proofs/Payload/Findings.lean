/-
What is wrong with payloads, and where.

* `Payload.Finding`: a location in a payload and what is wrong there;
* `MediaQuery.findings`, `Keyframes.findings`: everything that is wrong with a query and with a
  keyframes rule; `listFindings`: with a list of them;
* `Payload.JustifiedBy`: a payload is read if nothing is found in it, and else refused at one of the
  findings;
* `MediaQuery.read_justified`, `Keyframes.read_justified`, `Payload.readList_justified`: queries and
  rules, and lists of them, are read and refused so;
* `Payload.locates_of_mem_ofList`, `MediaQuery.locates_of_mem_findings`,
  `Keyframes.locates_of_mem_findings`: findings are at values of the payload, or at keys that are
  missing in its mappings.

Absent items of a list have no findings, and count in the locations of the others.
-/
import Stylesheet.Payload.Keyframes
import Stylesheet.Payload.MediaQuery
import Stylesheet.Proofs.Location
import Stylesheet.Proofs.Payload.Classification

namespace Stylesheet

/-! ### Findings -/

namespace Payload

/-- Something that is wrong with a payload, and where in it. -/
structure Finding where
  location : Location
  cause : Cause
  deriving DecidableEq, Repr

/-- A finding in a part of a payload, as one in the payload. -/
def Finding.under (s : Segment) (f : Finding) : Finding :=
  ⟨s :: f.location, f.cause⟩

/-- A finding as a fault of a payload that is at a path. -/
def Finding.fault (path : String) (f : Finding) : Fault :=
  ⟨path ++ f.location.suffix, f.cause⟩

/-- The findings in the items of a list that are there, from position `i` on. -/
def ofItems (own : Value → List Finding) : Nat → List Value → List Finding
  | _, [] => []
  | i, v :: rest =>
    (if v.isAbsent then [] else (own v).map (Finding.under (.item i))) ++ ofItems own (i + 1) rest

/-- The findings in a value that must be a list. -/
def ofList (part : Part) (own : Value → List Finding) (value : Value) : List Finding :=
  match value.list? with
  | none => [⟨[], .misshapen part value.shape⟩]
  | some items => ofItems own 0 items

end Payload

open Payload

namespace MediaQuery

/-- What is wrong with an entry of a query: its body must be a mapping, and every feature a literal.
-/
def entryFindings (key : String) (value : Value) : List Finding :=
  if key = cssKey then
    match value.block? with
    | some _ => []
    | none => [⟨[.key key], .misshapen .ruleBody value.shape⟩]
  else
    match value with
    | .absent => []
    | .literal _ => []
    | other => [⟨[.key key], .featureNotLiteral other.shape⟩]

/-- What is wrong with a query: it must be a mapping with a body. -/
def findings (value : Value) : List Finding :=
  match value.block? with
  | none => [⟨[], .misshapen .mediaQuery value.shape⟩]
  | some q =>
    (q.entries.flatMap fun e => entryFindings e.1 e.2)
      ++ if cssKey ∈ q.keys then [] else [⟨[], .queryWithoutCss⟩]

/-- What is wrong with a list of queries. -/
def listFindings (value : Value) : List Finding :=
  ofList .mediaList findings value

end MediaQuery

namespace Keyframes

/-- What is wrong under a key of a step: what is there must be a mapping. -/
def mappingFindings (step : Descriptor) (key : String) : List Finding :=
  match step.get? key with
  | none => []
  | some .absent => []
  | some (.block _) => []
  | some other => [⟨[.key key], .misshapen .propertyMapping other.shape⟩]

/-- Whether a step has nothing under a key. -/
def lacks (step : Descriptor) (key : String) : Bool :=
  match step.get? key with
  | none => true
  | some value => value.isAbsent

/-- What is wrong with a step: a percentage must have a body, and any other step one for either end.
-/
def stepFindings (value : Value) : List Finding :=
  match value.block? with
  | none => [⟨[], .misshapen .keyframesStep value.shape⟩]
  | some step =>
    match step.literal? "percentage" with
    | some _ =>
      mappingFindings step "css" ++ if lacks step "css" then [⟨[], .percentageWithoutCss⟩] else []
    | none =>
      mappingFindings step "from" ++ mappingFindings step "to"
        ++ if lacks step "from" || lacks step "to" then [⟨[], .stepIncomplete⟩] else []

/-- What is wrong with a rule: it must be a mapping with a name and a list of steps. -/
def findings (value : Value) : List Finding :=
  match value.block? with
  | none => [⟨[], .misshapen .keyframesRule value.shape⟩]
  | some rule =>
    (if (name? rule).isNone then [⟨[], .ruleWithoutName⟩] else [])
      ++ match (rule.get? "steps").bind Value.list? with
        | none => [⟨[.key "steps"], .ruleWithoutSteps⟩]
        | some items => (ofItems stepFindings 0 items).map (Finding.under (.key "steps"))

/-- What is wrong with a list of rules. -/
def listFindings (value : Value) : List Finding :=
  ofList .keyframesList findings value

end Keyframes

/-! ### Reading -/

namespace Payload

variable {α β : Type} {path : String} {fs gs : List Finding} {x : Except Fault α}

/-- A payload at a path is read if there are no findings, and else refused at one of them. -/
def JustifiedBy (path : String) (fs : List Finding) : Except Fault α → Prop
  | .ok _ => fs = []
  | .error fault => ∃ f ∈ fs, f.fault path = fault

lemma fault_nil (path : String) (cause : Cause) :
    (⟨[], cause⟩ : Finding).fault path = ⟨path, cause⟩ := by
  have htext : path ++ Location.suffix [] = path := String.append_empty
  rw [Finding.fault, htext]

lemma fault_key (path key : String) (cause : Cause) :
    (⟨[.key key], cause⟩ : Finding).fault path = ⟨Path.field path key, cause⟩ := by
  rw [Finding.fault, Location.field_eq]

lemma fault_under (path : String) (s : Segment) (f : Finding) :
    (f.under s).fault path = f.fault (path ++ Location.suffix [s]) := by
  rw [Finding.fault, Finding.under, Finding.fault, ← List.singleton_append, Location.suffix_append,
    String.append_assoc]

/-- A refusal at the only finding. -/
lemma JustifiedBy.refused {f : Finding} {fault : Fault} (h : f.fault path = fault) :
    JustifiedBy path [f] (.error fault : Except Fault α) :=
  ⟨f, List.mem_singleton_self f, h⟩

/-- The findings of a first part decide before those of a second one. -/
lemma JustifiedBy.bind {f : α → Except Fault β} (hx : JustifiedBy path fs x)
    (hf : ∀ a, x = .ok a → JustifiedBy path gs (f a)) : JustifiedBy path (fs ++ gs) (x >>= f) := by
  cases x with
  | error fault =>
    obtain ⟨g, hg, hfault⟩ := hx
    exact ⟨g, List.mem_append_left gs hg, hfault⟩
  | ok a =>
    obtain rfl : fs = [] := hx
    exact hf a rfl

lemma JustifiedBy.map (f : α → β) (h : JustifiedBy path fs x) :
    JustifiedBy path fs (x >>= fun a => .ok (f a)) := by
  cases x with
  | error fault => exact h
  | ok a => exact h

/-- The findings of a part, as those of the whole. -/
lemma JustifiedBy.under {s : Segment} (h : JustifiedBy (path ++ Location.suffix [s]) fs x) :
    JustifiedBy path (fs.map (Finding.under s)) x := by
  cases x with
  | error fault =>
    obtain ⟨f, hf, hfault⟩ := h
    exact ⟨f.under s, List.mem_map_of_mem hf, (fault_under path s f).trans hfault⟩
  | ok a => exact List.map_eq_nil_iff.2 h

/-- Items are read one after another, each at its position. -/
lemma readItems_justified {read : Value → String → Except Fault α} {own : Value → List Finding}
    (hread : ∀ v path, JustifiedBy path (own v) (read v path)) (path : String) (i : Nat)
    (items : List Value) :
    JustifiedBy path (ofItems own i items) (readItems read path i items) := by
  induction items generalizing i with
  | nil => rfl
  | cons v rest ih =>
    rw [ofItems, readItems]
    split
    · exact ih (i + 1)
    · have hitem := hread v (Path.item path i)
      rw [Location.item_eq] at hitem ⊢
      exact .bind (.under hitem) fun x _ => .map (x :: ·) (ih (i + 1))

/-- A list is read if nothing is found in it, and else refused at a finding. -/
lemma readList_justified {read : Value → String → Except Fault α} {own : Value → List Finding}
    (hread : ∀ v path, JustifiedBy path (own v) (read v path)) (part : Part) (value : Value)
    (path : String) : JustifiedBy path (ofList part own value) (readList part read value path) := by
  rw [ofList, readList]
  cases value.list? with
  | none => exact .refused (fault_nil path _)
  | some items => exact readItems_justified hread path 0 items

end Payload

namespace MediaQuery

lemma readEntries_justified (path : String) (features : List (String × String))
    (css : Option Descriptor) (entries : List (String × Value)) :
    JustifiedBy path
      ((entries.flatMap fun e => entryFindings e.1 e.2)
        ++ if css.isSome ∨ cssKey ∈ entries.map (·.1) then [] else [⟨[], .queryWithoutCss⟩])
      (readEntries path features css entries) := by
  induction entries generalizing features css with
  | nil =>
    cases css with
    | none => exact .refused (fault_nil path _)
    | some body => rfl
  | cons e rest ih =>
    obtain ⟨key, value⟩ := e
    rw [List.flatMap_cons, List.map_cons, List.append_assoc]
    by_cases hk : key = cssKey
    · have hcss : css.isSome ∨ cssKey ∈ key :: rest.map (·.1) :=
        .inr (hk ▸ List.mem_cons_self)
      unfold entryFindings readEntries
      rw [if_pos hcss, if_pos hk, if_pos hk]
      cases value.block? with
      | none => exact ⟨_, List.mem_cons_self, fault_key path key _⟩
      | some body =>
        have hrest := ih features (some body)
        rwa [if_pos (.inl rfl)] at hrest
    · have hcss : (css.isSome ∨ cssKey ∈ key :: rest.map (·.1))
          ↔ (css.isSome ∨ cssKey ∈ rest.map (·.1)) := by
        rw [List.mem_cons, or_iff_right (Ne.symm hk)]
      unfold entryFindings readEntries
      simp only [hcss]
      rw [if_neg hk, if_neg hk]
      cases value with
      | absent => exact ih features css
      | literal l => exact ih (features ++ [(key, l.css)]) css
      | _ => exact ⟨_, List.mem_cons_self, fault_key path key _⟩

lemma read_justified (value : Value) (path : String) :
    JustifiedBy path (findings value) (read value path) := by
  rw [findings, read]
  cases value.block? with
  | none => exact .refused (fault_nil path _)
  | some q =>
    have hentries := readEntries_justified path [] none q.entries
    simp only [Option.isSome_none, Bool.false_eq_true, false_or] at hentries
    exact hentries

end MediaQuery

namespace Keyframes

lemma readMapping_justified (step : Descriptor) (path key : String) :
    JustifiedBy path (mappingFindings step key) (readMapping step path key) := by
  rw [mappingFindings, readMapping]
  cases step.get? key with
  | none => rfl
  | some value =>
    cases value with
    | absent => rfl
    | block entries => rfl
    | _ => exact .refused (fault_key path key _)

/-- A step lacks what is read as nothing. -/
lemma isNone_of_readMapping {step : Descriptor} {path key : String} {css : Option Descriptor}
    (h : readMapping step path key = .ok css) : lacks step key = css.isNone := by
  rw [readMapping] at h
  rw [lacks]
  split at h
  all_goals rename_i hget
  all_goals rw [hget]
  all_goals cases h
  all_goals rfl

lemma readStep_justified (value : Value) (path : String) :
    JustifiedBy path (stepFindings value) (readStep value path) := by
  rw [stepFindings, readStep]
  cases value.block? with
  | none => exact .refused (fault_nil path _)
  | some step =>
    dsimp only
    cases step.literal? "percentage" with
    | some share =>
      refine (readMapping_justified step path "css").bind fun css hcss => ?_
      rw [isNone_of_readMapping hcss]
      cases css with
      | none => exact .refused (fault_nil path _)
      | some css => rfl
    | none =>
      rw [List.append_assoc]
      refine (readMapping_justified step path "from").bind fun start hstart => ?_
      refine (readMapping_justified step path "to").bind fun finish hfinish => ?_
      rw [isNone_of_readMapping hstart, isNone_of_readMapping hfinish]
      cases start with
      | none => exact .refused (fault_nil path _)
      | some start =>
        cases finish with
        | none => exact .refused (fault_nil path _)
        | some finish => rfl

lemma read_justified (value : Value) (path : String) :
    JustifiedBy path (findings value) (read value path) := by
  rw [findings, read]
  cases value.block? with
  | none => exact .refused (fault_nil path _)
  | some rule =>
    dsimp only
    cases name? rule with
    | none => exact ⟨_, List.mem_cons_self, fault_nil path _⟩
    | some name =>
      cases (rule.get? "steps").bind Value.list? with
      | none => exact .refused (fault_key path "steps" _)
      | some items =>
        have hsteps := readItems_justified readStep_justified (Path.field path "steps") 0 items
        rw [Location.field_eq] at hsteps
        rw [Location.field_eq]
        exact hsteps.under.map (Keyframes.mk name)

end Keyframes

/-! ### Locations -/

lemma Value.locates_nil (v : Value) : v.Locates [] :=
  .inl ⟨v, .here v⟩

/-- A finding at the value itself, the only one. -/
lemma Value.locates_of_mem_singleton {v : Value} {cause : Cause} {f : Finding}
    (h : f ∈ [(⟨[], cause⟩ : Finding)]) : v.Locates f.location := by
  rw [List.mem_singleton.1 h]
  exact v.locates_nil

namespace Payload

variable {own : Value → List Finding} {items : List Value} {f : Finding}

/-- A finding in some items is one in an item, at the position of the item. -/
lemma exists_of_mem_ofItems {i : Nat} (h : f ∈ ofItems own i items) :
    ∃ n v g, items[n]? = some v ∧ g ∈ own v ∧ f = g.under (.item (i + n)) := by
  induction items generalizing i with
  | nil => cases h
  | cons v rest ih =>
    rw [ofItems] at h
    rcases List.mem_append.1 h with h | h
    · split at h
      · cases h
      · obtain ⟨g, hg, rfl⟩ := List.mem_map.1 h
        exact ⟨0, v, g, rfl, hg, rfl⟩
    · obtain ⟨n, w, g, hw, hg, rfl⟩ := ih h
      refine ⟨n + 1, w, g, hw, hg, ?_⟩
      rw [Nat.add_assoc, Nat.add_comm 1 n]

lemma locates_of_mem_ofItems (hown : ∀ v, ∀ f ∈ own v, v.Locates f.location)
    (h : f ∈ ofItems own 0 items) : (Value.list items).Locates f.location := by
  obtain ⟨n, v, g, hv, hg, rfl⟩ := exists_of_mem_ofItems h
  rw [Nat.zero_add]
  exact (Value.Reaches.item hv (.here v)).locates (hown v g hg)

/-- What is found in a list is found at a location of the list, if it is so for its items. -/
lemma locates_of_mem_ofList {part : Part} {value : Value}
    (hown : ∀ v, ∀ f ∈ own v, v.Locates f.location) (h : f ∈ ofList part own value) :
    value.Locates f.location := by
  rw [ofList] at h
  split at h
  · exact Value.locates_of_mem_singleton h
  · rename_i items hl
    rw [Value.list?_eq_some.1 hl]
    exact locates_of_mem_ofItems hown h

end Payload

namespace MediaQuery

variable {value : Value} {f : Finding}

lemma location_of_mem_entryFindings {key : String} (h : f ∈ entryFindings key value) :
    f.location = [.key key] := by
  unfold entryFindings at h
  split at h
  · split at h
    · cases h
    · rw [List.mem_singleton.1 h]
  · split at h
    · cases h
    · cases h
    · rw [List.mem_singleton.1 h]

lemma locates_of_mem_findings (h : f ∈ findings value) : value.Locates f.location := by
  rw [findings] at h
  split at h
  · exact Value.locates_of_mem_singleton h
  · rename_i q hb
    rw [Value.block?_eq_some.1 hb]
    rcases List.mem_append.1 h with h | h
    · obtain ⟨e, he, h⟩ := List.mem_flatMap.1 h
      rw [location_of_mem_entryFindings h]
      exact Value.locates_key _ _
    · split at h
      · cases h
      · exact Value.locates_of_mem_singleton h

end MediaQuery

namespace Keyframes

variable {value : Value} {f : Finding}

lemma location_of_mem_mappingFindings {step : Descriptor} {key : String}
    (h : f ∈ mappingFindings step key) : f.location = [.key key] := by
  rw [mappingFindings] at h
  split at h
  · cases h
  · cases h
  · cases h
  · rw [List.mem_singleton.1 h]

lemma locates_of_mem_stepFindings (h : f ∈ stepFindings value) : value.Locates f.location := by
  have hmapping : ∀ {step : Descriptor} {key : String}, f ∈ mappingFindings step key →
      (Value.block step.entries).Locates f.location := by
    intro step key hm
    rw [location_of_mem_mappingFindings hm]
    exact Value.locates_key _ _
  have hself : ∀ {p : Prop} [Decidable p] {cause : Cause} {v : Value},
      f ∈ (if p then [(⟨[], cause⟩ : Finding)] else []) → v.Locates f.location := by
    intro p _ cause v hm
    split at hm
    · exact Value.locates_of_mem_singleton hm
    · cases hm
  rw [stepFindings] at h
  split at h
  · exact Value.locates_of_mem_singleton h
  · rename_i step hb
    rw [Value.block?_eq_some.1 hb]
    split at h
    · rcases List.mem_append.1 h with h | h
      · exact hmapping h
      · exact hself h
    · rcases List.mem_append.1 h with h | h
      · rcases List.mem_append.1 h with h | h
        · exact hmapping h
        · exact hmapping h
      · exact hself h

lemma locates_of_mem_findings (h : f ∈ findings value) : value.Locates f.location := by
  rw [findings] at h
  split at h
  · exact Value.locates_of_mem_singleton h
  · rename_i rule hb
    rw [Value.block?_eq_some.1 hb]
    rcases List.mem_append.1 h with h | h
    · split at h
      · exact Value.locates_of_mem_singleton h
      · cases h
    · split at h
      · rw [List.mem_singleton.1 h]
        exact Value.locates_key _ _
      · rename_i items hitems
        obtain ⟨g, hg, rfl⟩ := List.mem_map.1 h
        obtain ⟨list, hget, hlist⟩ := Option.bind_eq_some_iff.1 hitems
        obtain ⟨before, after, he, _⟩ := List.lookup_eq_some_iff.1 hget
        have hm : ("steps", list) ∈ rule.entries :=
          he ▸ List.mem_append_right _ List.mem_cons_self
        rw [Value.list?_eq_some.1 hlist] at hm
        exact (Value.Reaches.entry hm (.here _)).locates
          (locates_of_mem_ofItems (fun _ _ => locates_of_mem_stepFindings) hg)

end Keyframes

end Stylesheet
