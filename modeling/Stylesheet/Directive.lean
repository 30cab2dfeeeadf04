/-
Directives: what the entries of a descriptor mean.

* `Directive`: an entry with its payload read, bodies left as they are;
* `Directive.classify`: the directive of an entry, by its key;
* `Directive.isReservedKey`: the keys that never name a rule at the top of a descriptor;
* `Directive.weight_le_of_classify`: no directive weighs more than the value it was read from, so
  that building it ends.
-/
import Stylesheet.Payload.Keyframes
import Stylesheet.Payload.MediaQuery

namespace Stylesheet

/-- An entry of a descriptor, classified. -/
inductive Directive where
  /-- At-rules for the start of the stylesheet. -/
  | atRules (rules : List String)
  /-- Animations for the start of the stylesheet. -/
  | keyframes (rules : List Keyframes)
  /-- Rules whose selectors are the keys as they are written. -/
  | mixins (body : Descriptor)
  /-- Bodies that hold under media features. -/
  | media (queries : List MediaQuery)
  /-- Further declarations of the scope, one mapping after another. -/
  | overrides (mappings : List Descriptor)
  /-- A rule whose selector is appended to that of the scope. -/
  | nested (suffix : String) (body : Descriptor)
  /-- A rule at the top of a stylesheet, a declaration anywhere else. -/
  | member (key : String) (value : Value)

namespace Directive

/-! ### Keys -/

/-- Every reserved key. -/
def Reserved.all : List Reserved :=
  [.atRules, .keyframes, .mixins, .media, .overrides]

/-- The reserved key that a key is, if it is one. -/
def Reserved.ofKey? (key : String) : Option Reserved :=
  Reserved.all.find? fun r => r.key == key

/-- What follows the marker `&` of a nesting key. -/
def nestingSuffix? (key : String) : Option String :=
  match key.toList with
  | '&' :: suffix => some (String.ofList suffix)
  | _ => none

/-- Whether a key never names a rule at the top of a descriptor. -/
def isReservedKey (key : String) : Bool :=
  (Reserved.ofKey? key).isSome || (nestingSuffix? key).isSome

/-! ### Payloads -/

/-- The items of a value that must be a list. -/
def listOf (key : String) (value : Value) : Except CompileError (List Value) :=
  match value.list? with
  | some items => .ok items
  | none => .error (.unexpectedValue key .list value.shape)

/-- The entries of a value that must be a mapping. -/
def blockOf (key : String) (expected : Expectation) (value : Value) :
    Except CompileError Descriptor :=
  match value.block? with
  | some body => .ok body
  | none => .error (.unexpectedValue key expected value.shape)

/-- One item of the list under a key, seen as what it must be. The error names the key, and no
position in the list. -/
def itemOf {α : Type} (key : String) (expected : Expectation) (as? : Value → Option α) (v : Value) :
    Except CompileError α :=
  match as? v with
  | some x => .ok x
  | none => .error (.unexpectedValue key expected v.shape)

/-- The items of the list under a key, each seen as what it must be; absent ones are left out. -/
def itemsOf {α : Type} (key : String) (expected : Expectation) (as? : Value → Option α)
    (items : List Value) : Except CompileError (List α) :=
  Payload.readItems (fun v _ => itemOf key expected as? v) "" 0 items

/-- The texts of items that must be literals. -/
def literalsOf (key : String) : List Value → Except CompileError (List String) :=
  itemsOf key .atRuleList fun v => v.literal?.map Literal.css

/-- The mappings that items must be. -/
def mappingsOf (key : String) : List Value → Except CompileError (List Descriptor) :=
  itemsOf key .overrideList Value.block?

/-- A payload that was read, or its fault as an error of compilation. -/
def ofPayload {α : Type} : Except Payload.Fault α → Except CompileError α
  | .ok x => .ok x
  | .error fault => .error (.payload fault)

/-! ### Classification -/

/-- The directive of a reserved key. -/
def ofReserved (value : Value) (path : String) : Reserved → Except CompileError Directive
  | .atRules => do
    let items ← listOf Reserved.atRules.key value
    let rules ← literalsOf Reserved.atRules.key items
    .ok (.atRules rules)
  | .keyframes => do
    let rules ← ofPayload (Keyframes.readList value path)
    .ok (.keyframes rules)
  | .mixins => do
    let body ← blockOf Reserved.mixins.key .mixinMapping value
    .ok (.mixins body)
  | .media => do
    let queries ← ofPayload (MediaQuery.readList value path)
    .ok (.media queries)
  | .overrides => do
    let items ← listOf Reserved.overrides.key value
    let mappings ← mappingsOf Reserved.overrides.key items
    .ok (.overrides mappings)

/-- The directive of an entry. The path of the entry goes into the faults of its payload. -/
def classify (key : String) (value : Value) (path : String) : Except CompileError Directive :=
  match Reserved.ofKey? key with
  | some reserved => ofReserved value path reserved
  | none =>
    match nestingSuffix? key with
    | some suffix =>
      if Text.allBlank suffix then .error (.invalidNesting key)
      else do
        let body ← blockOf key .nestedBody value
        .ok (.nested suffix body)
    | none => .ok (.member key value)

/-! ### Weight -/

/-- The weight of what is still to be built for a directive. -/
def weight : Directive → Nat
  | .atRules _ => 0
  | .keyframes rules => rules.length
  | .mixins body => body.weight
  | .media queries => Payload.total (fun q => 2 + q.css.weight) queries
  | .overrides mappings => mappings.length
  | .nested _ body => 1 + body.weight
  | .member _ value => value.weight

/-- A mapping weighs less than the value that it is. -/
theorem weight_lt_of_blockOf {key : String} {expected : Expectation} {value : Value}
    {body : Descriptor} (h : blockOf key expected value = .ok body) :
    body.weight < value.weight := by
  cases value with
  | block entries =>
    cases h
    simp only [Descriptor.weight, Value.weight]
    omega
  | _ => cases h

/-- There are no more mappings than the weight of the items. -/
theorem length_le_of_mappingsOf {key : String} {items : List Value} {mappings : List Descriptor}
    (h : mappingsOf key items = .ok mappings) : mappings.length ≤ Value.weightItems items := by
  rw [← Payload.total_one]
  exact Payload.total_le_weightItems_of_readItems (fun _ => 1)
    (fun _ _ _ _ => Nat.le_add_right 1 _) h

/-- A payload that was read had no fault. -/
theorem ofPayload_eq_ok {α : Type} {x : Except Payload.Fault α} {a : α} :
    ofPayload x = .ok a ↔ x = .ok a := by
  cases x with
  | error fault => simp [ofPayload]
  | ok b => simp [ofPayload]

/-- There are no more keyframes rules than the weight of their list. -/
theorem length_le_of_keyframes {value : Value} {path : String} {rules : List Keyframes}
    (h : Keyframes.readList value path = .ok rules) : rules.length ≤ value.weight := by
  rw [← Payload.total_one]
  exact Payload.total_le_weight_of_readList (fun _ => 1) (fun _ _ _ _ => Nat.le_add_right 1 _) h

/-- The bodies of media queries, and two more each, weigh no more than their list. -/
theorem total_le_of_media {value : Value} {path : String} {queries : List MediaQuery}
    (h : MediaQuery.readList value path = .ok queries) :
    Payload.total (fun q => 2 + q.css.weight) queries ≤ value.weight := by
  refine Payload.total_le_weight_of_readList (fun q => 2 + q.css.weight) (fun v path q hr => ?_) h
  have h₁ := MediaQuery.weight_css_of_read hr
  omega

/-- No directive of a reserved key weighs more than its value. -/
theorem weight_le_of_ofReserved {value : Value} {path : String} {reserved : Reserved}
    {d : Directive} (h : ofReserved value path reserved = .ok d) : d.weight ≤ value.weight := by
  cases reserved with
  | atRules =>
    obtain ⟨items, _, h⟩ := bind_eq_ok.1 h
    obtain ⟨rules, _, h⟩ := bind_eq_ok.1 h
    cases h
    exact Nat.zero_le _
  | keyframes =>
    obtain ⟨rules, hr, h⟩ := bind_eq_ok.1 h
    cases h
    exact length_le_of_keyframes (ofPayload_eq_ok.1 hr)
  | mixins =>
    obtain ⟨body, hb, h⟩ := bind_eq_ok.1 h
    cases h
    exact Nat.le_of_lt (weight_lt_of_blockOf hb)
  | media =>
    obtain ⟨queries, hq, h⟩ := bind_eq_ok.1 h
    cases h
    exact total_le_of_media (ofPayload_eq_ok.1 hq)
  | overrides =>
    obtain ⟨items, hi, h⟩ := bind_eq_ok.1 h
    obtain ⟨mappings, hm, h⟩ := bind_eq_ok.1 h
    cases h
    cases value with
    | list vs =>
      cases hi
      have h₁ := length_le_of_mappingsOf hm
      rw [weight, Value.weight]
      omega
    | _ => cases hi

/-- No directive weighs more than the value it was read from. -/
theorem weight_le_of_classify {key : String} {value : Value} {path : String} {d : Directive}
    (h : classify key value path = .ok d) : d.weight ≤ value.weight := by
  rw [classify] at h
  split at h
  · exact weight_le_of_ofReserved h
  · split at h
    · split at h
      · cases h
      · obtain ⟨body, hb, h⟩ := bind_eq_ok.1 h
        cases h
        have h₁ := weight_lt_of_blockOf hb
        rw [weight]
        omega
    · cases h
      exact Nat.le_refl _

end Directive

end Stylesheet
