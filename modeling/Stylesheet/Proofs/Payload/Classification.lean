/-
How entries and their payloads are read.

* `Directive.Reading`: every way in which an entry is read as a directive;
* `Directive.classify_eq_ok`: classification reads an entry in one of these ways, and in no other;
* `Directive.blockOf_eq_ok`, `listOf_eq_ok`: which values are mappings and lists;
* `Directive.eq_key_of_ofKey?`, `nestingSuffix?_eq_some`: which keys are reserved, and which are
  marked by `&`;
* `Directive.isReservedKey_eq_false`, `eq_member_of_classify`: which keys are neither, and that they
  name members;
* `Keyframes.readStep_eq_ok`, `Keyframes.read_eq_ok`, `MediaQuery.read_eq_ok`: what is read as a
  step of an animation, as a rule of animations and as a query;
* `MediaQuery.body?_eq_some`: the body of a query is the last one in it.
-/
import Mathlib.Data.List.Nodup
import Mathlib.Tactic.Common
import Stylesheet.Directive

namespace Stylesheet

/-- A mapping is there. -/
lemma Value.isAbsent_of_block? {value : Value} {body : Descriptor}
    (h : value.block? = some body) : value.isAbsent = false := by
  cases value with
  | block entries => rfl
  | _ => cases h

/-- A mapping weighs less than the value that it is. -/
lemma Value.weight_lt_of_block? {value : Value} {body : Descriptor}
    (h : value.block? = some body) : weightEntries body.entries < value.weight := by
  cases value with
  | block entries =>
    cases h
    rw [weight]
    exact Nat.lt_add_of_pos_left Nat.one_pos
  | _ => cases h

lemma Value.block?_eq_some {value : Value} {body : Descriptor} :
    value.block? = some body ↔ value = .block body.entries := by
  cases value with
  | block entries =>
    obtain ⟨es⟩ := body
    simp [Value.block?]
  | _ => simp [Value.block?]

lemma Value.list?_eq_some {value : Value} {items : List Value} :
    value.list? = some items ↔ value = .list items := by
  cases value with
  | list vs => simp [Value.list?]
  | _ => simp [Value.list?]

lemma Value.literal?_eq_some {value : Value} {l : Literal} :
    value.literal? = some l ↔ value = .literal l := by
  cases value with
  | literal m => simp [Value.literal?]
  | _ => simp [Value.literal?]

namespace Directive

variable {key path : String} {value : Value}

lemma blockOf_eq_ok {expected : Expectation} {body : Descriptor} :
    blockOf key expected value = .ok body ↔ value.block? = some body := by
  rw [blockOf]
  cases value.block? with
  | none => simp
  | some b => simp

lemma listOf_eq_ok {items : List Value} :
    listOf key value = .ok items ↔ value.list? = some items := by
  rw [listOf]
  cases value.list? with
  | none => simp
  | some vs => simp

lemma itemOf_eq_ok {α : Type} {expected : Expectation} {as? : Value → Option α} {x : α} :
    itemOf key expected as? value = .ok x ↔ as? value = some x := by
  rw [itemOf]
  cases as? value with
  | none => simp
  | some y => simp

/-- The ways in which an entry is read as a directive. -/
inductive Reading (key : String) (value : Value) (path : String) : Directive → Prop
  | atRules {items : List Value} {rules : List String} (hk : Reserved.ofKey? key = some .atRules)
      (hv : value.list? = some items) (hr : literalsOf Reserved.atRules.key items = .ok rules) :
      Reading key value path (.atRules rules)
  | keyframes {rules : List Keyframes} (hk : Reserved.ofKey? key = some .keyframes)
      (hr : Keyframes.readList value path = .ok rules) :
      Reading key value path (.keyframes rules)
  | mixins {body : Descriptor} (hk : Reserved.ofKey? key = some .mixins)
      (hb : value.block? = some body) : Reading key value path (.mixins body)
  | media {queries : List MediaQuery} (hk : Reserved.ofKey? key = some .media)
      (hq : MediaQuery.readList value path = .ok queries) :
      Reading key value path (.media queries)
  | overrides {items : List Value} {mappings : List Descriptor}
      (hk : Reserved.ofKey? key = some .overrides) (hv : value.list? = some items)
      (hm : mappingsOf Reserved.overrides.key items = .ok mappings) :
      Reading key value path (.overrides mappings)
  | nested {suffix : String} {body : Descriptor} (hk : Reserved.ofKey? key = none)
      (hs : nestingSuffix? key = some suffix) (hn : Text.allBlank suffix = false)
      (hb : value.block? = some body) : Reading key value path (.nested suffix body)
  | member (hk : Reserved.ofKey? key = none) (hs : nestingSuffix? key = none) :
      Reading key value path (.member key value)

lemma reading_of_ofReserved {reserved : Reserved} {d : Directive}
    (hk : Reserved.ofKey? key = some reserved) (h : ofReserved value path reserved = .ok d) :
    Reading key value path d := by
  cases reserved with
  | atRules =>
    obtain ⟨items, hi, h⟩ := bind_eq_ok.1 h
    obtain ⟨rules, hr, h⟩ := bind_eq_ok.1 h
    cases h
    exact .atRules hk (listOf_eq_ok.1 hi) hr
  | keyframes =>
    obtain ⟨rules, hr, h⟩ := bind_eq_ok.1 h
    cases h
    exact .keyframes hk (ofPayload_eq_ok.1 hr)
  | mixins =>
    obtain ⟨body, hb, h⟩ := bind_eq_ok.1 h
    cases h
    exact .mixins hk (blockOf_eq_ok.1 hb)
  | media =>
    obtain ⟨queries, hq, h⟩ := bind_eq_ok.1 h
    cases h
    exact .media hk (ofPayload_eq_ok.1 hq)
  | overrides =>
    obtain ⟨items, hi, h⟩ := bind_eq_ok.1 h
    obtain ⟨mappings, hm, h⟩ := bind_eq_ok.1 h
    cases h
    exact .overrides hk (listOf_eq_ok.1 hi) hm

/-- Classification reads an entry in one of the ways above. -/
lemma classify_eq_ok {d : Directive} :
    classify key value path = .ok d ↔ Reading key value path d := by
  constructor
  · intro h
    rw [classify] at h
    split at h
    · rename_i hk
      exact reading_of_ofReserved hk h
    · rename_i hk
      split at h
      · rename_i hs
        split at h
        · cases h
        · rename_i hn
          obtain ⟨body, hb, h⟩ := bind_eq_ok.1 h
          cases h
          exact .nested hk hs (Bool.eq_false_iff.2 hn) (blockOf_eq_ok.1 hb)
      · rename_i hs
        cases h
        exact .member hk hs
  · intro h
    cases h with
    | atRules hk hv hr =>
      rw [classify, hk]
      exact bind_eq_ok.2 ⟨_, listOf_eq_ok.2 hv, bind_eq_ok.2 ⟨_, hr, rfl⟩⟩
    | keyframes hk hr =>
      rw [classify, hk]
      exact bind_eq_ok.2 ⟨_, ofPayload_eq_ok.2 hr, rfl⟩
    | mixins hk hb =>
      rw [classify, hk]
      exact bind_eq_ok.2 ⟨_, blockOf_eq_ok.2 hb, rfl⟩
    | media hk hq =>
      rw [classify, hk]
      exact bind_eq_ok.2 ⟨_, ofPayload_eq_ok.2 hq, rfl⟩
    | overrides hk hv hm =>
      rw [classify, hk]
      exact bind_eq_ok.2 ⟨_, listOf_eq_ok.2 hv, bind_eq_ok.2 ⟨_, hm, rfl⟩⟩
    | nested hk hs hn hb =>
      simp only [classify, hk, hs, hn, Bool.false_eq_true, if_false]
      exact bind_eq_ok.2 ⟨_, blockOf_eq_ok.2 hb, rfl⟩
    | member hk hs => simp only [classify, hk, hs]

/-! ### Keys -/

lemma eq_key_of_ofKey? {key : String} {reserved : Reserved}
    (h : Reserved.ofKey? key = some reserved) : key = reserved.key := by
  rw [Reserved.ofKey?] at h
  have hfound := List.find?_some h
  exact (beq_iff_eq.1 hfound).symm

lemma ofKey?_eq_none {key : String} :
    Reserved.ofKey? key = none ↔ key ∉ Reserved.all.map Reserved.key := by
  rw [Reserved.ofKey?, List.find?_eq_none, List.mem_map]
  simp only [beq_iff_eq, not_exists, not_and]

lemma ne_key_of_ofKey? {key : String} (h : Reserved.ofKey? key = none) (reserved : Reserved) :
    key ≠ reserved.key := by
  rintro rfl
  cases reserved <;> exact absurd h (by decide)

lemma nestingSuffix?_eq_some {key suffix : String} :
    nestingSuffix? key = some suffix
      ↔ key.toList.head? = some '&' ∧ String.ofList key.toList.tail = suffix := by
  rw [nestingSuffix?]
  split
  · rename_i cs h
    simp [h]
  · rename_i h
    cases hcs : key.toList with
    | nil => simp
    | cons c cs =>
      have hc : c ≠ '&' := fun hc => h cs (hc ▸ hcs)
      simp [hc]

lemma nestingSuffix?_eq_none {key : String} :
    nestingSuffix? key = none ↔ key.toList.head? ≠ some '&' := by
  rw [← not_iff_not, not_not, ← ne_eq, Option.ne_none_iff_exists']
  simp only [nestingSuffix?_eq_some]
  simp

/-- A nesting key is no reserved key of another kind. -/
lemma ofKey?_of_nestingSuffix? {key suffix : String} (h : nestingSuffix? key = some suffix) :
    Reserved.ofKey? key = none := by
  cases hk : Reserved.ofKey? key with
  | none => rfl
  | some reserved =>
    rw [eq_key_of_ofKey? hk] at h
    cases reserved <;> cases h

lemma isReservedKey_eq_false {key : String} :
    isReservedKey key = false ↔ Reserved.ofKey? key = none ∧ nestingSuffix? key = none := by
  simp [isReservedKey]

/-- A key that is not reserved is read as the name of a member. -/
lemma eq_member_of_classify {d : Directive}
    (hk : isReservedKey key = false) (hc : classify key value path = .ok d) :
    d = .member key value := by
  have hr : Reading key value path (.member key value) := by
    obtain ⟨hnone, hs⟩ := isReservedKey_eq_false.1 hk
    exact .member hnone hs
  rw [classify_eq_ok.2 hr] at hc
  cases hc
  rfl

end Directive

/-! ### Animations -/

namespace Keyframes

variable {value : Value} {path : String}

lemma readMapping_eq_some {step css : Descriptor} {key : String} :
    readMapping step path key = .ok (some css) ↔ step.get? key = some (.block css.entries) := by
  rw [readMapping]
  split
  · rename_i hget
    simp [hget]
  · rename_i hget
    simp [hget]
  · rename_i hget
    obtain ⟨entries⟩ := css
    simp [hget]
  · rename_i hblock hget
    rw [hget]
    exact ⟨nofun, fun h => absurd (Option.some.inj h) (hblock css.entries)⟩

/-- The ways in which a mapping is read as a step. -/
inductive StepReading (step : Descriptor) : Step → Prop
  | ends {start finish : Descriptor} (hp : step.literal? "percentage" = none)
      (hs : step.get? "from" = some (.block start.entries))
      (hf : step.get? "to" = some (.block finish.entries)) :
      StepReading step (.ends start finish)
  | percentage {share : Literal} {css : Descriptor} (hp : step.literal? "percentage" = some share)
      (hc : step.get? "css" = some (.block css.entries)) :
      StepReading step (.percentage (Text.dropEnd (· == '%') share.css) css)

/-- A step is read from a mapping in one of the ways above. -/
lemma readStep_eq_ok {s : Step} :
    readStep value path = .ok s ↔ ∃ step, value.block? = some step ∧ StepReading step s := by
  rw [readStep]
  cases value.block? with
  | none => simp
  | some step =>
    simp only [Option.some.injEq, exists_eq_left']
    constructor
    · intro h
      split at h
      · rename_i share hp
        obtain ⟨css, hc, h⟩ := bind_eq_ok.1 h
        cases css with
        | none => cases h
        | some css =>
          cases h
          exact .percentage hp (readMapping_eq_some.1 hc)
      · rename_i hp
        obtain ⟨start, hs, h⟩ := bind_eq_ok.1 h
        obtain ⟨finish, hf, h⟩ := bind_eq_ok.1 h
        cases start with
        | none => cases h
        | some start =>
          cases finish with
          | none => cases h
          | some finish =>
            cases h
            exact .ends hp (readMapping_eq_some.1 hs) (readMapping_eq_some.1 hf)
    · intro h
      cases h with
      | ends hp hs hf =>
        rw [hp]
        exact bind_eq_ok.2 ⟨_, readMapping_eq_some.2 hs,
          bind_eq_ok.2 ⟨_, readMapping_eq_some.2 hf, rfl⟩⟩
      | percentage hp hc =>
        rw [hp]
        exact bind_eq_ok.2 ⟨_, readMapping_eq_some.2 hc, rfl⟩

lemma name?_eq_some {rule : Descriptor} {name : String} :
    name? rule = some name
      ↔ ∃ l, rule.literal? "name" = some l ∧ l.css = name ∧ Text.allBlank name = false := by
  simp [name?, Option.filter_eq_some_iff, Option.map_eq_some_iff, ← exists_and_right, and_assoc]

/-- A rule is read from a mapping with a name and a list of steps. -/
lemma read_eq_ok {rule : Keyframes} :
    read value path = .ok rule
      ↔ ∃ body items, value.block? = some body ∧ name? body = some rule.name
        ∧ body.get? "steps" = some (.list items)
        ∧ Payload.readItems readStep (Path.field path "steps") 0 items = .ok rule.steps := by
  have hitems : ∀ {body : Descriptor} {items : List Value},
      (body.get? "steps").bind Value.list? = some items
        ↔ body.get? "steps" = some (.list items) := by
    intro body items
    rw [Option.bind_eq_some_iff]
    simp [Value.list?_eq_some]
  rw [read]
  constructor
  · intro h
    split at h
    · cases h
    · rename_i body hb
      split at h
      · cases h
      · rename_i name hname
        split at h
        · cases h
        · rename_i items hi
          obtain ⟨steps, hsteps, h⟩ := bind_eq_ok.1 h
          cases h
          exact ⟨body, items, hb, hname, hitems.1 hi, hsteps⟩
  · rintro ⟨body, items, hb, hname, hi, hsteps⟩
    rw [hb]
    dsimp only
    rw [hname]
    dsimp only
    rw [hitems.2 hi]
    exact bind_eq_ok.2 ⟨rule.steps, hsteps, rfl⟩

end Keyframes

/-! ### Media queries -/

namespace MediaQuery

/-- The feature that an entry of a query is, if it is one. -/
def feature? (e : String × Value) : Option (String × String) :=
  if e.1 = "css" then none
  else
    match e.2 with
    | .literal l => some (e.1, l.css)
    | _ => none

lemma feature?_cssKey (v : Value) : feature? (cssKey, v) = none :=
  if_pos rfl

lemma feature?_literal {key : String} (hk : key ≠ cssKey) (l : Literal) :
    feature? (key, .literal l) = some (key, l.css) :=
  if_neg hk

lemma feature?_absent (key : String) : feature? (key, .absent) = none :=
  ite_self _

lemma fst_of_feature? {e : String × Value} {f : String × String} (h : feature? e = some f) :
    f.1 = e.1 := by
  rw [feature?] at h
  split at h
  · cases h
  · split at h
    · cases h
      rfl
    · cases h

/-- Whether an entry can stand in a query: as its body, as a feature, or without a value. -/
def IsFit (e : String × Value) : Prop :=
  if e.1 = cssKey then e.2.block?.isSome = true
  else e.2.isAbsent = true ∨ e.2.literal?.isSome = true

/-- The body of a query: the one that stands last under `css`, or one that was there before. -/
def body? (css : Option Descriptor) (entries : List (String × Value)) : Option Descriptor :=
  entries.foldl (fun css e => if e.1 = cssKey then e.2.block? else css) css

variable {path : String} {features : List (String × String)} {css : Option Descriptor}
  {entries : List (String × Value)} {q : MediaQuery} {d : Descriptor}

/-- A query is read from entries if each of them is fit and there is a body. Its features are those
of the entries. -/
lemma readEntries_eq_ok :
    readEntries path features css entries = .ok q
      ↔ (∀ e ∈ entries, IsFit e) ∧ q.features = features ++ entries.filterMap feature?
        ∧ body? css entries = some q.css := by
  induction entries generalizing features css with
  | nil =>
    obtain ⟨qfeatures, qcss⟩ := q
    cases css with
    | none => simp [readEntries, body?]
    | some body => simp [readEntries, body?, eq_comm]
  | cons e rest ih =>
    obtain ⟨key, v⟩ := e
    rw [List.forall_mem_cons, List.filterMap_cons, body?, List.foldl_cons, ← body?]
    by_cases hk : key = cssKey
    · subst hk
      cases v with
      | block b =>
        have hfit : IsFit (cssKey, .block b) := (if_pos rfl).mpr rfl
        simp only [readEntries, if_true, Value.block?, ih, feature?_cssKey, hfit, true_and]
      | _ => simp [readEntries, IsFit, Value.block?]
    · cases v with
      | absent =>
        simp only [readEntries, if_neg hk, ih, feature?_absent]
        simp [IsFit, hk, Value.isAbsent]
      | literal l =>
        simp only [readEntries, if_neg hk, ih, feature?_literal hk]
        simp [IsFit, hk, Value.literal?]
      | _ => simp [readEntries, IsFit, hk, Value.isAbsent, Value.literal?]

/-- The body of a query is that of an entry after which there is no other, if it was not there
before. -/
lemma body?_eq_some :
    body? css entries = some d
      ↔ css = some d ∧ cssKey ∉ entries.map (·.1)
        ∨ ∃ before after, entries = before ++ (cssKey, .block d.entries) :: after
          ∧ cssKey ∉ after.map (·.1) := by
  induction entries generalizing css with
  | nil => simp [body?]
  | cons e rest ih =>
    obtain ⟨key, v⟩ := e
    rw [body?, List.foldl_cons, ← body?, ih, List.map_cons, List.mem_cons, not_or]
    have hlater : (∃ before after, (key, v) :: rest
          = before ++ (cssKey, .block d.entries) :: after ∧ cssKey ∉ after.map (·.1))
        ↔ (key = cssKey ∧ v.block? = some d) ∧ cssKey ∉ rest.map (·.1)
          ∨ ∃ before after, rest = before ++ (cssKey, .block d.entries) :: after
            ∧ cssKey ∉ after.map (·.1) := by
      rw [Value.block?_eq_some]
      constructor
      · rintro ⟨before, after, h, hn⟩
        cases before with
        | nil =>
          cases h
          exact .inl ⟨⟨rfl, rfl⟩, hn⟩
        | cons first before =>
          cases h
          exact .inr ⟨before, after, rfl, hn⟩
      · rintro (⟨⟨rfl, rfl⟩, hn⟩ | ⟨before, after, rfl, hn⟩)
        · exact ⟨[], rest, rfl, hn⟩
        · exact ⟨(key, v) :: before, after, rfl, hn⟩
    rw [hlater]
    by_cases hk : key = cssKey
    · simp [hk]
    · simp [hk, Ne.symm hk]

/-- Among entries with different keys, the body of a query is the one that is there. -/
lemma body?_eq_some_of_nodup (hn : (entries.map (·.1)).Nodup) :
    body? none entries = some d ↔ (cssKey, .block d.entries) ∈ entries := by
  rw [body?_eq_some]
  constructor
  · rintro (⟨h, _⟩ | ⟨before, after, rfl, _⟩)
    · cases h
    · exact List.mem_append_right _ List.mem_cons_self
  · intro hm
    obtain ⟨before, after, rfl⟩ := List.append_of_mem hm
    rw [List.map_append, List.map_cons, List.nodup_middle, List.nodup_cons] at hn
    exact .inr ⟨before, after, rfl, fun hlater => hn.1 (List.mem_append_right _ hlater)⟩

/-- A query is read from a mapping whose entries are fit and one of which is its body. -/
lemma read_eq_ok {value : Value} :
    read value path = .ok q
      ↔ ∃ entry, value.block? = some entry ∧ (∀ e ∈ entry.entries, IsFit e)
        ∧ q.features = entry.entries.filterMap feature?
        ∧ body? none entry.entries = some q.css := by
  rw [read]
  cases value.block? with
  | none => simp
  | some entry => simp [readEntries_eq_ok]

end MediaQuery

end Stylesheet
