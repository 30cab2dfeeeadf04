/-
What a descriptor means, without a plan.

* `Contribution`: raw text of the stylesheet, or a declaration for a selector in a media block or
  outside of all;
* `Context`: the media block, the selector and the kind of scope that a body stands in;
* `Meaning.entries`, `Descriptor.meaning`: the contributions of a body in a context, and of a
  descriptor, in the order of the source;
* `Meaning.entry_nested`, `entry_rule`, `entry_declaration`, `queries_of_read`: the meaning of
  entries that are accepted.

The meaning is a recursion on values. It is total, and takes entries as they look, without asking
whether a build would accept them. It does not know what stands elsewhere in the stylesheet: scopes
of one name are not the same scope here.
-/
import Stylesheet.Proofs.OwnTexts

namespace Stylesheet

/-- What an entry adds to a stylesheet. -/
inductive Contribution where
  /-- Text of the stylesheet itself. -/
  | raw (text : String)
  /-- A declaration for a selector, in the media block of a prelude or outside of all. -/
  | declaration (block : Option String) (selector text : String)
  deriving DecidableEq, Repr

/-- The text that a contribution adds. -/
def Contribution.text : Contribution → String
  | .raw text => text
  | .declaration _ _ text => text

/-- Whether a contribution is text of the stylesheet itself. -/
def Contribution.isRaw : Contribution → Bool
  | .raw _ => true
  | .declaration _ _ _ => false

/-! ### Contexts -/

/-- Where a body stands: the prelude of the media block around it, its selector, and its kind of
scope. -/
structure Context where
  block : Option String
  selector : String
  kind : Kind
  deriving DecidableEq, Repr

namespace Context

/-- The context of a whole descriptor. -/
def top : Context :=
  ⟨none, "", .global⟩

/-- The context of a rule of the descriptor. -/
def rule (seed : Seed) (key : String) : Context :=
  ⟨none, "." ++ seed.apply key, .element⟩

/-- The context of a body under `&`. -/
def nested (c : Context) (suffix : String) : Context :=
  ⟨c.block, c.selector ++ suffix, .nested⟩

/-- The context of a mixin. Only in a mixin do selectors go on. -/
def mixin (c : Context) (name : String) : Context :=
  ⟨c.block, if c.kind = .mixin then c.selector ++ name else name, .mixin⟩

/-- The context of the body of a media query with a prelude. -/
def media (c : Context) (prelude : String) : Context :=
  ⟨some prelude, c.selector, .element⟩

/-- What a text adds that stands in a context. -/
def contribute (c : Context) (text : String) : Contribution :=
  if c.kind = .global then .raw text else .declaration c.block c.selector text

lemma contribute_top (text : String) : top.contribute text = .raw text :=
  if_pos rfl

@[simp] lemma text_contribute (c : Context) (text : String) : (c.contribute text).text = text := by
  rw [contribute]
  split <;> rfl

@[simp] lemma isRaw_contribute (c : Context) (text : String) :
    (c.contribute text).isRaw = true ↔ c.kind = .global := by
  rw [contribute]
  split <;> simp_all [Contribution.isRaw]

end Context

/-! ### The meaning -/

namespace Meaning

mutual

/-- The contributions of the entries of a body. -/
def entries (seed : Seed) (c : Context) : List (String × Value) → List Contribution
  | [] => []
  | (key, value) :: rest => entry seed c key value ++ entries seed c rest
termination_by structural es => es

/-- The contributions of what stands under a key of a body. A literal is a declaration, a mapping
holds further rules, and a list holds at-rules, animations, overrides or queries. -/
def entry (seed : Seed) (c : Context) (key : String) : Value → List Contribution
  | .absent => []
  | .literal l =>
    if isPlainKey key ∧ c.kind ≠ .global then
      [c.contribute (Declaration.propertyName key ++ ":" ++ l.css)]
    else []
  | .block es =>
    if key = "mixins" then mixins seed c es
    else if key.toList.head? = some '&' then
      entries seed (c.nested (String.ofList key.toList.tail)) es
    else if isPlainKey key ∧ c.kind = .global then entries seed (.rule seed key) es
    else []
  | .list vs =>
    if key = "atRules" then (Value.literals vs).map fun l => .raw (statementText l.css)
    else if key = "keyframes" then (Value.present vs).map fun rule => .raw rule.animationText
    else if key = "overrides" then
      ((Value.mappings vs).flatMap Directive.overrideTexts).map c.contribute
    else if key = "media" then queries seed c vs
    else []
termination_by structural value => value

/-- The contributions of mixins. -/
def mixins (seed : Seed) (c : Context) : List (String × Value) → List Contribution
  | [] => []
  | (name, value) :: rest => body seed (c.mixin name) value ++ mixins seed c rest
termination_by structural es => es

/-- The contributions of the queries in a list. -/
def queries (seed : Seed) (c : Context) : List Value → List Contribution
  | [] => []
  | v :: vs => query seed c v ++ queries seed c vs
termination_by structural vs => vs

/-- The contributions of a query. -/
def query (seed : Seed) (c : Context) : Value → List Contribution
  | .block es => queryBody seed (c.media (Value.prelude es)) es
  | _ => []
termination_by structural v => v

/-- The contributions of what stands under `css` in a query. If there were several of these, the
last would count. -/
def queryBody (seed : Seed) (c : Context) : List (String × Value) → List Contribution
  | [] => []
  | (key, value) :: rest =>
    if key = "css" ∧ "css" ∉ rest.map (·.1) then body seed c value else queryBody seed c rest
termination_by structural es => es

/-- The contributions of a body, if a value is one. -/
def body (seed : Seed) (c : Context) : Value → List Contribution
  | .block es => entries seed c es
  | _ => []
termination_by structural v => v

end

variable {seed : Seed} {c : Context} {key : String}

lemma entries_eq_flatMap (es : List (String × Value)) :
    entries seed c es = es.flatMap fun e => entry seed c e.1 e.2 := by
  induction es with
  | nil => rfl
  | cons e rest ih => rw [entries, ih, List.flatMap_cons]

lemma mixins_eq_flatMap (es : List (String × Value)) :
    mixins seed c es = es.flatMap fun e => body seed (c.mixin e.1) e.2 := by
  induction es with
  | nil => rfl
  | cons e rest ih => rw [mixins, ih, List.flatMap_cons]

/-! ### Entries that are accepted -/

lemma entry_of_isAbsent {value : Value} (ha : value.isAbsent = true) :
    entry seed c key value = [] := by
  cases value with
  | absent => rfl
  | _ => cases ha

lemma body_of_isAbsent {value : Value} (ha : value.isAbsent = true) : body seed c value = [] := by
  cases value with
  | absent => rfl
  | _ => cases ha

lemma body_of_block? {value : Value} {d : Descriptor} (hb : value.block? = some d) :
    body seed c value = entries seed c d.entries := by
  rw [Value.block?_eq_some.1 hb, body]

/-- A body under `&` contributes what its entries do. -/
lemma entry_nested {suffix : String} {value : Value} {d : Descriptor}
    (hk : Directive.Reserved.ofKey? key = none) (hs : Directive.nestingSuffix? key = some suffix)
    (hb : value.block? = some d) :
    entry seed c key value = entries seed (c.nested suffix) d.entries := by
  have hne : key ≠ "mixins" := Directive.ne_key_of_ofKey? hk .mixins
  obtain ⟨hmark, hsuffix⟩ := Directive.nestingSuffix?_eq_some.1 hs
  rw [Value.block?_eq_some.1 hb, entry, if_neg hne, if_pos hmark, hsuffix]

/-- A rule contributes what its entries do. -/
lemma entry_rule {value : Value} {d : Descriptor} (hk : Directive.Reserved.ofKey? key = none)
    (hs : Directive.nestingSuffix? key = none) (hc : c.kind = .global)
    (hb : value.block? = some d) :
    entry seed c key value = entries seed (.rule seed key) d.entries := by
  have hne : key ≠ "mixins" := Directive.ne_key_of_ofKey? hk .mixins
  rw [Value.block?_eq_some.1 hb, entry, if_neg hne,
    if_neg (Directive.nestingSuffix?_eq_none.1 hs),
    if_pos ⟨Directive.isPlainKey_eq_true.2 ⟨hk, hs⟩, hc⟩]

/-- A literal contributes a declaration. -/
lemma entry_declaration {value : Value} {l : Literal} (hk : Directive.Reserved.ofKey? key = none)
    (hs : Directive.nestingSuffix? key = none) (hc : c.kind ≠ .global)
    (hl : value.literal? = some l) :
    entry seed c key value = [c.contribute (Declaration.text key l)] := by
  rw [Value.literal?_eq_some.1 hl, entry, if_pos ⟨Directive.isPlainKey_eq_true.2 ⟨hk, hs⟩, hc⟩]
  rfl

/-- The last body in a query counts. -/
lemma queryBody_of_last {before after es : List (String × Value)}
    (hn : "css" ∉ after.map (·.1)) :
    queryBody seed c (before ++ ("css", .block es) :: after) = entries seed c es := by
  induction before with
  | nil => rw [List.nil_append, queryBody, if_pos ⟨rfl, hn⟩, body]
  | cons e before ih =>
    have hlater : "css" ∈ (before ++ ("css", .block es) :: after).map (·.1) := by simp
    rw [List.cons_append, queryBody, if_neg fun h => h.2 hlater, ih]

/-- A query that is accepted contributes what its body does, under its prelude. -/
lemma query_of_read {path : String} {v : Value} {q : MediaQuery}
    (h : MediaQuery.read v path = .ok q) :
    query seed c v = entries seed (c.media q.target) q.css.entries := by
  obtain ⟨⟨es⟩, hb, _, hfeatures, hbody⟩ := MediaQuery.read_eq_ok.1 h
  obtain rfl := Value.block?_eq_some.1 hb
  have hlast := (MediaQuery.body?_eq_some.1 hbody).resolve_left fun h => nomatch h.1
  obtain ⟨before, after, rfl, hn⟩ := hlast
  rw [query, MediaQuery.cssKey, queryBody_of_last hn, Value.prelude, MediaQuery.target, hfeatures,
    MediaQuery.cssKey]

/-- Queries that are accepted contribute what their bodies do, one after another. -/
lemma queries_of_read {vs : List Value} {qs : List MediaQuery}
    (h : List.Forall₂ (fun v q => MediaQuery.read v "" = .ok q) (Value.present vs) qs) :
    queries seed c vs = qs.flatMap fun q => entries seed (c.media q.target) q.css.entries := by
  induction vs generalizing qs with
  | nil =>
    cases h
    rfl
  | cons v vs ih =>
    rw [queries]
    cases ha : v.isAbsent with
    | true =>
      rw [Value.present, List.filter_cons_of_neg (by simp [ha])] at h
      cases v with
      | absent => exact ih h
      | _ => cases ha
    | false =>
      rw [Value.present, List.filter_cons_of_pos (by simp [ha])] at h
      cases h with
      | cons hv hvs => rw [query_of_read hv, ih hvs, List.flatMap_cons]

end Meaning

/-- The contributions of a descriptor, in the order of the source. -/
def Descriptor.meaning (d : Descriptor) (seed : Seed) : List Contribution :=
  Meaning.entries seed .top d.entries

end Stylesheet
