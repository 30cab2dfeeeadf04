/-
Payloads as they are written, and read back.

* `Gapped`: entries among which there are absent ones;
* `MediaQuery.WrittenAs`, `Keyframes.Step.WrittenAs`, `Keyframes.WrittenAs`: the values that a media
  query, a step and an animation can be written as;
* `MediaQuery.Proper`, `Keyframes.Proper`: the queries and animations that a value can hold;
* `MediaQuery.read_writtenAs`, `Keyframes.read_writtenAs`: one payload is read back;
* `Payload.read_written`: payloads and lists of them are read back from all that they can be written
  as.
-/
import Mathlib.Data.List.DropRight
import Mathlib.Data.List.Forall2
import Stylesheet.Proofs.InsertionOrder
import Stylesheet.Proofs.Payload.Paths

namespace Stylesheet

/-! ### Gaps -/

/-- The mapping that some entries make, put in one after another. -/
def Value.ofEntries (entries : List (String × Value)) : Value :=
  .block (Descriptor.ofList entries).entries

/-- Entries with gaps: they are the given fields in their order and, anywhere among them, absent
entries under keys that are used nowhere else. -/
structure Gapped (fields entries : List (String × Value)) : Prop where
  fields_eq : (entries.filter fun e => !e.2.isAbsent) = fields
  nodup_gaps : ((entries.filter fun e => e.2.isAbsent).map (·.1)).Nodup
  fresh : ∀ e ∈ entries, e.2.isAbsent = true → e.1 ∉ fields.map (·.1)

namespace Gapped

variable {fields entries : List (String × Value)} {key : String} {v : Value}

/-- There need not be any gap. -/
lemma of_present (h : ∀ e ∈ fields, e.2.isAbsent = false) : Gapped fields fields where
  fields_eq := List.filter_eq_self.2 fun e he => by rw [h e he]; rfl
  nodup_gaps := by
    rw [List.filter_eq_nil_iff.2 fun e he => by rw [h e he]; exact Bool.false_ne_true]
    exact List.nodup_nil
  fresh e he ha := absurd ha (Bool.eq_false_iff.1 (h e he))

lemma mem_fields (h : Gapped fields entries) {e : String × Value} (he : e ∈ entries)
    (ha : e.2.isAbsent = false) : e ∈ fields := by
  rw [← h.fields_eq, List.mem_filter, ha]
  exact ⟨he, rfl⟩

lemma mem_entries (h : Gapped fields entries) {e : String × Value} (he : e ∈ fields) :
    e ∈ entries := by
  rw [← h.fields_eq] at he
  exact (List.mem_filter.1 he).1

/-- No key is used twice if none is in the fields. -/
lemma nodup_keys (h : Gapped fields entries) (hn : (fields.map (·.1)).Nodup) :
    (entries.map (·.1)).Nodup := by
  have hperm := (List.filter_append_perm (fun e : String × Value => e.2.isAbsent) entries).map (·.1)
  rw [h.fields_eq, List.map_append] at hperm
  refine hperm.nodup_iff.1 (List.nodup_append'.2 ⟨h.nodup_gaps, hn, fun key hgap hfield => ?_⟩)
  obtain ⟨e, he, rfl⟩ := List.mem_map.1 hgap
  obtain ⟨he, ha⟩ := List.mem_filter.1 he
  exact h.fresh e he ha hfield

lemma ofList_eq (h : Gapped fields entries) (hn : (fields.map (·.1)).Nodup) :
    Descriptor.ofList entries = ⟨entries⟩ :=
  Descriptor.ofList_of_nodup (h.nodup_keys hn)

variable {written : List (String × Value)}

/-- A field is found under its key, in whatever order the fields are. -/
lemma get?_of_mem (h : Gapped written entries) (hp : written.Perm fields)
    (hn : (fields.map (·.1)).Nodup) (hm : (key, v) ∈ fields) :
    (Descriptor.ofList entries).get? key = some v := by
  have hn' : (written.map (·.1)).Nodup := (hp.map (·.1)).nodup_iff.2 hn
  have hkeys := h.nodup_keys hn'
  rw [h.ofList_eq hn', Descriptor.get?, List.lookup_eq_some_iff]
  obtain ⟨before, after, rfl⟩ := List.append_of_mem (h.mem_entries (hp.mem_iff.2 hm))
  refine ⟨before, after, rfl, fun e he => bne_iff_ne.2 ?_⟩
  rw [List.map_append, List.map_cons] at hkeys
  rintro rfl
  exact (List.nodup_append.1 hkeys).2.2 e.1 (List.mem_map_of_mem he) e.1 List.mem_cons_self rfl

/-- There is no literal under the key of no field: at most a gap is there. -/
lemma literal?_of_notMem (h : Gapped written entries) (hp : written.Perm fields)
    (hn : (fields.map (·.1)).Nodup) (hk : key ∉ fields.map (·.1)) :
    (Descriptor.ofList entries).literal? key = none := by
  have hkeys := hp.map (·.1)
  rw [h.ofList_eq (hkeys.nodup_iff.2 hn), Option.eq_none_iff_forall_ne_some]
  intro l hl
  obtain ⟨v, hv, hl⟩ := Option.bind_eq_some_iff.1 hl
  obtain ⟨before, after, hentries, _⟩ := List.lookup_eq_some_iff.1 hv
  have he : (key, v) ∈ entries := by
    rw [show entries = before ++ (key, v) :: after from hentries]
    exact List.mem_append_right _ List.mem_cons_self
  rw [Value.literal?_eq_some.1 hl] at he
  exact hk (hkeys.mem_iff.1 (List.mem_map_of_mem (h.mem_fields he rfl)))

end Gapped

/-- Items are read back if each of those that are there is. -/
lemma Payload.readItems_of_forall₂ {α : Type} {read : Value → String → Except Fault α}
    (hread : PathFree read) {Writes : α → Value → Prop} {xs : List α} {items : List Value}
    (h : List.Forall₂ Writes xs (Value.present items))
    (hback : ∀ x ∈ xs, ∀ v, Writes x v → read v "" = .ok x) (path : String) (i : Nat) :
    readItems read path i items = .ok xs := by
  have hitems := (List.forall₂_and_left (p := fun x => ∀ v, Writes x v → read v "" = .ok x)
    xs (Value.present items)).2 ⟨hback, h⟩
  exact (readItems_eq_ok hread).2 (hitems.imp fun _ v hx => hx.1 v hx.2).flip

/-- All can be written as items of a list if each of them can. -/
lemma Payload.exists_items {α : Type} {Writes : α → Value → Prop}
    (h : ∀ x, ∃ v, Writes x v ∧ v.isAbsent = false) (xs : List α) :
    ∃ items, List.Forall₂ Writes xs (Value.present items) := by
  induction xs with
  | nil => exact ⟨[], .nil⟩
  | cons x xs ih =>
    obtain ⟨v, hv, ha⟩ := h x
    obtain ⟨items, hitems⟩ := ih
    refine ⟨v :: items, ?_⟩
    rw [Value.present, List.filter_cons_of_pos (by simp [ha])]
    exact .cons hv hitems

/-! ### Media queries -/

namespace MediaQuery

/-- A feature is written as a literal under its name. -/
inductive WritesFeature : String × String → String × Value → Prop
  | literal (name : String) (l : Literal) : WritesFeature (name, l.css) (name, .literal l)

/-- A query is written as a mapping of its features, in their order, and of its body under `css`,
anywhere among them; there may be gaps. -/
inductive WrittenAs (q : MediaQuery) : Value → Prop
  | mapping {before after entries : List (String × Value)}
      (hfeatures : List.Forall₂ WritesFeature q.features (before ++ after))
      (hgaps : Gapped (before ++ (cssKey, .block q.css.entries) :: after) entries) :
      WrittenAs q (.ofEntries entries)

/-- The features of a query have different names, and none is called `css`. -/
structure Proper (q : MediaQuery) : Prop where
  nodup_names : (q.features.map (·.1)).Nodup
  css_notMem : cssKey ∉ q.features.map (·.1)

variable {features : List (String × String)} {fields entries : List (String × Value)}
  {q : MediaQuery} {v : Value}

/-- Every query can be written: with its values as texts, and its body at the end. -/
lemma exists_writtenAs (q : MediaQuery) : ∃ v, q.WrittenAs v := by
  have hfeatures : List.Forall₂ WritesFeature q.features
      (q.features.map (fun f => (f.1, .literal (.text f.2))) ++ []) := by
    rw [List.append_nil, List.forall₂_map_right_iff]
    exact List.forall₂_same.2 fun f _ => .literal f.1 (.text f.2)
  refine ⟨_, .mapping hfeatures (.of_present fun e he => ?_)⟩
  rcases List.mem_append.1 he with he | he
  · obtain ⟨f, _, rfl⟩ := List.mem_map.1 he
    rfl
  · rw [List.mem_singleton.1 he]
    rfl

lemma keys_eq_of_writesFeature (h : List.Forall₂ WritesFeature features fields) :
    fields.map (·.1) = features.map (·.1) := by
  induction h with
  | nil => rfl
  | cons hf _ ih =>
    cases hf
    rw [List.map_cons, List.map_cons, ih]

lemma filterMap_feature?_of_writesFeature (h : List.Forall₂ WritesFeature features fields)
    (hcss : cssKey ∉ features.map (·.1)) : fields.filterMap feature? = features := by
  induction h with
  | nil => rfl
  | cons hf _ ih =>
    cases hf with
    | literal name l =>
      rw [List.map_cons, List.mem_cons, not_or] at hcss
      rw [List.filterMap_cons, feature?_literal (Ne.symm hcss.1), ih hcss.2]

lemma isFit_of_writesFeature (h : List.Forall₂ WritesFeature features fields)
    (hcss : cssKey ∉ features.map (·.1)) : ∀ e ∈ fields, IsFit e := by
  induction h with
  | nil => exact List.forall_mem_nil _
  | cons hf _ ih =>
    cases hf with
    | literal name l =>
      rw [List.map_cons, List.mem_cons, not_or] at hcss
      refine List.forall_mem_cons.2 ⟨?_, ih hcss.2⟩
      rw [IsFit, if_neg (Ne.symm hcss.1)]
      exact .inr rfl

/-- Gaps are no features. -/
lemma filterMap_feature?_of_gapped (h : Gapped fields entries) :
    entries.filterMap feature? = fields.filterMap feature? := by
  rw [← h.fields_eq, List.filterMap_filter]
  refine List.filterMap_congr fun e _ => ?_
  obtain ⟨key, v⟩ := e
  cases v <;> simp [feature?_absent, Value.isAbsent]

/-- Gaps can stand in a query, as none of them is under `css`. -/
lemma isFit_of_gapped (h : Gapped fields entries) (hcss : cssKey ∈ fields.map (·.1))
    (hfit : ∀ e ∈ fields, IsFit e) : ∀ e ∈ entries, IsFit e := by
  intro e he
  cases ha : e.2.isAbsent with
  | true =>
    have hne : e.1 ≠ cssKey := fun heq => h.fresh e he ha (heq ▸ hcss)
    rw [IsFit, if_neg hne]
    exact .inl ha
  | false => exact hfit e (h.mem_fields he ha)

/-- A query is read back. -/
lemma read_writtenAs (hq : q.Proper) (h : q.WrittenAs v) (path : String) : read v path = .ok q := by
  cases h with
  | @mapping before after entries hfeatures hgaps =>
    have hbody : (cssKey, .block q.css.entries)
        ∈ before ++ (cssKey, .block q.css.entries) :: after :=
      List.mem_append_right _ List.mem_cons_self
    have hn : ((before ++ (cssKey, .block q.css.entries) :: after).map (·.1)).Nodup := by
      have hkeys := keys_eq_of_writesFeature hfeatures
      rw [List.map_append] at hkeys
      rw [List.map_append, List.map_cons, List.nodup_middle, hkeys]
      exact List.nodup_cons.2 ⟨hq.css_notMem, hq.nodup_names⟩
    have hfit : ∀ e ∈ before ++ (cssKey, .block q.css.entries) :: after, IsFit e := by
      intro e he
      rcases List.mem_cons.1 (List.perm_middle.mem_iff.1 he) with rfl | he
      · exact (if_pos rfl).mpr rfl
      · exact isFit_of_writesFeature hfeatures hq.css_notMem e he
    have hnames : q.features = entries.filterMap feature? := by
      rw [filterMap_feature?_of_gapped hgaps, List.filterMap_append, List.filterMap_cons,
        feature?_cssKey, ← List.filterMap_append,
        filterMap_feature?_of_writesFeature hfeatures hq.css_notMem]
    rw [Value.ofEntries, hgaps.ofList_eq hn]
    exact read_eq_ok.2 ⟨⟨entries⟩, rfl,
      isFit_of_gapped hgaps (List.mem_map_of_mem hbody) hfit, hnames,
      (body?_eq_some_of_nodup (hgaps.nodup_keys hn)).2 (hgaps.mem_entries hbody)⟩

end MediaQuery

/-! ### Animations -/

namespace Keyframes

/-- The fields of a step: its two ends, or a percentage and the body that holds there. -/
inductive Step.HasFields : Step → List (String × Value) → Prop
  | ends (start finish : Descriptor) :
      HasFields (.ends start finish)
        [("from", .block start.entries), ("to", .block finish.entries)]
  | percentage (l : Literal) (css : Descriptor) :
      HasFields (.percentage l.css css)
        [("percentage", .literal l), ("css", .block css.entries)]

/-- A step is written as a mapping of its fields, in any order; there may be gaps. -/
inductive Step.WrittenAs (step : Step) : Value → Prop
  | mapping {fields written entries : List (String × Value)} (hfields : step.HasFields fields)
      (hperm : written.Perm fields) (hgaps : Gapped written entries) :
      WrittenAs step (.ofEntries entries)

/-- A rule is written as a mapping of its name and of the list of its steps, in any order; there may
be gaps, in the mapping and in the list. -/
inductive WrittenAs (rule : Keyframes) : Value → Prop
  | mapping {l : Literal} {items : List Value} {written entries : List (String × Value)}
      (hname : l.css = rule.name)
      (hsteps : List.Forall₂ Step.WrittenAs rule.steps (Value.present items))
      (hperm : written.Perm [("name", .literal l), ("steps", .list items)])
      (hgaps : Gapped written entries) : WrittenAs rule (.ofEntries entries)

/-- A percentage has no sign at its end. -/
def Step.Proper : Step → Prop
  | .ends _ _ => True
  | .percentage share _ => share.toList.getLast? ≠ some '%'

/-- The name of a rule is not blank, and its percentages have no sign at their end. -/
structure Proper (rule : Keyframes) : Prop where
  name_not_blank : Text.allBlank rule.name = false
  steps_proper : ∀ step ∈ rule.steps, step.Proper

variable {step : Step} {rule : Keyframes} {v : Value}

/-- Every step can be written. -/
lemma Step.exists_writtenAs (step : Step) : ∃ v, step.WrittenAs v ∧ v.isAbsent = false := by
  cases step with
  | ends start finish =>
    exact ⟨_, .mapping (.ends start finish) (.refl _)
      (.of_present (by simp [Value.isAbsent])), rfl⟩
  | percentage share css =>
    exact ⟨_, .mapping (.percentage (.text share) css) (.refl _)
      (.of_present (by simp [Value.isAbsent])), rfl⟩

/-- Every rule can be written. -/
lemma exists_writtenAs (rule : Keyframes) : ∃ v, rule.WrittenAs v := by
  obtain ⟨items, hitems⟩ := Payload.exists_items Step.exists_writtenAs rule.steps
  exact ⟨_, .mapping (l := .text rule.name) rfl hitems (.refl _)
    (.of_present (by simp [Value.isAbsent]))⟩

/-- Nothing is dropped from a percentage that has no sign at its end. -/
lemma dropEnd_sign {share : String} (h : share.toList.getLast? ≠ some '%') :
    Text.dropEnd (· == '%') share = share := by
  have hkeep : share.toList.rdropWhile (· == '%') = share.toList := by
    refine List.rdropWhile_eq_self_iff.2 fun hne hsign => h ?_
    rw [List.getLast?_eq_some_getLast hne, beq_iff_eq.1 hsign]
  rw [Text.dropEnd, ← List.rdropWhile, hkeep, String.ofList_toList]

/-- A step is read back. Its form is told by whether there is a literal under `percentage`. -/
lemma readStep_writtenAs (hstep : step.Proper) (h : step.WrittenAs v) (path : String) :
    readStep v path = .ok step := by
  cases h with
  | @mapping fields written entries hfields hp hgaps =>
    cases hfields with
    | ends start finish =>
      have hn : (["from", "to"] : List String).Nodup := by decide
      have hfrom := hgaps.get?_of_mem hp hn List.mem_cons_self
      have hto := hgaps.get?_of_mem hp hn (List.mem_cons_of_mem _ List.mem_cons_self)
      have hnone : (Descriptor.ofList entries).literal? "percentage" = none :=
        hgaps.literal?_of_notMem hp hn (by decide : "percentage" ∉ ["from", "to"])
      exact readStep_eq_ok.2 ⟨_, rfl, .ends hnone hfrom hto⟩
    | percentage l css =>
      have hn : (["percentage", "css"] : List String).Nodup := by decide
      have hshare := hgaps.get?_of_mem hp hn List.mem_cons_self
      have hcss := hgaps.get?_of_mem hp hn (List.mem_cons_of_mem _ List.mem_cons_self)
      have hsome : (Descriptor.ofList entries).literal? "percentage" = some l := by
        rw [Descriptor.literal?, hshare, Option.bind_some, Value.literal?]
      rw [← dropEnd_sign hstep]
      exact readStep_eq_ok.2 ⟨_, rfl, .percentage hsome hcss⟩

/-- A rule is read back. -/
lemma read_writtenAs (hrule : rule.Proper) (h : rule.WrittenAs v) (path : String) :
    read v path = .ok rule := by
  cases h with
  | @mapping l items written entries hname hsteps hp hgaps =>
    have hn : (["name", "steps"] : List String).Nodup := by decide
    have hget := hgaps.get?_of_mem hp hn List.mem_cons_self
    have hlist := hgaps.get?_of_mem hp hn (List.mem_cons_of_mem _ List.mem_cons_self)
    have hliteral : (Descriptor.ofList entries).literal? "name" = some l := by
      rw [Descriptor.literal?, hget, Option.bind_some, Value.literal?]
    have hread := Payload.readItems_of_forall₂ pathFree_readStep hsteps
      (fun step hstep _ hv => readStep_writtenAs (hrule.steps_proper step hstep) hv "")
      (Path.field path "steps") 0
    exact read_eq_ok.2 ⟨_, items, rfl, name?_eq_some.2 ⟨l, hliteral, hname, hrule.name_not_blank⟩,
      hlist, hread⟩

end Keyframes

/-! ### Both payloads -/

namespace Payload

/-- **Payloads are read back**: a query whose features have different names, none of them `css`, can
be written, and wherever its body stands and whatever gaps there are, what is read is this query;
the same holds for a rule whose name is not blank and whose percentages have no sign at their end;
and lists of such queries and of such rules are read back in their order, without the absent
items. -/
theorem read_written (path : String) :
    (∀ q : MediaQuery, q.Proper →
        (∃ v, q.WrittenAs v) ∧ ∀ v, q.WrittenAs v → MediaQuery.read v path = .ok q)
      ∧ (∀ (qs : List MediaQuery) (items : List Value), (∀ q ∈ qs, q.Proper) →
        List.Forall₂ MediaQuery.WrittenAs qs (Value.present items) →
        MediaQuery.readList (.list items) path = .ok qs)
      ∧ (∀ rule : Keyframes, rule.Proper →
        (∃ v, rule.WrittenAs v) ∧ ∀ v, rule.WrittenAs v → Keyframes.read v path = .ok rule)
      ∧ ∀ (rules : List Keyframes) (items : List Value), (∀ rule ∈ rules, rule.Proper) →
        List.Forall₂ Keyframes.WrittenAs rules (Value.present items) →
        Keyframes.readList (.list items) path = .ok rules :=
  ⟨fun q hq => ⟨q.exists_writtenAs, fun _ hv => MediaQuery.read_writtenAs hq hv path⟩,
    fun _ _ hqs h => readItems_of_forall₂ MediaQuery.pathFree_read h
      (fun q hq _ hv => MediaQuery.read_writtenAs (hqs q hq) hv "") path 0,
    fun rule hrule =>
      ⟨rule.exists_writtenAs, fun _ hv => Keyframes.read_writtenAs hrule hv path⟩,
    fun _ _ hrules h => readItems_of_forall₂ Keyframes.pathFree_read h
      (fun rule hrule _ hv => Keyframes.read_writtenAs (hrules rule hrule) hv "") path 0⟩

/-- A query of two features. -/
def wideScreen : MediaQuery :=
  ⟨[("min-width", "600px"), ("screen", "")], ⟨[("color", .literal (.text "red"))]⟩⟩

/-- The query with its body in the middle, and a gap at the end. -/
def wideScreenEntries : List (String × Value) :=
  [("min-width", .literal (.text "600px")), ("css", .block wideScreen.css.entries),
    ("screen", .literal (.text "")), ("print", .absent)]

/-- An animation with a step of either form. -/
def pulse : Keyframes :=
  ⟨"pulse", [.ends ⟨[("top", .literal (.text "0"))]⟩ ⟨[]⟩, .percentage "50" ⟨[]⟩]⟩

/-- The steps of the animation: the one with its ends in the other order, and after an absent item
the other one, where there is nothing for its ends. -/
def pulseSteps : List Value :=
  [.ofEntries [("to", .block []), ("from", .block [("top", .literal (.text "0"))])], .absent,
    .ofEntries [("from", .absent), ("percentage", .literal (.text "50")), ("to", .absent),
      ("css", .block [])]]

/-- The animation with its steps before its name. -/
def pulseEntries : List (String × Value) :=
  [("steps", .list pulseSteps), ("name", .literal (.text "pulse"))]

lemma writtenAs_wideScreenEntries : wideScreen.WrittenAs (.ofEntries wideScreenEntries) := by
  have hfeatures : List.Forall₂ MediaQuery.WritesFeature wideScreen.features
      ([("min-width", .literal (.text "600px"))] ++ [("screen", .literal (.text ""))]) :=
    .cons (.literal "min-width" (.text "600px")) (.cons (.literal "screen" (.text "")) .nil)
  exact .mapping hfeatures ⟨rfl, by decide, by decide⟩

lemma writtenAs_pulseEntries : pulse.WrittenAs (.ofEntries pulseEntries) := by
  have hends : (Keyframes.Step.ends ⟨[("top", .literal (.text "0"))]⟩ ⟨[]⟩).WrittenAs
      (.ofEntries [("to", .block []), ("from", .block [("top", .literal (.text "0"))])]) :=
    .mapping (.ends _ _) (.swap _ _ []) ⟨rfl, by decide, by decide⟩
  have hpercentage : (Keyframes.Step.percentage "50" ⟨[]⟩).WrittenAs
      (.ofEntries [("from", .absent), ("percentage", .literal (.text "50")), ("to", .absent),
        ("css", .block [])]) :=
    .mapping (.percentage (.text "50") ⟨[]⟩) (.refl _) ⟨rfl, by decide, by decide⟩
  have hsteps : List.Forall₂ Keyframes.Step.WrittenAs pulse.steps (Value.present pulseSteps) :=
    .cons hends (.cons hpercentage .nil)
  exact .mapping (l := .text "pulse") rfl hsteps (.swap _ _ []) ⟨rfl, by decide, by decide⟩

/-- The query and the animation are read back, also as items of lists with absent items. -/
theorem read_written_pulse :
    MediaQuery.read (.ofEntries wideScreenEntries) "media" = .ok wideScreen
      ∧ MediaQuery.readList (.list [.absent, .ofEntries wideScreenEntries]) "media"
        = .ok [wideScreen]
      ∧ Keyframes.read (.ofEntries pulseEntries) "keyframes" = .ok pulse
      ∧ Keyframes.readList (.list [.ofEntries pulseEntries, .absent, .ofEntries pulseEntries])
        "keyframes" = .ok [pulse, pulse] := by
  obtain ⟨hquery, hqueries, _⟩ := read_written "media"
  obtain ⟨_, _, hrule, hrules⟩ := read_written "keyframes"
  have hq : wideScreen.Proper := ⟨by decide, by decide⟩
  have hr : pulse.Proper := ⟨by decide, List.forall_mem_cons.2
    ⟨trivial, List.forall_mem_singleton.2 (by decide : "50".toList.getLast? ≠ some '%')⟩⟩
  exact ⟨(hquery _ hq).2 _ writtenAs_wideScreenEntries,
    hqueries _ _ (List.forall_mem_singleton.2 hq) (.cons writtenAs_wideScreenEntries .nil),
    (hrule _ hr).2 _ writtenAs_pulseEntries,
    hrules _ _ (List.forall_mem_cons.2 ⟨hr, List.forall_mem_singleton.2 hr⟩)
      (.cons writtenAs_pulseEntries (.cons writtenAs_pulseEntries .nil))⟩

end Payload

end Stylesheet
