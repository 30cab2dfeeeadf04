/-
Builds follow the meaning of what they build.

* `Step.Reads`, `Step.ReadsAll`: the contributions that steps still have to make, as the meaning has
  them in the contexts that the scopes of the steps stand for;
* `Plan.Lands`: a declaration is what a contribution asks for;
* `Step.Does.explains`: what a step was to contribute is what it declares and what it leaves behind;
* `Plan.journal_lands`: the journal of a finished run is the meaning of its agenda, one by one.

None of this needs requests to be answered in kind. Where they are, contexts agree as well.
-/
import Stylesheet.Proofs.Build.Run
import Stylesheet.Proofs.Plan.Context

namespace Stylesheet

/-- A declaration is made in a scope that stands for the context of a contribution, and is its
text. -/
def Plan.Lands (plan : Plan) (kept : Prop) (w : Nat × String) (m : Contribution) : Prop :=
  ∃ c, Plan.Stands kept plan w.1 c ∧ m = c.contribute w.2

lemma Plan.Lands.mono {kept : Prop} {plan later : Plan} {w : Nat × String} {m : Contribution}
    (hl : plan.Lands kept w m) (h : plan.Extends later) : later.Lands kept w m := by
  obtain ⟨c, hs, hm⟩ := hl
  exact ⟨c, hs.mono h, hm⟩

/-- A step that asks for a scope under one that is there, and for no further stylesheet, keeps a
plan rooted. -/
lemma Plan.Rooted.after {plan : Plan} (h : plan.Rooted) {step : Step}
    (hr : ∀ r ∈ step.request?, r.host < plan.size ∧ r.kind ≠ .global)
    (writes : List (Nat × String)) : (plan.after step writes).Rooted := by
  refine Rooted.declareAll ?_ writes
  cases hreq : step.request? with
  | none => exact h
  | some r =>
    obtain ⟨hlt, hk⟩ := hr r hreq
    exact h.enter hlt hk

namespace Step

open Plan

variable {seed : Seed} {kept : Prop} {plan later : Plan} {step : Step}
  {agenda more rest : List Step} {writes : List (Nat × String)} {ms ns : List Contribution}
  {c : Context}

/-! ### Readings -/

/-- The contributions that a step has to make. -/
inductive Reads (seed : Seed) (kept : Prop) (plan : Plan) : Step → List Contribution → Prop where
  | entry {id : Nat} {c : Context} {path key : String} {value : Value}
      (hs : Stands kept plan id c) :
      Reads seed kept plan (.entry id path key value) (Meaning.entry seed c key value)
  | keyframes {rule : Keyframes} {text : String} (ht : ∀ css, rule.css = .ok css → text = css) :
      Reads seed kept plan (.keyframes 0 rule) [.raw text]
  | override {id : Nat} {c : Context} {mapping : Descriptor} (hs : Stands kept plan id c) :
      Reads seed kept plan (.override id mapping)
        ((Directive.overrideTexts mapping).map c.contribute)
  | mixin {host : Nat} {c : Context} {path name : String} {value : Value}
      (ho : Opens kept plan ⟨host, .mixin, name⟩ (c.mixin name)) :
      Reads seed kept plan (.mixin host path name value) (Meaning.body seed (c.mixin name) value)
  | query {host : Nat} {c : Context} {selector path : String} {q : MediaQuery}
      (hlt : host < plan.size) (hs : kept → selector = c.selector) :
      Reads seed kept plan (.query host selector path q)
        (Meaning.entries seed (c.media q.target) q.css.entries)
  | scope {r : Plan.Request} {c : Context} {path : String} {body : Descriptor}
      (ho : Opens kept plan r c) :
      Reads seed kept plan (.scope r path body) (Meaning.entries seed c body.entries)

/-- The contributions that the steps of an agenda have to make, one after another. -/
inductive ReadsAll (seed : Seed) (kept : Prop) (plan : Plan) :
    List Step → List Contribution → Prop where
  | nil : ReadsAll seed kept plan [] []
  | cons {step : Step} {rest : List Step} {ms later : List Contribution}
      (h : Reads seed kept plan step ms) (hrest : ReadsAll seed kept plan rest later) :
      ReadsAll seed kept plan (step :: rest) (ms ++ later)

lemma Reads.mono (hr : Reads seed kept plan step ms) (h : plan.Extends later) :
    Reads seed kept later step ms := by
  cases hr with
  | entry hs => exact .entry (hs.mono h)
  | keyframes ht => exact .keyframes ht
  | override hs => exact .override (hs.mono h)
  | mixin ho => exact .mixin (ho.mono h)
  | query hlt hs => exact .query (Nat.lt_of_lt_of_le hlt h.size_le) hs
  | scope ho => exact .scope (ho.mono h)

namespace ReadsAll

lemma mono (hr : ReadsAll seed kept plan agenda ms) (h : plan.Extends later) :
    ReadsAll seed kept later agenda ms := by
  induction hr with
  | nil => exact .nil
  | cons hstep _ ih => exact .cons (hstep.mono h) ih

lemma append (hm : ReadsAll seed kept plan more ms) (hr : ReadsAll seed kept plan rest ns) :
    ReadsAll seed kept plan (more ++ rest) (ms ++ ns) := by
  induction hm with
  | nil => exact hr
  | cons hstep _ ih =>
    rw [List.append_assoc]
    exact .cons hstep ih

lemma singleton (h : Reads seed kept plan step ms) : ReadsAll seed kept plan [step] ms := by
  have hs := cons h .nil
  rwa [List.append_nil] at hs

/-- Steps and what they were read from go together, one by one. -/
lemma of_forall₂ {α β : Type} {f : α → Step} {g : β → List Contribution} {ys : List β}
    {xs : List α} (h : List.Forall₂ (fun y x => Reads seed kept plan (f x) (g y)) ys xs) :
    ReadsAll seed kept plan (xs.map f) (ys.flatMap g) := by
  induction h with
  | nil => exact .nil
  | cons hyx _ ih =>
    rw [List.map_cons, List.flatMap_cons]
    exact .cons hyx ih

lemma map {α : Type} {f : α → Step} {g : α → List Contribution}
    (h : ∀ x, Reads seed kept plan (f x) (g x)) (xs : List α) :
    ReadsAll seed kept plan (xs.map f) (xs.flatMap g) :=
  of_forall₂ (List.forall₂_same.2 fun x _ => h x)

/-- The steps of a body have to make the contributions of its entries. -/
lemma ofBody {id : Nat} (hs : Stands kept plan id c) (path : String) (body : Descriptor) :
    ReadsAll seed kept plan (ofBody id path body) (Meaning.entries seed c body.entries) := by
  rw [Meaning.entries_eq_flatMap, Step.ofBody]
  exact map (fun e => .entry hs) body.entries

lemma ofQueries {host : Nat} {selector : String} (hlt : host < plan.size)
    (hs : kept → selector = c.selector) (path : String) (i : Nat) (queries : List MediaQuery) :
    ReadsAll seed kept plan (ofQueries host selector path i queries)
      (queries.flatMap fun q => Meaning.entries seed (c.media q.target) q.css.entries) := by
  induction queries generalizing i with
  | nil => exact .nil
  | cons q rest ih =>
    rw [List.flatMap_cons]
    exact .cons (.query hlt hs) (ih (i + 1))

end ReadsAll

/-! ### One step -/

/-- What was to be contributed is what is declared and what is left to be done. -/
def Explains (seed : Seed) (kept : Prop) (plan : Plan) (writes : List (Nat × String))
    (more : List Step) (ms : List Contribution) : Prop :=
  ∃ landed pending, ms = landed ++ pending ∧ List.Forall₂ (plan.Lands kept) writes landed
    ∧ ReadsAll seed kept plan more pending

namespace Explains

lemma nothing : Explains seed kept plan [] [] [] :=
  ⟨[], [], rfl, .nil, .nil⟩

lemma pending (h : ReadsAll seed kept plan more ms) : Explains seed kept plan [] more ms :=
  ⟨[], ms, rfl, .nil, h⟩

lemma landed (h : List.Forall₂ (plan.Lands kept) writes ms) :
    Explains seed kept plan writes [] ms :=
  ⟨ms, [], (List.append_nil ms).symm, h, .nil⟩

lemma mono (he : Explains seed kept plan writes more ms) (h : plan.Extends later) :
    Explains seed kept later writes more ms := by
  obtain ⟨landed, pending, hm, hl, hp⟩ := he
  exact ⟨landed, pending, hm, hl.imp fun _ _ hl => hl.mono h, hp.mono h⟩

end Explains

/-- What an entry has to contribute is what its directive does. -/
lemma DirectiveDoes.explains {id : Nat} {key path : String} {value : Value} {d : Directive}
    (h : plan.Rooted) (hs : Stands kept plan id c) (hr : Directive.Reading key value path d)
    (hd : DirectiveDoes seed plan id path d writes more) :
    Explains seed kept plan writes more (Meaning.entry seed c key value) := by
  cases hr with
  | atRules hk hv ht =>
    cases hd with
    | atRules hh =>
      obtain rfl := Value.list?_eq_some.1 hv
      obtain rfl : key = "atRules" := Directive.eq_key_of_ofKey? hk
      obtain rfl := h.globalHost_eq_zero hh
      rw [Meaning.entry, if_pos rfl, ← Directive.literals_of_literalsOf ht, List.map_map]
      refine .landed (forall₂_map (fun l => ⟨.top, .root h, ?_⟩) _)
      rw [Context.contribute_top, Function.comp_apply, Step.terminated_eq]
  | keyframes hk hread =>
    cases hd with
    | keyframes hh =>
      obtain ⟨vs, hv, hrules⟩ := (Payload.readList_eq_ok Keyframes.pathFree_read).1 hread
      obtain rfl := Value.list?_eq_some.1 hv
      obtain rfl : key = "keyframes" := Directive.eq_key_of_ofKey? hk
      obtain rfl := h.globalHost_eq_zero hh
      have hone : (Value.present vs).map (fun rule => Contribution.raw rule.animationText)
          = (Value.present vs).flatMap fun rule => [.raw rule.animationText] := List.map_eq_flatMap
      rw [Meaning.entry, if_neg (by decide), if_pos rfl, hone]
      refine .pending (.of_forall₂ (hrules.imp fun v rule hrule => .keyframes fun css hcss => ?_))
      exact Keyframes.animationText_of_read hrule hcss
  | mixins hk hb =>
    cases hd with
    | mixins hh =>
      obtain rfl := Value.block?_eq_some.1 hb
      obtain rfl : key = "mixins" := Directive.eq_key_of_ofKey? hk
      rw [Meaning.entry, if_pos rfl, Meaning.mixins_eq_flatMap]
      exact .pending (.map (fun e => .mixin (hs.opens_mixin h hh e.1)) _)
  | media hk hread =>
    cases hd with
    | @media _ host hh =>
      obtain ⟨vs, hv, hqueries⟩ := (Payload.readList_eq_ok MediaQuery.pathFree_read).1 hread
      obtain rfl := Value.list?_eq_some.1 hv
      obtain rfl : key = "media" := Directive.eq_key_of_ofKey? hk
      have hlt : host < plan.size := by
        rw [h.mediaHost_eq_zero hh]
        exact h.wellFormed.size_pos
      rw [Meaning.entry, if_neg (by decide), if_neg (by decide), if_neg (by decide), if_pos rfl,
        Meaning.queries_of_read hqueries]
      exact .pending (.ofQueries hlt (fun hk => (hs.agrees hk).2.1) path 0 _)
  | overrides hk hv hm =>
    cases hd with
    | overrides =>
      obtain rfl := Value.list?_eq_some.1 hv
      obtain rfl : key = "overrides" := Directive.eq_key_of_ofKey? hk
      rw [Meaning.entry, if_neg (by decide), if_neg (by decide), if_pos rfl,
        Directive.mappings_of_mappingsOf hm, List.map_flatMap]
      exact .pending (.map (fun _ => .override hs) _)
  | nested hk hsuffix hn hb =>
    cases hd with
    | nested =>
      rw [Meaning.entry_nested hk hsuffix hb]
      exact .pending (.singleton (.scope (hs.opens_nested _)))
  | member hk hsuffix =>
    cases hd with
    | rule hg hb =>
      rw [Meaning.entry_rule hk hsuffix ((hs.kind_eq_global h).1 hg) hb]
      exact .pending (.singleton (.scope (hs.opens_rule h hg seed key)))
    | declaration hg hl =>
      rw [Meaning.entry_declaration hk hsuffix (mt (hs.kind_eq_global h).2 hg) hl]
      exact .landed (.cons ⟨c, hs, rfl⟩ .nil)

/-- What a step has to contribute is what it declares and what it leaves behind. -/
lemma Does.explains (h : plan.Rooted) (hr : Reads seed kept plan step ms)
    (hd : Does seed plan step writes more)
    (hk : kept → ∀ r ∈ step.request?, plan.Keeps r) :
    Explains seed kept (plan.after step writes) writes more ms := by
  cases hr with
  | entry hs =>
    cases hd with
    | absentEntry ha =>
      rw [Meaning.entry_of_isAbsent ha]
      exact .nothing
    | entry ha hc hd =>
      exact (hd.explains h hs (Directive.classify_eq_ok.1 hc)).mono (extends_declareAll writes)
  | keyframes ht =>
    cases hd with
    | keyframes hcss =>
      rw [ht _ hcss]
      exact .landed (.cons ⟨.top, .root (h.declareAll _), (Context.contribute_top _).symm⟩ .nil)
  | override hs =>
    cases hd with
    | override ht =>
      rw [Directive.overrideTexts_of_textOf ht]
      refine .landed ?_
      split
      · exact .nil
      · exact .cons ⟨_, hs.mono (extends_declareAll _), rfl⟩ .nil
  | mixin ho =>
    cases hd with
    | absentMixin ha =>
      rw [Meaning.body_of_isAbsent ha]
      exact .nothing
    | mixin hb =>
      rw [Meaning.body_of_block? hb]
      exact .pending (.singleton (.scope ho))
  | query hlt hs =>
    cases hd with
    | query => exact .pending (.singleton (.scope (h.opens_query hlt (fun hk' => hk hk' _ rfl) hs)))
  | scope ho =>
    cases hd with
    | scope => exact .pending (.ofBody (ho.stands h (fun hk' => hk hk' _ rfl)) _ _)

lemma Reads.rooted (h : plan.Rooted) (hr : Reads seed kept plan step ms) :
    (plan.after step writes).Rooted := by
  refine h.after ?_ writes
  cases hr with
  | query hlt hs => exact fun r hr => Option.mem_some.1 hr ▸ ⟨hlt, nofun⟩
  | scope ho => exact fun r hr => Option.mem_some.1 hr ▸ ⟨ho.host_lt, ho.kind ▸ ho.ne_global⟩
  | _ => exact fun r hr => nomatch hr

end Step

/-! ### A run -/

namespace Plan

variable {seed : Seed} {kept : Prop} {plan final : Plan} {agenda : List Step}
  {ms : List Contribution}

/-- Whether all requests of a run are answered in kind. -/
def RunKeeps (seed : Seed) (agenda : List Step) (plan : Plan) : Prop :=
  ∀ e ∈ trace seed agenda plan, ∀ r ∈ e.2.request?, e.1.Keeps r

instance (seed : Seed) (agenda : List Step) (plan : Plan) : Decidable (RunKeeps seed agenda plan) :=
  inferInstanceAs (Decidable (∀ e ∈ trace seed agenda plan, ∀ r ∈ e.2.request?, e.1.Keeps r))

/-- **A finished run follows the meaning of its agenda**: its declarations are the contributions of
the agenda, one by one, each in a scope that stands for the context of the contribution. -/
theorem journal_lands (h : plan.Rooted) (hr : Step.ReadsAll seed kept plan agenda ms)
    (hk : kept → RunKeeps seed agenda plan) (hrun : run seed agenda plan = .ok final) :
    final.Rooted ∧ List.Forall₂ (final.Lands kept) (journal seed agenda plan) ms := by
  induction agenda, plan using run_induction seed generalizing ms with
  | nil plan =>
    rw [run_nil] at hrun
    cases hrun
    cases hr
    rw [journal_nil]
    exact ⟨h, .nil⟩
  | refused step rest plan e he =>
    rw [run_refused he] at hrun
    cases hrun
  | performed step rest plan writes more he hd ih =>
    rw [run_performed he] at hrun
    rw [journal_performed he]
    cases hr with
    | cons hstep hrest =>
      have hnow : kept → ∀ r ∈ step.request?, plan.Keeps r := fun hk' =>
        hk hk' (plan, step) (by rw [trace_performed he]; exact List.mem_cons_self)
      have hlater : kept → RunKeeps seed (more ++ rest) (plan.after step writes) :=
        fun hk' e hm => hk hk' e (by rw [trace_performed he]; exact List.mem_cons_of_mem _ hm)
      obtain ⟨landed, pending, rfl, hl, hp⟩ := hd.explains h hstep hnow
      have hext : (plan.after step writes).Extends final := extends_of_run hrun
      rw [List.append_assoc]
      obtain ⟨hfinal, htail⟩ := ih (hstep.rooted h)
        (hp.append (hrest.mono (extends_after plan step writes))) hlater hrun
      exact ⟨hfinal, List.rel_append (hl.imp fun _ _ hl => hl.mono hext) htail⟩

end Plan

end Stylesheet
