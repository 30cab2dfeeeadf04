/-
What a failed build leaves behind.

* `Step.Truncated`: a step that builds what is left of what another step builds;
* `Step.Stopped`: an agenda up to a step that was refused or only done in part;
* `Step.Does.stopped`: where what a step leaves behind is stopped, a truncation of the step leaves
  just that behind, and does the same to the plan;
* `Plan.exists_stopped_of_run`: a run that fails has done a stopped agenda to its end;
* `Plan.exists_truncated_of_build`: a build that fails has built a truncation of its descriptor.
-/
import Stylesheet.Proofs.Build.Run
import Stylesheet.Proofs.Payload.Truncation

namespace Stylesheet

namespace Step

/-- A step that builds what is left of what another step builds. -/
inductive Truncated : Step → Step → Prop
  | entry {id : Nat} {path key : String} {value left : Value}
      (h : EntryTruncated (key, value) (key, left)) :
      Truncated (.entry id path key value) (.entry id path key left)
  | mixin {host : Nat} {path name : String} {value left : Value}
      (h : MixinTruncated (name, value) (name, left)) :
      Truncated (.mixin host path name value) (.mixin host path name left)
  | query {host : Nat} {selector path : String} {q : MediaQuery} {left : Descriptor}
      (h : q.css.Truncated left) :
      Truncated (.query host selector path q) (.query host selector path ⟨q.features, left⟩)
  | scope {r : Plan.Request} {path : String} {body left : Descriptor} (h : body.Truncated left) :
      Truncated (.scope r path body) (.scope r path left)

/-- An agenda up to a step that is refused or only done in part. A step that asks for a scope is
never refused. -/
inductive Stopped : List Step → List Step → Prop
  | refused {step : Step} (hr : step.request? = none) (rest : List Step) :
      Stopped (step :: rest) []
  | within {step left : Step} (h : step.Truncated left) (rest : List Step) :
      Stopped (step :: rest) [left]
  | later (step : Step) {rest left : List Step} (h : Stopped rest left) :
      Stopped (step :: rest) (step :: left)

variable {seed : Seed} {plan : Plan} {step : Step} {writes : List (Nat × String)}
  {more left rest : List Step}

namespace Stopped

/-- Of two agendas, one after the other, either the first is stopped or the second. -/
lemma append_cases (h : Stopped (more ++ rest) left) :
    Stopped more left ∨ ∃ left', left = more ++ left' ∧ Stopped rest left' := by
  induction more generalizing left with
  | nil => exact .inr ⟨left, rfl, h⟩
  | cons s more ih =>
    cases h with
    | refused hr => exact .inl (.refused hr more)
    | within ht => exact .inl (.within ht more)
    | later _ h =>
      rcases ih h with hmore | ⟨left', rfl, hrest⟩
      · exact .inl (.later s hmore)
      · exact .inr ⟨left', rfl, hrest⟩

/-- Where steps for some items are stopped, the items before are done. -/
lemma of_map {α : Type} {f : α → Step} {xs : List α} (h : Stopped (xs.map f) left) :
    ∃ kept x rest, xs = kept ++ x :: rest
      ∧ (left = kept.map f ∨ ∃ l, (f x).Truncated l ∧ left = kept.map f ++ [l]) := by
  induction xs generalizing left with
  | nil => cases h
  | cons x xs ih =>
    cases h with
    | refused hr => exact ⟨[], x, xs, rfl, .inl rfl⟩
    | within ht => exact ⟨[], x, xs, rfl, .inr ⟨_, ht, rfl⟩⟩
    | later _ h =>
      obtain ⟨kept, y, rest, rfl, hl⟩ := ih h
      refine ⟨x :: kept, y, rest, rfl, ?_⟩
      rcases hl with rfl | ⟨l, ht, rfl⟩
      · exact .inl rfl
      · exact .inr ⟨l, ht, rfl⟩

/-- Where the steps of queries are stopped, the queries before are done, and one in part. -/
lemma of_ofQueries {host i : Nat} {selector path : String} {queries : List MediaQuery}
    (h : Stopped (ofQueries host selector path i queries) left) :
    ∃ kept q rest css, queries = kept ++ q :: rest ∧ q.css.Truncated css
      ∧ left = ofQueries host selector path i (kept ++ [⟨q.features, css⟩]) := by
  induction queries generalizing i left with
  | nil => cases h
  | cons q queries ih =>
    cases h with
    | refused hr => cases hr
    | within ht =>
      cases ht with
      | query ht => exact ⟨[], q, queries, _, rfl, ht, rfl⟩
    | later _ h =>
      obtain ⟨kept, q', rest, css, rfl, hcss, rfl⟩ := ih h
      exact ⟨q :: kept, q', rest, css, rfl, hcss, rfl⟩

/-- A single step that asks for a scope is only done in part. -/
lemma of_scope {r : Plan.Request} {path : String} {body : Descriptor}
    (h : Stopped [.scope r path body] left) :
    ∃ b, body.Truncated b ∧ left = [.scope r path b] := by
  cases h with
  | refused hr => cases hr
  | within ht =>
    cases ht with
    | scope ht => exact ⟨_, ht, rfl⟩
  | later _ h => cases h

end Stopped

/-! ### One step -/

/-- Where what a directive leaves behind is stopped, the directive of a truncated entry leaves just
that behind. -/
lemma DirectiveDoes.stopped {id : Nat} {path key : String} {value : Value} {d : Directive}
    (hr : Directive.Reading key value path d)
    (hd : DirectiveDoes seed plan id path d writes more) (hl : Stopped more left) :
    ∃ value' d', EntryTruncated (key, value) (key, value') ∧ value'.isAbsent = false
      ∧ Directive.Reading key value' path d' ∧ DirectiveDoes seed plan id path d' writes left := by
  cases hd with
  | atRules hh => cases hl
  | keyframes hh =>
    cases hr with
    | keyframes hk hread =>
      obtain ⟨kept, x, rest, rfl, hleft⟩ := hl.of_map
      obtain rfl : left = kept.map _ := hleft.resolve_right fun ⟨_, ht, _⟩ => nomatch ht
      cases value with
      | list items =>
        obtain ⟨items', item, rest', at', rfl, hkept, _⟩ := Payload.exists_item_of_readItems hread
        exact ⟨.list items', .keyframes kept, .items (.inl hk) _, rfl, .keyframes hk hkept,
          .keyframes hh⟩
      | _ => cases hread
  | @mixins body host hh =>
    cases hr with
    | mixins hk hb =>
      obtain rfl := Value.block?_eq_some.1 hb
      obtain ⟨entries⟩ := body
      obtain ⟨kept, e, rest, rfl, hleft⟩ := hl.of_map
      rcases hleft with rfl | ⟨l, ht, rfl⟩
      · exact ⟨.block kept, .mixins ⟨kept⟩, .mixins hk (.before kept _), rfl, .mixins hk rfl,
          .mixins hh⟩
      · obtain ⟨name, v⟩ := e
        cases ht with
        | @mixin _ _ _ _ v' ht =>
          refine ⟨.block (kept ++ [(name, v')]), .mixins ⟨kept ++ [(name, v')]⟩,
            .mixins hk (.within kept ht rest), rfl, .mixins hk rfl, ?_⟩
          have hdoes : DirectiveDoes seed plan id path (.mixins ⟨kept ++ [(name, v')]⟩) [] _ :=
            .mixins hh
          rwa [List.map_append] at hdoes
  | media hh =>
    cases hr with
    | media hk hread =>
      obtain ⟨kept, q, rest, css, rfl, hcss, rfl⟩ := hl.of_ofQueries
      cases value with
      | list items =>
        obtain ⟨items', item, rest', at', rfl, hkept, _, hq⟩ :=
          Payload.exists_item_of_readItems hread
        obtain ⟨before, after, rfl, hbody⟩ := MediaQuery.exists_css_of_read hq
        refine ⟨.list (items'
            ++ [.block (before ++ (MediaQuery.cssKey, .block css.entries) :: after)]),
          .media (kept ++ [⟨q.features, css⟩]),
          .media hk (.within items' (.css before after hcss) rest'), rfl, .media hk ?_, .media hh⟩
        exact Payload.readItems_concat hkept rfl fun at' => hbody css.entries at'
      | _ => cases hread
  | overrides =>
    cases hr with
    | overrides hk hv hm =>
      obtain rfl := Value.list?_eq_some.1 hv
      obtain ⟨kept, m, rest, rfl, hleft⟩ := hl.of_map
      obtain rfl : left = kept.map _ := hleft.resolve_right fun ⟨_, ht, _⟩ => nomatch ht
      obtain ⟨items', item, rest', at', rfl, hkept, _⟩ := Payload.exists_item_of_readItems hm
      exact ⟨.list items', .overrides kept, .items (.inr hk) _, rfl, .overrides hk rfl hkept,
        .overrides⟩
  | nested =>
    cases hr with
    | nested hk hs hn hb =>
      obtain rfl := Value.block?_eq_some.1 hb
      obtain ⟨b, ht, rfl⟩ := hl.of_scope
      exact ⟨.block b.entries, .nested _ b, .body hk ht, rfl, .nested hk hs hn rfl, .nested⟩
  | rule hkind hb =>
    cases hr with
    | member hk hs =>
      obtain rfl := Value.block?_eq_some.1 hb
      obtain ⟨b, ht, rfl⟩ := hl.of_scope
      exact ⟨.block b.entries, .member key (.block b.entries), .body hk ht, rfl, .member hk hs,
        .rule hkind rfl⟩
  | declaration hkind hlit => cases hl

/-- Where what a step leaves behind is stopped, a truncation of the step leaves just that behind,
and does the same to the plan. -/
lemma Does.stopped (hd : Does seed plan step writes more) (hl : Stopped more left) :
    ∃ step', step.Truncated step' ∧ Does seed plan step' writes left
      ∧ step'.request? = step.request? := by
  cases hd with
  | absentEntry ha => cases hl
  | @entry id path key value d _ _ ha hc hd =>
    obtain ⟨value', d', ht, ha', hr, hd'⟩ := hd.stopped (Directive.classify_eq_ok.1 hc) hl
    exact ⟨.entry id path key value', .entry ht,
      .entry ha' (Directive.classify_eq_ok.2 hr) hd', rfl⟩
  | keyframes hr => cases hl
  | override ht => cases hl
  | absentMixin ha => cases hl
  | @mixin host path name value body hb =>
    obtain rfl := Value.block?_eq_some.1 hb
    obtain ⟨b, ht, rfl⟩ := hl.of_scope
    exact ⟨.mixin host path name (.block b.entries), .mixin (.body ht), .mixin rfl, rfl⟩
  | @query host selector path q =>
    obtain ⟨b, ht, rfl⟩ := hl.of_scope
    exact ⟨.query host selector path ⟨q.features, b⟩, .query ht, .query, rfl⟩
  | @scope r path body =>
    obtain ⟨kept, e, rest, hentries, hleft⟩ := hl.of_map
    rcases hleft with rfl | ⟨l, ht, rfl⟩
    · refine ⟨.scope r path ⟨kept⟩, .scope ?_, .scope, rfl⟩
      rw [Descriptor.Truncated, hentries]
      exact .before kept _
    · obtain ⟨key, value⟩ := e
      cases ht with
      | @entry _ _ _ _ value' ht =>
        have hdoes : Does seed plan (.scope r path ⟨kept ++ [(key, value')]⟩) [] _ := .scope
        rw [ofBody, List.map_append] at hdoes
        refine ⟨_, .scope ?_, hdoes, rfl⟩
        rw [Descriptor.Truncated, hentries]
        exact .within kept ht rest

end Step

/-! ### A run -/

namespace Plan

open Step (Stopped)

variable {seed : Seed} {plan : Plan} {agenda : List Step} {failure : Failure}

/-- A run that fails has done a stopped agenda to its end. -/
lemma exists_stopped_of_run (h : run seed agenda plan = .error failure) :
    ∃ left, Stopped agenda left ∧ run seed left plan = .ok failure.plan := by
  induction agenda, plan using run_induction seed with
  | nil plan =>
    rw [run_nil] at h
    cases h
  | refused step rest plan e he =>
    rw [run_refused he] at h
    cases h
    refine ⟨[], .refused ?_ rest, run_nil⟩
    have heffect := effect_of_refused he
    cases step with
    | query => cases heffect
    | scope => cases heffect
    | _ => rfl
  | performed step rest plan writes more he hd ih =>
    rw [run_performed he] at h
    obtain ⟨left, hl, hrun⟩ := ih h
    rcases hl.append_cases with hmore | ⟨left', rfl, hrest⟩
    · -- it was stopped in what the step left behind
      obtain ⟨step', ht, hd', hreq⟩ := hd.stopped hmore
      refine ⟨[step'], .within ht rest, ?_⟩
      rw [run_performed hd'.effect, List.append_nil, after, hreq]
      exact hrun
    · -- it was stopped later
      refine ⟨step :: left', .later step hrest, ?_⟩
      rw [run_performed he]
      exact hrun

/-- **A failed build leaves a well-defined plan behind**: it is what a truncation of the descriptor
builds into the same scope, and that build does not fail. -/
theorem exists_truncated_of_build {target : Nat} {d : Descriptor}
    (h : plan.build target d seed = .error failure) :
    ∃ left, d.Truncated left ∧ plan.build target left seed = .ok failure.plan := by
  obtain ⟨agenda, hl, hrun⟩ := exists_stopped_of_run h
  obtain ⟨kept, e, rest, hentries, hleft⟩ := hl.of_map
  rcases hleft with rfl | ⟨l, ht, rfl⟩
  · refine ⟨⟨kept⟩, ?_, hrun⟩
    rw [Descriptor.Truncated, hentries]
    exact .before kept _
  · obtain ⟨key, value⟩ := e
    cases ht with
    | @entry _ _ _ _ value' ht =>
      refine ⟨⟨kept ++ [(key, value')]⟩, ?_, ?_⟩
      · rw [Descriptor.Truncated, hentries]
        exact .within kept ht rest
      · rw [build, Step.ofBody, List.map_append]
        exact hrun

/-- A body with a media block whose second mixin has no literal under `left`. -/
def brokenMixin : Descriptor :=
  ⟨[("color", .literal (.text "red")),
    ("media", .list [.block [("css", .block [("color", .literal (.text "black")),
      ("mixins", .block [("b", .block [("top", .literal (.text "0"))]),
        ("i", .block [("margin", .literal (.text "0")), ("left", .block [])])])]),
      ("print", .literal (.text ""))]])]⟩

/-- What is left behind by a build that fails in a mixin of a media block, into a scope of an
earlier plan, is what a truncation builds. -/
theorem exists_truncated_of_build_brokenMixin :
    ∃ failure, (left (empty.build 0 ⟨[("menu", .block [("& a", .block [])])]⟩ .identity)).build 2
        brokenMixin .identity = .error failure
      ∧ ∃ kept, brokenMixin.Truncated kept
        ∧ (left (empty.build 0 ⟨[("menu", .block [("& a", .block [])])]⟩ .identity)).build 2
            kept .identity = .ok failure.plan := by
  obtain ⟨failure, h⟩ := exists_error_of_isNone (x := (left (empty.build 0
    ⟨[("menu", .block [("& a", .block [])])]⟩ .identity)).build 2 brokenMixin .identity)
    (by decide +kernel)
  exact ⟨failure, h, exists_truncated_of_build h⟩

end Plan

end Stylesheet
