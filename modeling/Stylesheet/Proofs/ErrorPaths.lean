/-
Where errors point.

* `Site.exists_mem_ofQueries`: the steps of queries give the positions among those that were read;
* `Descriptor.Places`: a path at which errors in a body of the descriptor are reported;
* `Has.text_under`: errors in the value of an entry are reported below its path;
* `Has.places_rule`, `Has.places_mixin`, `Has.places_query`: the bodies in the value of an entry are
  placed at the paths that steps have for them;
* `Step.Located`: all that a step has to build is in the descriptor, and reported at its path;
* `Does.located`: so is all that a step leaves behind;
* `Plan.Traced`: an orderly build whose steps are located;
* `Plan.exists_finding_of_payload`: a build that is refused for the fault of a payload gives the
  location of a finding, but with the queries around it counted without the absent ones;
* `Plan.not_written_gappedQueries`: after an absent query, nothing wrong is written there.
-/
import Stylesheet.Proofs.Build.Orderly
import Stylesheet.Proofs.Build.Refusals
import Stylesheet.Proofs.Payload.Truncation

namespace Stylesheet

/-- The body of a query that was read is one of those in the list, reported at the position that the
query has among those that were read. -/
lemma Site.exists_mem_ofQueries {i k : Nat} (j : Nat) {host : Nat} {selector path at' : String}
    {items : List Value} {queries : List MediaQuery} {step : Step}
    (hq : Payload.readItems MediaQuery.read at' k items = .ok queries)
    (hs : step ∈ Step.ofQueries host selector path j queries) :
    ∃ c ∈ ofQueries i j items, ∃ q : MediaQuery,
      step = .query host selector (path ++ c.reported.suffix) q ∧ q.css = c.body := by
  induction items generalizing i j k queries with
  | nil =>
    cases hq
    cases hs
  | cons v rest ih =>
    rw [Payload.readItems] at hq
    split at hq
    · rename_i ha
      cases v with
      | absent => exact ih j hq hs
      | _ => cases ha
    · obtain ⟨q, hread, hq⟩ := bind_eq_ok.1 hq
      obtain ⟨qs, hrest, hq⟩ := bind_eq_ok.1 hq
      cases hq
      obtain ⟨before, after, rfl, _⟩ := MediaQuery.exists_css_of_read hread
      rcases List.mem_cons.1 hs with rfl | hs
      · have hcss : (MediaQuery.cssKey, Value.block q.css.entries)
            ∈ before ++ (MediaQuery.cssKey, .block q.css.entries) :: after :=
          List.mem_append_right before List.mem_cons_self
        have hc : ⟨[.key MediaQuery.cssKey], [.key MediaQuery.cssKey], q.css⟩
            ∈ ofEntries (· == MediaQuery.cssKey)
              (before ++ (MediaQuery.cssKey, .block q.css.entries) :: after) :=
          mem_ofEntries hcss (beq_self_eq_true _) rfl
        refine ⟨_, List.mem_append_left _ (List.mem_map_of_mem hc), q, ?_, rfl⟩
        rw [Location.field_eq, Location.item_eq, String.append_assoc, ← Location.suffix_append]
        rfl
      · obtain ⟨c, hc, hstep⟩ := ih (i := i + 1) (j + 1) hrest hs
        exact ⟨c, List.mem_append_right _ hc, hstep⟩

/-! ### Places -/

namespace Descriptor

/-- A body is in the descriptor, not at its top, and errors in it are reported at a path. -/
def Places (d : Descriptor) (path : String) (body : Descriptor) : Prop :=
  ∃ b, d.Has b ∧ b.written ≠ [] ∧ b.body = body ∧ b.reported.text = path

namespace Has

variable {d body : Descriptor} {b c : Site} {key : String} {value : Value}

/-- Errors at a key of a body are reported at the location of the key. -/
lemma child_text (hkeys : ∀ key ∈ d.keys, key ≠ "") (h : d.Has b) (key : String) :
    Path.child b.reported.text key = Location.text (b.reported ++ [.key key]) :=
  Location.text_child
    (h.reports.eq_nil_or_named fun e he => hkeys e.1 (List.mem_map_of_mem he)) key

/-- What is below a key of a body is reported below the path of the key. -/
lemma text_under (hkeys : ∀ key ∈ d.keys, key ≠ "") (h : d.Has b) (key : String) (ℓ : Location) :
    Location.text (b.reported ++ .key key :: ℓ) = Path.child b.reported.text key ++ ℓ.suffix := by
  rw [h.child_text hkeys key, ← Location.text_append
    (List.append_ne_nil_of_right_ne_nil _ (List.cons_ne_nil _ _)), List.append_assoc]
  rfl

section

variable (hkeys : ∀ key ∈ d.keys, key ≠ "") (h : d.Has b) (he : (key, value) ∈ b.body.entries)

include hkeys h he

/-- Below an entry of a body, there is always a path to go on from. -/
lemma child_field (name : String) :
    Path.child (Path.child b.reported.text key) name
      = Path.field (Path.child b.reported.text key) name := by
  have hne : b.reported ++ [.key key] ≠ [] :=
    List.append_ne_nil_of_right_ne_nil _ (List.cons_ne_nil _ _)
  have hnamed := (h.reports.trans (.entry he (.here _))).eq_nil_or_named
    fun e he => hkeys e.1 (List.mem_map_of_mem he)
  rw [h.child_text hkeys key, Location.text_child hnamed, Location.text_append hne,
    Location.field_eq]

/-- A body in the value of an entry is placed in the descriptor. -/
lemma places (hc : c ∈ Site.ofEntry b.written.isEmpty key value) :
    d.Places (Path.child b.reported.text key ++ c.reported.suffix) c.body := by
  have hin : c.under (b.written ++ [.key key]) (b.reported ++ [.key key]) ∈ b.inside :=
    List.mem_flatMap.2 ⟨_, he, List.mem_map_of_mem hc⟩
  refine ⟨_, .inside h hin, ?_, rfl, ?_⟩
  · obtain ⟨_, _, _, hne⟩ := Site.in_of_mem_inside hin
    exact hne
  · rw [← h.text_under hkeys key, Site.under, List.append_assoc _ _ c.reported]
    rfl

/-- The value of a rule is placed at the path of its entry. -/
lemma places_rule (hk : Directive.Reserved.ofKey? key = none)
    (hrule : b.written = [] ∨ (Directive.nestingSuffix? key).isSome = true)
    (hv : value.block? = some body) : d.Places (Path.child b.reported.text key) body := by
  have hc : ⟨[], [], body⟩ ∈ Site.ofEntry b.written.isEmpty key value := by
    unfold Site.ofEntry
    rw [hk]
    dsimp only
    rw [if_pos (by rwa [Bool.or_eq_true, List.isEmpty_iff])]
    exact Site.mem_ofBlock hv
  have hp := h.places hkeys he hc
  rwa [Location.suffix_nil, String.append_empty] at hp

/-- The body of a mixin is placed at the path of its name. -/
lemma places_mixin {mixins : Descriptor} {e : String × Value}
    (hk : Directive.Reserved.ofKey? key = some .mixins) (hv : value.block? = some mixins)
    (hm : e ∈ mixins.entries) (hb : e.2.block? = some body) :
    d.Places (Path.child (Path.child b.reported.text key) e.1) body := by
  rw [Value.block?_eq_some] at hv
  subst hv
  have hc : ⟨[.key e.1], [.key e.1], body⟩
      ∈ Site.ofEntry b.written.isEmpty key (.block mixins.entries) := by
    unfold Site.ofEntry
    rw [hk]
    exact Site.mem_ofEntries hm rfl hb
  have hp := h.places hkeys he hc
  rwa [← Location.field_eq, ← h.child_field hkeys he] at hp

/-- The body of a query is placed at the path that its step has. -/
lemma places_query {host : Nat} {selector : String} {queries : List MediaQuery} {step : Step}
    (hk : Directive.Reserved.ofKey? key = some .media)
    (hq : MediaQuery.readList value (Path.child b.reported.text key) = .ok queries)
    (hs : step ∈ Step.ofQueries host selector (Path.child b.reported.text key) 0 queries) :
    ∃ path q, step = .query host selector path q ∧ d.Places path q.css := by
  rw [MediaQuery.readList, Payload.readList] at hq
  split at hq
  · rename_i items hv
    rw [Value.list?_eq_some] at hv
    subst hv
    obtain ⟨c, hc, q, rfl, hcss⟩ := Site.exists_mem_ofQueries (i := 0) 0 hq hs
    have hc' : c ∈ Site.ofEntry b.written.isEmpty key (.list items) := by
      unfold Site.ofEntry
      rw [hk]
      exact hc
    exact ⟨_, q, rfl, hcss ▸ h.places hkeys he hc'⟩
  · cases hq

end

end Has

end Descriptor

/-! ### Located steps -/

namespace Step

open Plan

variable {seed : Seed} {plan : Plan} {step : Step} {d : Descriptor}
  {writes : List (Nat × String)} {more : List Step}

/-- What a step has to build is in the descriptor, and errors in it are reported at its path. Only
the entries of the descriptor itself are built into the root. -/
def Located (d : Descriptor) : Step → Prop
  | .entry id path key value =>
    ∃ b, d.Has b ∧ (id = 0 → b.written = []) ∧ (key, value) ∈ b.body.entries
      ∧ b.reported.text = path
  | .mixin _ path name value =>
    ∀ body, value.block? = some body → d.Places (Path.child path name) body
  | .query _ _ path q => d.Places path q.css
  | .scope _ path body => d.Places path body
  | _ => True

lemma located_of_mem_ofBody (d : Descriptor) {s : Step} (h : s ∈ ofBody 0 "" d) : s.Located d := by
  obtain ⟨e, he, rfl⟩ := List.mem_map.1 h
  exact ⟨_, .root, fun _ => rfl, he, rfl⟩

lemma DirectiveDoes.located {b : Site} {id : Nat} {key : String} {value : Value}
    {dir : Directive} (hkeys : ∀ key ∈ d.keys, key ≠ "") (h : plan.Rooted) (hb : d.Has b)
    (hid : id = 0 → b.written = []) (he : (key, value) ∈ b.body.entries)
    (hr : Directive.Reading key value (Path.child b.reported.text key) dir)
    (hd : DirectiveDoes seed plan id (Path.child b.reported.text key) dir writes more) :
    ∀ s ∈ more, s.Located d := by
  cases hr with
  | atRules hk hv hr =>
    cases hd
    exact List.forall_mem_nil _
  | keyframes hk hr =>
    cases hd
    intro s hs
    obtain ⟨rule, _, rfl⟩ := List.mem_map.1 hs
    exact trivial
  | mixins hk hv =>
    cases hd
    intro s hs
    obtain ⟨e, hm, rfl⟩ := List.mem_map.1 hs
    exact fun body hbody => hb.places_mixin hkeys he hk hv hm hbody
  | media hk hq =>
    cases hd
    intro s hs
    obtain ⟨path, q, rfl, hp⟩ := hb.places_query hkeys he hk hq hs
    exact hp
  | overrides hk hv hm =>
    cases hd
    intro s hs
    obtain ⟨mapping, _, rfl⟩ := List.mem_map.1 hs
    exact trivial
  | nested hk hs hn hv =>
    cases hd
    have hsome : (Directive.nestingSuffix? key).isSome = true := by rw [hs, Option.isSome_some]
    exact List.forall_mem_singleton.2 (hb.places_rule hkeys he hk (.inr hsome) hv)
  | member hk hs =>
    cases hd with
    | rule hg hv =>
      have htop := hid (h.kind?_eq_global.1 hg)
      exact List.forall_mem_singleton.2 (hb.places_rule hkeys he hk (.inl htop) hv)
    | declaration _ hl => exact List.forall_mem_nil _

/-- What a located step leaves behind is located. -/
lemma Does.located (hkeys : ∀ key ∈ d.keys, key ≠ "") (h : plan.Rooted)
    (ht : step.target < plan.size) (hl : step.Located d) (hd : Does seed plan step writes more) :
    ∀ s ∈ more, s.Located d := by
  cases hd with
  | entry ha hc hd =>
    obtain ⟨b, hb, hid, he, rfl⟩ := hl
    exact hd.located hkeys h hb hid he (Directive.classify_eq_ok.1 hc)
  | mixin hv => exact List.forall_mem_singleton.2 (hl _ hv)
  | query => exact List.forall_mem_singleton.2 hl
  | scope =>
    obtain ⟨b, hb, hne, rfl, rfl⟩ := hl
    intro s hs
    obtain ⟨e, he, rfl⟩ := List.mem_map.1 hs
    -- no request is answered by the root
    exact ⟨b, hb, fun h₀ => absurd h₀ (h.wellFormed.answer_ne_zero _ ht), he, rfl⟩
  | _ => exact List.forall_mem_nil _

end Step

namespace Plan

variable {seed : Seed} {plan : Plan} {step : Step} {d : Descriptor} {agenda rest more : List Step}
  {writes : List (Nat × String)} {fault : Payload.Fault}

/-- An orderly build of which all steps are located in a descriptor. -/
structure Traced (d : Descriptor) (agenda : List Step) (plan : Plan) : Prop
    extends Orderly agenda plan where
  located : ∀ step ∈ agenda, step.Located d

namespace Traced

/-- A build starts with the entries of its descriptor. -/
lemma build (d : Descriptor) : Traced d (Step.ofBody 0 "" d) empty :=
  ⟨Orderly.build d, fun _ => Step.located_of_mem_ofBody d⟩

lemma performed (hkeys : ∀ key ∈ d.keys, key ≠ "") (h : Traced d (step :: rest) plan)
    (hd : Step.Does seed plan step writes more) :
    Traced d (more ++ rest) (plan.after step writes) := by
  refine ⟨h.toOrderly.performed hd, fun s hs => ?_⟩
  rcases List.mem_append.1 hs with hs | hs
  · exact hd.located hkeys h.rooted (h.targets _ List.mem_cons_self)
      (h.located _ List.mem_cons_self) s hs
  · exact h.located s (List.mem_cons_of_mem _ hs)

end Traced

/-- **Errors point at what is wrong, if no query around it comes after an absent one**: a build that
is refused for the fault of a payload names something that is found wrong in the payloads of a body
of the descriptor, in a value or at a key that is missing in a mapping. In the location that it
gives, the queries around the body are counted without the absent ones. It is the location at which
the fault is written exactly if that makes no difference. -/
theorem exists_finding_of_payload (hkeys : ∀ key ∈ d.keys, key ≠ "")
    (h : ofDescriptor d seed = .error (.payload fault)) :
    ∃ b, d.Has b ∧ ∃ f ∈ b.body.findings, f.cause = fault.cause
      ∧ (Value.block d.entries).Locates (b.written ++ f.location)
      ∧ fault.path = Location.text (b.reported ++ f.location)
      ∧ (Value.block d.entries).Reports b.written b.reported (.block b.body.entries)
      ∧ (fault.path = Location.text (b.written ++ f.location) ↔ b.reported = b.written)
      ∧ ((Value.block d.entries).Gapless b.written → b.reported = b.written) := by
  obtain ⟨plan, hrun⟩ := ofDescriptor_eq_error.1 h
  obtain ⟨step, rest, htraced, heffect⟩ :=
    exists_refused (fun _ _ _ _ _ h hd => h.performed hkeys hd) (Traced.build d) hrun
  obtain ⟨id, path, key, value, rfl, g, hg, rfl⟩ := Step.exists_finding_of_effect heffect
  obtain ⟨b, hb, _, he, rfl⟩ := htraced.located _ List.mem_cons_self
  have hreports := hb.reports
  have hf : g.under (.key key) ∈ b.body.findings :=
    List.mem_flatMap.2 ⟨_, he, List.mem_map_of_mem hg⟩
  have hpath : Path.child b.reported.text key ++ g.location.suffix
      = Location.text (b.reported ++ (g.under (.key key)).location) :=
    (hb.text_under hkeys key g.location).symm
  refine ⟨b, hb, g.under (.key key), hf, rfl,
    hreports.reaches.locates (Descriptor.locates_of_mem_findings hf), hpath, hreports, ?_,
    hreports.eq_of_gapless⟩
  rw [Payload.Finding.fault, hpath]
  constructor
  · intro htext
    exact List.append_cancel_right ((hreports.lags.append (.refl _)).eq_of_text htext)
  · intro hw
    rw [hw]

/-- A body with an absent animation and, after it, one that has a step without a body. -/
def bodilessStep : Descriptor :=
  ⟨[("keyframes", .list [.absent, .block [("name", .literal (.text "pulse")),
    ("steps", .list [.block [("percentage", .literal (.number 50))]])]])]⟩

/-- A rule with a query, which is a mixin of a rule in another one. -/
def bodilessMixin : Descriptor :=
  ⟨[("a", .block [("& b", .block [("mixins", .block [(".c", .block [("media", .list [.block
    [("print", .literal (.text "")), ("css", .block bodilessStep.entries)]])])])])])]⟩

/-- The step without a body is found where it is written. -/
theorem exists_finding_of_payload_bodilessMixin :
    (∀ key ∈ bodilessMixin.keys, key ≠ "")
      ∧ ofDescriptor bodilessMixin .identity = .error
        (.payload ⟨"a.& b.mixins..c.media[0].css.keyframes[1].steps[0]", .percentageWithoutCss⟩)
      ∧ ∃ b, bodilessMixin.Has b ∧ ∃ f ∈ b.body.findings, f.cause = .percentageWithoutCss
        ∧ (Value.block bodilessMixin.entries).Locates (b.written ++ f.location)
        ∧ "a.& b.mixins..c.media[0].css.keyframes[1].steps[0]"
          = Location.text (b.reported ++ f.location) := by
  have hkeys : ∀ key ∈ bodilessMixin.keys, key ≠ "" := by decide +kernel
  have herror : ofDescriptor bodilessMixin .identity = .error
      (.payload ⟨"a.& b.mixins..c.media[0].css.keyframes[1].steps[0]", .percentageWithoutCss⟩) := by
    decide +kernel
  obtain ⟨b, hb, f, hf, hcause, hlocates, hpath, _⟩ := exists_finding_of_payload hkeys herror
  exact ⟨hkeys, herror, b, hb, f, hf, hcause, hlocates, hpath⟩

/-- A body with an animation without a name. -/
def namelessAnimation : Descriptor :=
  ⟨[("keyframes", .list [.block []])]⟩

/-- A rule with an absent query and another one after it. -/
def gappedRule : Descriptor :=
  ⟨[("media", .list [.absent, .block
    [("print", .literal (.text "")), ("css", .block namelessAnimation.entries)]])]⟩

/-- A stylesheet of that rule. -/
def gappedQueries : Descriptor :=
  ⟨[("a", .block gappedRule.entries)]⟩

/-- The bodies in it. -/
def gappedSites : List Site :=
  [⟨[], [], gappedQueries⟩, ⟨[.key "a"], [.key "a"], gappedRule⟩,
    ⟨[.key "a", .key "media", .item 1, .key "css"], [.key "a", .key "media", .item 0, .key "css"],
      namelessAnimation⟩]

/-- After an absent query, errors in the body of a query do not point at what is wrong: nothing
wrong is written at the location that this one gives. -/
theorem not_written_gappedQueries :
    (∀ key ∈ gappedQueries.keys, key ≠ "")
      ∧ ofDescriptor gappedQueries .identity
        = .error (.payload ⟨"a.media[0].css.keyframes[0]", .ruleWithoutName⟩)
      ∧ ¬ ∃ b, gappedQueries.Has b ∧ ∃ f ∈ b.body.findings,
        Location.text (b.written ++ f.location) = "a.media[0].css.keyframes[0]" := by
  have hsites : ∀ {b}, gappedQueries.Has b → b ∈ gappedSites :=
    Descriptor.Has.mem_of_closed List.mem_cons_self fun c hc => List.mem_of_mem_tail hc
  have hother : ∀ b ∈ gappedSites, ∀ f ∈ b.body.findings,
      Location.text (b.written ++ f.location) ≠ "a.media[0].css.keyframes[0]" := by
    decide +kernel
  refine ⟨by decide +kernel, by decide +kernel, ?_⟩
  rintro ⟨b, hb, f, hf, htext⟩
  exact hother b (hsites hb) f hf htext

end Plan

end Stylesheet
