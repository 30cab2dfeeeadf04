/-
Two builds of one descriptor, under two seeds.

* `Plan.SameBlock`, `Plan.Alike`: two scopes of two plans that are no different to what is built
  there, as far as refusals go;
* `Step.Corresponds`: the same step about scopes that are alike;
* `Step.answeredByMedia`: whether a media block answers the request of a step;
* `Corresponds.sameEffect`: steps that correspond are both refused, for one reason, or leave
  agendas behind that correspond, if media blocks answer the requests of both or of none;
* `Plan.Abreast`: two orderly builds with agendas that correspond;
* `Abreast.sameVerdict`: they both finish, or are both refused for one reason, as long as media
  blocks answer the same of their requests;
* `Abreast.answersAgree_of_tidy`: in tidy builds they do.

The plans themselves can have different shapes. Two rules that share a scope under one seed have
scopes of their own under another one, and what is hosted by a mixin here can be hosted by the
stylesheet there.
-/
import Stylesheet.Proofs.Build.Acceptance

namespace Stylesheet

/-! ### Scopes -/

namespace Plan

variable {p q later later' : Plan} {id id' : Nat}

/-- Two scopes of two plans are both in a media block, or both in none. -/
structure SameBlock (p q : Plan) (id id' : Nat) : Prop where
  lt_size : id < p.size
  lt_size' : id' < q.size
  withinMedia : p.withinMedia id = q.withinMedia id'

/-- Two scopes of two plans are no different to what is built there, as far as refusals go. -/
structure Alike (p q : Plan) (id id' : Nat) : Prop extends SameBlock p q id id' where
  root : id = 0 ↔ id' = 0
  media : p.kind? id = some .media ↔ q.kind? id' = some .media

lemma SameBlock.mono (h : SameBlock p q id id') (he : p.Extends later) (he' : q.Extends later') :
    SameBlock later later' id id' where
  lt_size := Nat.lt_of_lt_of_le h.lt_size he.size_le
  lt_size' := Nat.lt_of_lt_of_le h.lt_size' he'.size_le
  withinMedia := by rw [he.withinMedia h.lt_size, he'.withinMedia h.lt_size', h.withinMedia]

namespace Alike

lemma mono (h : Alike p q id id') (he : p.Extends later) (he' : q.Extends later') :
    Alike later later' id id' where
  toSameBlock := h.toSameBlock.mono he he'
  root := h.root
  media := by rw [he.kind? h.lt_size, he'.kind? h.lt_size', h.media]

/-- The roots of two plans are alike. -/
lemma roots (hp : p.Rooted) (hq : q.Rooted) : Alike p q 0 0 where
  lt_size := hp.wellFormed.size_pos
  lt_size' := hq.wellFormed.size_pos
  withinMedia := by rw [hp.withinMedia_root, hq.withinMedia_root]
  root := Iff.rfl
  media := by rw [hp.kind?_eq_global.2 rfl, hq.kind?_eq_global.2 rfl]

lemma setting (h : Alike p q id id') : p.setting id = q.setting id' := by
  rw [Plan.setting, Plan.setting, h.withinMedia]
  by_cases h₀ : id = 0
  · rw [if_pos h₀, if_pos (h.root.1 h₀)]
  · rw [if_neg h₀, if_neg (mt h.root.2 h₀)]

lemma kind?_eq_global (h : Alike p q id id') (hp : p.Rooted) (hq : q.Rooted) :
    p.kind? id = some .global ↔ q.kind? id' = some .global := by
  rw [hp.kind?_eq_global, hq.kind?_eq_global, h.root]

/-- Mixins have hosts in both plans, and these are in the same block. -/
lemma exists_mixinHost (h : Alike p q id id') (hp : p.Rooted) (hq : q.Rooted)
    (hm : p.MediaAtRoot) (hm' : q.MediaAtRoot) :
    ∃ host host', p.mixinHost id = .ok host ∧ q.mixinHost id' = .ok host'
      ∧ SameBlock p q host host' := by
  obtain ⟨host, hh⟩ := hp.exists_mixinHost h.lt_size
  obtain ⟨host', hh'⟩ := hq.exists_mixinHost h.lt_size'
  refine ⟨host, host', hh, hh', Nat.lt_of_le_of_lt (mixinHost_le hh) h.lt_size,
    Nat.lt_of_le_of_lt (mixinHost_le hh') h.lt_size', ?_⟩
  rw [hp.withinMedia_of_mixinHost h.lt_size (fun hk => (hm _ hk).1) hh,
    hq.withinMedia_of_mixinHost h.lt_size' (fun hk => (hm' _ hk).1) hh', h.withinMedia,
    decide_eq_decide.2 h.media]

end Alike

/-- What answers two requests in the same block is alike, if both answers are media blocks or
neither is. -/
lemma SameBlock.alike_answers {r r' : Request} (h : SameBlock p q r.host r'.host) (hp : p.Rooted)
    (hq : q.Rooted)
    (ha : (p.enter r).kind? (p.answer r) = some .media
      ↔ (q.enter r').kind? (q.answer r') = some .media) :
    Alike (p.enter r) (q.enter r') (p.answer r) (q.answer r') where
  lt_size := hp.wellFormed.answer_lt r
  lt_size' := hq.wellFormed.answer_lt r'
  withinMedia := by
    rw [hp.withinMedia_answer h.lt_size, hq.withinMedia_answer h.lt_size', h.withinMedia,
      decide_eq_decide.2 ha]
  root := iff_of_false (hp.wellFormed.answer_ne_zero r h.lt_size)
    (hq.wellFormed.answer_ne_zero r' h.lt_size')
  media := ha

end Plan

/-! ### Steps -/

namespace Step

open Plan

/-- The same step about scopes that are alike. What seeds decide, such as the fragments that are
asked for and the selectors of media queries, can be different. -/
inductive Corresponds (p q : Plan) : Step → Step → Prop where
  | entry {id id' : Nat} {path key : String} {value : Value} (h : Alike p q id id') :
      Corresponds p q (.entry id path key value) (.entry id' path key value)
  | keyframes {host host' : Nat} {rule : Keyframes} :
      Corresponds p q (.keyframes host rule) (.keyframes host' rule)
  | override {id id' : Nat} {mapping : Descriptor} :
      Corresponds p q (.override id mapping) (.override id' mapping)
  | mixin {host host' : Nat} {path name : String} {value : Value}
      (h : SameBlock p q host host') :
      Corresponds p q (.mixin host path name value) (.mixin host' path name value)
  | query {host host' : Nat} {selector selector' path : String} {query : MediaQuery}
      (h : SameBlock p q host host') :
      Corresponds p q (.query host selector path query) (.query host' selector' path query)
  | scope {r r' : Request} {path : String} {body : Descriptor}
      (h : SameBlock p q r.host r'.host) :
      Corresponds p q (.scope r path body) (.scope r' path body)

/-- Whether a media block answers the request of a step. -/
def answeredByMedia (plan : Plan) (step : Step) : Bool :=
  step.request?.any fun r => (plan.enter r).kind? (plan.answer r) = some .media

/-- Two steps are both refused, for one reason, or leave agendas behind whose steps are related. -/
inductive SameEffect (R : Step → Step → Prop) :
    Except CompileError Effect → Except CompileError Effect → Prop where
  | refused (e : CompileError) : SameEffect R (.error e) (.error e)
  | performed {writes writes' : List (Nat × String)} {more more' : List Step}
      (h : List.Forall₂ R more more') : SameEffect R (.ok ⟨writes, more⟩) (.ok ⟨writes', more'⟩)

variable {seed seed' : Seed} {p q later later' : Plan} {id id' : Nat} {path : String}
  {step step' : Step} {rest rest' : List Step} {R : Step → Step → Prop}

lemma SameEffect.bind {α : Type} (x : Except CompileError α)
    {f g : α → Except CompileError Effect} (h : ∀ a, SameEffect R (f a) (g a)) :
    SameEffect R (x >>= f) (x >>= g) := by
  cases x with
  | error e => exact .refused e
  | ok a => exact h a

lemma Corresponds.mono (h : Corresponds p q step step') (he : p.Extends later)
    (he' : q.Extends later') : Corresponds later later' step step' := by
  cases h with
  | entry h => exact .entry (h.mono he he')
  | keyframes => exact .keyframes
  | override => exact .override
  | mixin h => exact .mixin (h.mono he he')
  | query h => exact .query (h.mono he he')
  | scope h => exact .scope (h.mono he he')

/-! ### Effects -/

lemma corresponds_ofBody (h : Alike p q id id') (path : String) (body : Descriptor) :
    List.Forall₂ (Corresponds p q) (ofBody id path body) (ofBody id' path body) :=
  forall₂_map (fun _ => .entry h) body.entries

/-- A directive is carried out in scopes that are alike, or refused in both for one reason. -/
lemma directiveEffect_alike {d : Directive} (hp : p.Rooted) (hq : q.Rooted) (hm : p.MediaAtRoot)
    (hm' : q.MediaAtRoot) (h : Alike p q id id') :
    SameEffect (Corresponds p q) (directiveEffect seed p id path d)
      (directiveEffect seed' q id' path d) := by
  cases d with
  | atRules rules =>
    rw [directiveEffect, directiveEffect, hp.globalHost_eq_ok_zero h.lt_size,
      hq.globalHost_eq_ok_zero h.lt_size']
    exact .performed .nil
  | keyframes rules =>
    rw [directiveEffect, directiveEffect, hp.globalHost_eq_ok_zero h.lt_size,
      hq.globalHost_eq_ok_zero h.lt_size']
    exact .performed (forall₂_map (fun _ => .keyframes) rules)
  | mixins body =>
    obtain ⟨host, host', hh, hh', hb⟩ := h.exists_mixinHost hp hq hm hm'
    rw [directiveEffect, directiveEffect, hh, hh']
    exact .performed (forall₂_map (fun _ => .mixin hb) body.entries)
  | media queries =>
    rw [directiveEffect, directiveEffect, hp.mediaHost_eq h.lt_size, hq.mediaHost_eq h.lt_size',
      h.setting]
    cases q.setting id' with
    | top => exact .refused _
    | rule =>
      have hroots := (Alike.roots hp hq).toSameBlock
      exact .performed (forall₂_ofQueries (fun _ _ => .query hroots) 0 queries)
    | payload => exact .refused _
  | overrides mappings => exact .performed (forall₂_map (fun _ => .override) mappings)
  | nested suffix body => exact .performed (.cons (.scope h.toSameBlock) .nil)
  | member key value =>
    rw [directiveEffect, directiveEffect, memberEffect, memberEffect]
    by_cases hk : p.kind? id = some .global
    · rw [if_pos hk, if_pos ((h.kind?_eq_global hp hq).1 hk)]
      exact .bind _ fun body => .performed (.cons (.scope h.toSameBlock) .nil)
    · rw [if_neg hk, if_neg (mt (h.kind?_eq_global hp hq).2 hk)]
      cases value.literal? with
      | none => exact .refused _
      | some l => exact .performed .nil

/-- Steps that correspond are both refused, for one reason, or leave agendas behind that correspond,
if media blocks answer the requests of both or of none. -/
lemma Corresponds.sameEffect (seed seed' : Seed) (h : Corresponds p q step step')
    (ho : Orderly (step :: rest) p) (ho' : Orderly (step' :: rest') q)
    (ha : step.answeredByMedia p = step'.answeredByMedia q) :
    SameEffect (Corresponds (p.grant step.request?) (q.grant step'.request?))
      (step.effect seed p) (step'.effect seed' q) := by
  cases h with
  | entry h =>
    rw [effect, effect]
    split
    · exact .performed .nil
    · exact .bind _ fun d => directiveEffect_alike ho.rooted ho'.rooted ho.media ho'.media h
  | keyframes => exact .bind _ fun text => .performed .nil
  | override => exact .bind _ fun text => .performed .nil
  | mixin h =>
    rw [effect, effect]
    split
    · exact .performed .nil
    · exact .bind _ fun body => .performed (.cons (.scope h) .nil)
  | query h =>
    have hanswers := h.alike_answers ho.rooted ho'.rooted (decide_eq_decide.1 ha)
    exact .performed (.cons (.scope hanswers.toSameBlock) .nil)
  | scope h =>
    have hanswers := h.alike_answers ho.rooted ho'.rooted (decide_eq_decide.1 ha)
    exact .performed (corresponds_ofBody hanswers _ _)

end Step

/-! ### Runs -/

namespace Plan

/-- Two runs both finish, or are both refused for one reason. -/
inductive SameVerdict : Except Failure Plan → Except Failure Plan → Prop where
  | finished (plan plan' : Plan) : SameVerdict (.ok plan) (.ok plan')
  | refused (e : CompileError) (plan plan' : Plan) :
      SameVerdict (.error ⟨e, plan⟩) (.error ⟨e, plan'⟩)

/-- For each step of a run, whether a media block answers its request. -/
def mediaAnswers (seed : Seed) (agenda : List Step) (plan : Plan) : List Bool :=
  (trace seed agenda plan).map fun e => e.2.answeredByMedia e.1

/-- Two lists of answers agree as far as both of them go. -/
def AnswersAgree (answers answers' : List Bool) : Prop :=
  ∀ e ∈ answers.zip answers', e.1 = e.2
  deriving Decidable

/-- Two orderly builds, with agendas that correspond. -/
structure Abreast (agenda agenda' : List Step) (p q : Plan) : Prop where
  left : Orderly agenda p
  right : Orderly agenda' q
  corresponds : List.Forall₂ (Step.Corresponds p q) agenda agenda'

variable {seed seed' : Seed} {p q : Plan} {step step' : Step}
  {agenda agenda' rest rest' more : List Step} {writes : List (Nat × String)} {e : CompileError}

lemma mediaAnswers_refused (he : step.perform seed p = .error e) :
    mediaAnswers seed (step :: rest) p = [step.answeredByMedia p] := by
  rw [mediaAnswers, trace_refused he, List.map_singleton]

lemma mediaAnswers_performed (he : step.effect seed p = .ok ⟨writes, more⟩) :
    mediaAnswers seed (step :: rest) p
      = step.answeredByMedia p :: mediaAnswers seed (more ++ rest) (p.after step writes) := by
  rw [mediaAnswers, trace_performed he, List.map_cons, mediaAnswers]

lemma exists_mediaAnswers_cons (seed : Seed) (step : Step) (rest : List Step) (p : Plan) :
    ∃ later, mediaAnswers seed (step :: rest) p = step.answeredByMedia p :: later := by
  rw [mediaAnswers, trace_cons, List.map_cons]
  exact ⟨_, rfl⟩

lemma answersAgree_cons {b b' : Bool} {answers answers' : List Bool} :
    AnswersAgree (b :: answers) (b' :: answers') ↔ b = b' ∧ AnswersAgree answers answers' := by
  rw [AnswersAgree, List.zip_cons_cons, List.forall_mem_cons, ← AnswersAgree]

namespace Abreast

/-- The two builds of a descriptor start abreast. -/
lemma build (d : Descriptor) : Abreast (Step.ofBody 0 "" d) (Step.ofBody 0 "" d) empty empty where
  left := .build d
  right := .build d
  corresponds := Step.corresponds_ofBody (.roots rooted_empty rooted_empty) "" d

section

variable (h : Abreast (step :: rest) (step' :: rest') p q)
  (ha : step.answeredByMedia p = step'.answeredByMedia q)

include h ha

/-- Where one build is refused the other one is, for one reason. -/
lemma refused (seed' : Seed) (he : step.effect seed p = .error e) :
    step'.effect seed' q = .error e := by
  obtain ⟨hs, _⟩ := List.forall₂_cons.1 h.corresponds
  have heffect := hs.sameEffect seed seed' h.left h.right ha
  rw [he] at heffect
  generalize step'.effect seed' q = effect' at heffect
  cases heffect
  rfl

/-- Where one build goes on the other one does, and they stay abreast. -/
lemma performed (seed' : Seed) (he : step.effect seed p = .ok ⟨writes, more⟩) :
    ∃ writes' more', step'.effect seed' q = .ok ⟨writes', more'⟩
      ∧ Abreast (more ++ rest) (more' ++ rest') (p.after step writes) (q.after step' writes') := by
  obtain ⟨hs, hrest⟩ := List.forall₂_cons.1 h.corresponds
  have heffect := hs.sameEffect seed seed' h.left h.right ha
  rw [he] at heffect
  generalize he' : step'.effect seed' q = effect' at heffect
  cases heffect with
  | @performed _ writes' _ more' hmore =>
    refine ⟨writes', more', rfl, h.left.performed (Step.does_of_effect he),
      h.right.performed (Step.does_of_effect he'), List.rel_append ?_ ?_⟩
    · exact hmore.imp fun _ _ hs => hs.mono (extends_declareAll _) (extends_declareAll _)
    · exact hrest.imp fun _ _ hs => hs.mono (extends_after _ _ _) (extends_after _ _ _)

end

/-- Builds abreast both finish or are both refused, for one reason, as long as media blocks answer
the same of their requests. -/
lemma sameVerdict (h : Abreast agenda agenda' p q)
    (ha : AnswersAgree (mediaAnswers seed agenda p) (mediaAnswers seed' agenda' q)) :
    SameVerdict (run seed agenda p) (run seed' agenda' q) := by
  induction agenda, p using run_induction seed generalizing agenda' q with
  | nil p =>
    cases h.corresponds
    rw [run_nil, run_nil]
    exact .finished p q
  | refused step rest p e he =>
    obtain ⟨step', rest', _, _, rfl⟩ := List.forall₂_cons_left_iff.1 h.corresponds
    obtain ⟨later, hlater⟩ := exists_mediaAnswers_cons seed' step' rest' q
    rw [mediaAnswers_refused he, hlater, answersAgree_cons] at ha
    have he' := h.refused ha.1 seed' (effect_of_refused he)
    rw [run_refused he, run_refused (bind_eq_error.2 (.inl he'))]
    exact .refused e p q
  | performed step rest p writes more he hd ih =>
    obtain ⟨step', rest', _, _, rfl⟩ := List.forall₂_cons_left_iff.1 h.corresponds
    obtain ⟨later, hlater⟩ := exists_mediaAnswers_cons seed' step' rest' q
    have hfirst : step.answeredByMedia p = step'.answeredByMedia q := by
      rw [mediaAnswers_performed he, hlater, answersAgree_cons] at ha
      exact ha.1
    obtain ⟨writes', more', he', hnext⟩ := h.performed hfirst seed' he
    rw [mediaAnswers_performed he, mediaAnswers_performed he', answersAgree_cons] at ha
    rw [run_performed he, run_performed he']
    exact ih hnext ha.2

/-- In tidy builds media blocks answer the requests of queries, and no others. -/
lemma answeredByMedia_eq_of_tidy (h : Abreast (step :: rest) (step' :: rest') p q)
    (ht : Tidy (step :: rest) p) (ht' : Tidy (step' :: rest') q) :
    step.answeredByMedia p = step'.answeredByMedia q := by
  obtain ⟨hs, _⟩ := List.forall₂_cons.1 h.corresponds
  cases hs with
  | query => exact decide_eq_decide.2 (iff_of_true ht.kind?_answer_query ht'.kind?_answer_query)
  | scope =>
    exact decide_eq_decide.2 (iff_of_false ht.kind?_answer_ne_media ht'.kind?_answer_ne_media)
  | _ => rfl

/-- In tidy builds abreast, media blocks answer the same requests. -/
lemma answersAgree_of_tidy (h : Abreast agenda agenda' p q) (ht : Tidy agenda p)
    (ht' : Tidy agenda' q) :
    AnswersAgree (mediaAnswers seed agenda p) (mediaAnswers seed' agenda' q) := by
  induction agenda, p using run_induction seed generalizing agenda' q with
  | nil p =>
    rw [mediaAnswers, trace_nil]
    exact List.forall_mem_nil _
  | refused step rest p e he =>
    obtain ⟨step', rest', _, _, rfl⟩ := List.forall₂_cons_left_iff.1 h.corresponds
    obtain ⟨later, hlater⟩ := exists_mediaAnswers_cons seed' step' rest' q
    rw [mediaAnswers_refused he, hlater, answersAgree_cons]
    exact ⟨h.answeredByMedia_eq_of_tidy ht ht', List.forall_mem_nil _⟩
  | performed step rest p writes more he hd ih =>
    obtain ⟨step', rest', _, _, rfl⟩ := List.forall₂_cons_left_iff.1 h.corresponds
    have hfirst := h.answeredByMedia_eq_of_tidy ht ht'
    obtain ⟨writes', more', he', hnext⟩ := h.performed hfirst seed' he
    rw [mediaAnswers_performed he, mediaAnswers_performed he', answersAgree_cons]
    exact ⟨hfirst, ih hnext (ht.performed hd) (ht'.performed (Step.does_of_effect he'))⟩

end Abreast

end Plan

end Stylesheet
