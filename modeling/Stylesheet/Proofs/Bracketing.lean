/-
The braces of a stylesheet.

* `Step.BraceFree`: the keys and texts of a step, and the names that it gives to rules, have no
  braces;
* `Plan.InBraces`: what can be declared in a scope: texts without braces, and in the root texts with
  matching ones;
* `Plan.Neat`: an orderly plan whose fragments have no braces and whose declarations are of that
  kind, and an agenda without braces;
* `Neat.bracketed_css`: in the stylesheet of a neat plan braces are two deep;
* `Sheet.braces_match`: in every stylesheet of a descriptor without braces they are.

A media block is right under the root and nothing else opens a brace around a rule, so that there
are rules in media blocks, and nothing deeper. The steps of an animation are as deep as those rules.
-/
import Stylesheet.Proofs.ClassNames
import Stylesheet.Proofs.GlobalText
import Stylesheet.Proofs.Payload.BraceFree

namespace Stylesheet

open Plan

/-! ### Steps -/

/-- A scope has declarations without braces; the root has at-rules and animations as well, in which
braces match. -/
def Plan.InBraces (id : Nat) (text : String) : Prop :=
  Bracketed 2 text ∧ (id ≠ 0 → BraceFree text)

lemma Plan.InBraces.plain {text : String} (h : BraceFree text) (id : Nat) : InBraces id text :=
  ⟨.plain h, fun _ => h⟩

lemma Plan.InBraces.root {text : String} (h : Bracketed 2 text) : InBraces 0 text :=
  ⟨h, fun h₀ => absurd rfl h₀⟩

/-- Neither the keys and texts of a step have braces nor the names that it gives to rules. Only the
entries of the root give names. -/
def Step.BraceFree (seed : Seed) : Step → Prop
  | .entry id _ key value =>
    Stylesheet.BraceFree key ∧ value.braceFree = true
      ∧ (id = 0 → Directive.isReservedKey key = false → value.isAbsent = false →
          Stylesheet.BraceFree (seed.apply key))
  | .keyframes _ rule => rule.BraceFree
  | .override _ mapping => mapping.braceFree = true
  | .mixin _ _ name value => Stylesheet.BraceFree name ∧ value.braceFree = true
  | .query _ selector _ q => Stylesheet.BraceFree selector ∧ q.BraceFree
  | .scope r _ body => Stylesheet.BraceFree r.fragment ∧ body.braceFree = true

/-- The fragments of a plan have no braces. -/
def Plan.FragmentsBraceFree : Plan → Prop :=
  ForallHeadings fun _ fragment _ => BraceFree fragment

lemma Plan.FragmentsBraceFree.of_scope? {plan : Plan} (h : plan.FragmentsBraceFree) {id : Nat}
    {s : Scope} (hs : plan.scope? id = some s) : BraceFree s.fragment :=
  h id _ _ _ (congrArg (Option.map Scope.heading) hs)

/-- Selectors are put together from fragments. -/
lemma Plan.FragmentsBraceFree.selector {plan : Plan} (h : plan.FragmentsBraceFree) (id : Nat) :
    BraceFree (plan.selector id) := by
  have hchain : ∀ c ∈ plan.chain id, BraceFree c.2 := by
    intro c hc
    rw [chain_eq] at hc
    obtain ⟨a, _, hc⟩ := List.mem_filterMap.1 hc
    obtain ⟨⟨kind, fragment, parent⟩, hheading, rfl⟩ := Option.map_eq_some_iff.1 hc
    exact h a kind fragment parent hheading
  rw [Plan.selector]
  generalize plan.chain id = chain at hchain
  induction chain with
  | nil => exact .empty
  | cons c around ih =>
    obtain ⟨hc, haround⟩ := List.forall_mem_cons.1 hchain
    rw [chainSelector]
    split
    · exact (ih haround).append hc
    · exact hc

lemma Step.braceFree_terminated {rule : String} (h : Stylesheet.BraceFree rule) :
    Stylesheet.BraceFree (terminated rule) := by
  have htrim : Stylesheet.BraceFree (Text.trimEnd rule) := h.dropEnd _
  rw [terminated]
  split
  · exact htrim
  · exact htrim
  · exact htrim.append (by decide)

namespace Step

variable {seed : Seed} {plan : Plan} {step : Step} {writes : List (Nat × String)}
  {more : List Step} {id : Nat} {path : String}

/-- The steps of a body that is not that of the root give no names. -/
lemma braceFree_of_mem_ofBody {body : Descriptor} (hid : id ≠ 0) (hb : body.braceFree = true)
    (hs : step ∈ ofBody id path body) : step.BraceFree seed := by
  obtain ⟨e, he, rfl⟩ := List.mem_map.1 hs
  obtain ⟨hkey, hvalue⟩ := Descriptor.braceFree_iff.1 hb e he
  exact ⟨hkey, hvalue, fun h₀ => absurd h₀ hid⟩

/-- A directive without braces declares none but those of animations, and leaves none behind. -/
lemma DirectiveDoes.braceFree {d : Directive} (h : plan.Rooted) (hf : plan.FragmentsBraceFree)
    (hdir : d.BraceFree)
    (hname : ∀ key value, d = .member key value → id = 0 → Stylesheet.BraceFree (seed.apply key))
    (hd : DirectiveDoes seed plan id path d writes more) :
    (∀ w ∈ writes, InBraces w.1 w.2) ∧ ∀ s ∈ more, s.BraceFree seed := by
  cases hd with
  | atRules hh =>
    refine ⟨List.forall_mem_map.2 fun rule hr => ?_, List.forall_mem_nil _⟩
    exact .plain (braceFree_terminated (hdir rule hr)) _
  | keyframes hh => exact ⟨List.forall_mem_nil _, List.forall_mem_map.2 hdir⟩
  | mixins hh =>
    exact ⟨List.forall_mem_nil _, List.forall_mem_map.2 (Descriptor.braceFree_iff.1 hdir)⟩
  | media hh =>
    have hselector := hf.selector id
    refine ⟨List.forall_mem_nil _, (forall_mem_ofQueries fun _ q => ?_).2 hdir⟩
    exact and_iff_right hselector
  | overrides => exact ⟨List.forall_mem_nil _, List.forall_mem_map.2 hdir⟩
  | nested => exact ⟨List.forall_mem_nil _, List.forall_mem_singleton.2 hdir⟩
  | rule hk hb =>
    have hseeded := hname _ _ rfl (h.kind?_eq_global.1 hk)
    refine ⟨List.forall_mem_nil _, List.forall_mem_singleton.2 ⟨?_, ?_⟩⟩
    · exact .append (by decide) hseeded
    · exact Value.braceFree_of_block? hdir.2 hb
  | declaration hk hl =>
    refine ⟨List.forall_mem_singleton.2 ?_, List.forall_mem_nil _⟩
    exact .plain (Declaration.braceFree_text hdir.1 (Value.braceFree_of_literal? hdir.2 hl)) _

/-- A step without braces declares none but those of animations, and leaves none behind. -/
lemma Does.braceFree (h : plan.Rooted) (hf : plan.FragmentsBraceFree)
    (ht : step.target < plan.size) (hr : step.Regular) (hs : step.BraceFree seed)
    (hd : Does seed plan step writes more) :
    (∀ w ∈ writes, InBraces w.1 w.2) ∧ ∀ s ∈ more, s.BraceFree seed := by
  cases hd with
  | absentEntry ha => exact ⟨List.forall_mem_nil _, List.forall_mem_nil _⟩
  | entry ha hc hd =>
    obtain ⟨hkey, hvalue, hseeded⟩ := hs
    refine hd.braceFree h hf (Directive.braceFree_of_classify hkey hvalue hc) ?_
    rintro k v rfl
    cases Directive.classify_eq_ok.1 hc with
    | member hk hs =>
      exact fun hid => hseeded hid (Directive.isReservedKey_eq_false.2 ⟨hk, hs⟩) ha
  | keyframes htext =>
    obtain rfl : _ = 0 := hr
    exact ⟨List.forall_mem_singleton.2 (.root (Keyframes.bracketed_css hs htext)),
      List.forall_mem_nil _⟩
  | override htext =>
    refine ⟨fun w hw => ?_, List.forall_mem_nil _⟩
    split at hw
    · cases hw
    · rw [List.mem_singleton.1 hw]
      exact .plain (Declaration.braceFree_textOf hs htext) _
  | absentMixin ha => exact ⟨List.forall_mem_nil _, List.forall_mem_nil _⟩
  | mixin hb =>
    exact ⟨List.forall_mem_nil _,
      List.forall_mem_singleton.2 ⟨hs.1, Value.braceFree_of_block? hs.2 hb⟩⟩
  | query => exact ⟨List.forall_mem_nil _, List.forall_mem_singleton.2 ⟨hs.1, hs.2.css⟩⟩
  | scope =>
    exact ⟨List.forall_mem_nil _, fun s hm =>
      braceFree_of_mem_ofBody (h.wellFormed.answer_ne_zero _ ht) hs.2 hm⟩

/-- A step without braces asks for a fragment without braces. -/
lemma BraceFree.request {r : Request} (hs : step.BraceFree seed) (hr : step.request? = some r) :
    Stylesheet.BraceFree r.fragment := by
  cases step with
  | query host selector path q =>
    cases hr
    exact hs.2.target
  | scope r' path body =>
    cases hr
    exact hs.1
  | _ => cases hr

end Step

/-! ### Plans -/

namespace Plan

variable {seed : Seed} {plan : Plan} {d : Descriptor} {step : Step} {agenda rest more : List Step}
  {writes : List (Nat × String)} {id : Nat}

/-- An orderly plan without braces but for those in its root, and an agenda without braces. -/
structure Neat (seed : Seed) (agenda : List Step) (plan : Plan) : Prop
    extends Orderly agenda plan where
  braceFree : ∀ step ∈ agenda, step.BraceFree seed
  fragments : plan.FragmentsBraceFree
  declarations : ∀ id, ∀ text ∈ plan.declarations id, InBraces id text

namespace Neat

/-- The build of a descriptor without braces starts neat. -/
lemma build (hd : d.braceFree = true)
    (hseed : ∀ key, d.NamesRule key → BraceFree (seed.apply key)) :
    Neat seed (Step.ofBody 0 "" d) empty where
  toOrderly := .build d
  braceFree step hs := by
    obtain ⟨e, he, rfl⟩ := List.mem_map.1 hs
    obtain ⟨hkey, hvalue⟩ := Descriptor.braceFree_iff.1 hd e he
    exact ⟨hkey, hvalue, fun _ hk ha => hseed e.1 ⟨hk, e.2, he, ha⟩⟩
  fragments id kind fragment parent hid := by
    cases id with
    | zero =>
      cases hid
      exact .empty
    | succ id => cases hid
  declarations id := by
    cases id with
    | zero => exact List.forall_mem_nil _
    | succ id => exact List.forall_mem_nil _

/-- After a step that was performed, a plan is as neat as before. -/
lemma performed (h : Neat seed (step :: rest) plan) (hd : Step.Does seed plan step writes more) :
    Neat seed (more ++ rest) (plan.after step writes) := by
  have ht := h.targets step List.mem_cons_self
  have hs := h.braceFree step List.mem_cons_self
  obtain ⟨hwrites, hmore⟩ :=
    hd.braceFree h.rooted h.fragments ht (h.regular step List.mem_cons_self) hs
  refine ⟨h.toOrderly.performed hd, ?_, ?_, ?_⟩
  · exact List.forall_mem_append.2
      ⟨hmore, fun s hm => h.braceFree s (List.mem_cons_of_mem _ hm)⟩
  · refine ForallHeadings.declareAll ?_ writes
    cases hreq : step.request? with
    | none => exact h.fragments
    | some r => exact h.fragments.enter (hs.request hreq)
  · intro id text htext
    rw [declarations_after (hd.targets h.rooted.wellFormed ht).1] at htext
    rcases List.mem_append.1 htext with htext | htext
    · exact h.declarations id text htext
    · obtain ⟨w, hw, rfl⟩ := List.mem_map.1 htext
      obtain ⟨hw, hid⟩ := List.mem_filter.1 hw
      rw [← of_decide_eq_true hid]
      exact hwrites w hw

end Neat

/-! ### Text -/

lemma bracketed_flatMap {depth : Nat} {ids : List Nat} {f : Nat → List Statement}
    (h : ∀ id ∈ ids, Bracketed depth (Statement.cssAll (f id))) :
    Bracketed depth (Statement.cssAll (ids.flatMap f)) := by
  induction ids with
  | nil => exact .plain .empty
  | cons id ids ih =>
    obtain ⟨hid, hrest⟩ := List.forall_mem_cons.1 h
    rw [List.flatMap_cons, Statement.cssAll_append]
    exact .append hid (ih hrest)

lemma bracketed_rule {selector : String} {declarations : List String} (hs : BraceFree selector)
    (hd : ∀ text ∈ declarations, BraceFree text) :
    Bracketed 1 (Statement.cssAll (Tree.rule selector declarations)) := by
  rw [Tree.rule]
  split
  · exact .plain (by decide)
  · rw [Statement.cssAll, Statement.cssAll, Statement.css, String.append_empty]
    exact .rule hs (.plain (.intercalate (by decide) hd))

namespace Neat

variable (h : Neat seed [] plan)

include h

/-- A scope under one that is not the root is no media block. -/
lemma kind?_ne_media {c : Nat} (hp : plan.parent? c = some id) (hid : id ≠ 0) :
    plan.kind? c ≠ some .media := by
  intro hk
  rw [(h.media c hk).1, Option.some.injEq] at hp
  exact hid hp.symm

/-- What is written of a rule and of all that is under it has braces that are one deep. -/
lemma bracketed_statementsAt (hid : id < plan.size) (h₀ : id ≠ 0)
    (hk : plan.kind? id ≠ some .media) {outer : String} (ho : BraceFree outer) :
    Bracketed 1 (Statement.cssAll (plan.statementsAt outer id)) := by
  have hw := h.rooted.wellFormed
  induction id, hid using hw.child_induction generalizing outer with
  | host id hid ih =>
    obtain ⟨s, hs⟩ := exists_scope hid
    have hkind := kind?_of_scope? hs
    have hglobal : s.kind ≠ .global := fun hg =>
      h₀ (h.rooted.kind?_eq_global.1 (hkind.trans (congrArg some hg)))
    have hmedia : s.kind ≠ .media := fun hm => hk (hkind.trans (congrArg some hm))
    have hselector : BraceFree (outer ++ s.fragment) :=
      ho.append (h.fragments.of_scope? hs)
    rw [hw.statementsAt_of_kind hs hglobal hmedia, Statement.cssAll_append]
    refine .append (bracketed_rule hselector fun text ht => ?_) (bracketed_flatMap fun c hc => ?_)
    · exact (h.declarations id text (declarations_of_scope? hs ▸ ht)).2 h₀
    · have hp := hw.mem_children.1 hc
      have hc₀ : c ≠ 0 := Nat.ne_zero_of_lt (hw.lt_of_parent? hp)
      exact ih c (lt_size_of_parent? hp) hp hc₀ (h.kind?_ne_media hp h₀) hselector

/-- What is written of a media block has braces that are two deep. -/
lemma bracketed_statementsAt_media (hk : plan.kind? id = some .media) (outer : String) :
    Bracketed 2 (Statement.cssAll (plan.statementsAt outer id)) := by
  have hw := h.rooted.wellFormed
  have h₀ : id ≠ 0 := by
    rintro rfl
    rw [h.rooted.kind?_eq_global.2 rfl] at hk
    cases hk
  obtain ⟨s, hs⟩ := exists_scope (lt_size_of_kind? hk)
  have hmedia : s.kind = .media := Option.some.inj ((kind?_of_scope? hs).symm.trans hk)
  have hunder : Bracketed 1
      (Statement.cssAll ((plan.children id).flatMap (plan.statementsAt ""))) := by
    refine bracketed_flatMap fun c hc => ?_
    have hp := hw.mem_children.1 hc
    exact h.bracketed_statementsAt (lt_size_of_parent? hp)
      (Nat.ne_zero_of_lt (hw.lt_of_parent? hp)) (h.kind?_ne_media hp h₀) (by decide)
  rw [hw.statementsAt_eq hs, hmedia]
  rw [Statement.cssAll, Statement.cssAll, Statement.css, String.append_empty]
  exact .block (h.fragments.of_scope? hs) hunder

/-- The stylesheet of a neat plan has braces that are two deep. -/
lemma bracketed_css : Bracketed 2 plan.css := by
  have hw := h.rooted.wellFormed
  rw [h.rooted.css_eq]
  refine .append (.join fun text ht => (h.declarations 0 text ht).1)
    (bracketed_flatMap fun c hc => ?_)
  have hp := hw.mem_children.1 hc
  by_cases hk : plan.kind? c = some .media
  · exact h.bracketed_statementsAt_media hk ""
  · have hc₀ : c ≠ 0 := Nat.ne_zero_of_lt (hw.lt_of_parent? hp)
    exact (h.bracketed_statementsAt (lt_size_of_parent? hp) hc₀ hk (by decide)).mono (by decide)

end Neat

end Plan

/-- **Braces**: in the stylesheet of a descriptor without braces, under a seed that gives its rules
names without braces, as many braces are closed as opened; and in no part from its start are more
closed than opened, or more than two of them open, however deep the descriptor is nested. -/
theorem Sheet.braces_match {d : Descriptor} {seed : Seed} {css : String}
    (hd : d.braceFree = true) (hseed : ∀ key, d.NamesRule key → BraceFree (seed.apply key))
    (hcss : (⟨d, seed⟩ : Sheet).css = .ok css) :
    css.toList.count '\x7b' = css.toList.count '\x7d'
      ∧ ∀ before, before <+: css.toList → before.count '\x7d' ≤ before.count '\x7b'
        ∧ before.count '\x7b' ≤ before.count '\x7d' + 2 := by
  obtain ⟨plan, hplan, hcss⟩ := bind_eq_ok.1 hcss
  cases hcss
  have hneat : Neat seed [] plan :=
    of_run (fun _ _ _ _ _ h hd => h.performed hd) (.build hd hseed) (ofDescriptor_eq_ok.1 hplan)
  exact hneat.bracketed_css.count_prefix

/-- An animation, and bodies under a media query of a rule: nested ones and those of mixins. -/
def turning : Descriptor :=
  ⟨[("a", .block [("color", .literal (.text "red")),
      ("keyframes", .list [.block [("name", .literal (.text "turn")),
        ("steps", .list [.block [("from", .block [("top", .literal (.text "0"))]),
          ("to", .block [("top", .literal (.text "1px"))])]])]]),
      ("media", .list [.block [("print", .literal (.text "")),
        ("css", .block [("margin", .literal (.text "0")),
          ("& b", .block [("& i", .block [("left", .literal (.text "0"))])]),
          ("mixins", .block [("p", .block [("top", .literal (.text "0"))])])])]])])]⟩

/-- Its stylesheet. -/
def turned : String :=
  "@keyframes turn\x7bfrom \x7btop:0\x7dto \x7btop:1px\x7d\x7d.a2E= \x7bcolor:red\x7d"
    ++ "@media (print)\x7b.a2E= \x7bmargin:0\x7d.a2E= b i \x7bleft:0\x7dp \x7btop:0\x7d\x7d"

/-- The steps of an animation and the rules in a media block are two braces deep. -/
theorem Sheet.braces_match_turning :
    (⟨turning, .keyed "k"⟩ : Sheet).css = .ok turned
      ∧ turned.toList.count '\x7b' = turned.toList.count '\x7d'
      ∧ ∀ before, before <+: turned.toList → before.count '\x7d' ≤ before.count '\x7b'
        ∧ before.count '\x7b' ≤ before.count '\x7d' + 2 := by
  have hseeded : ∀ key, turning.NamesRule key → BraceFree ((Seed.keyed "k").apply key) := by
    rintro key ⟨_, value, he, _⟩
    cases List.mem_singleton.1 he
    decide +kernel
  have hcss : (⟨turning, .keyed "k"⟩ : Sheet).css = .ok turned :=
    toOption_eq_some.1 (by decide +kernel)
  exact ⟨hcss, braces_match (by decide +kernel) hseeded hcss⟩

end Stylesheet
