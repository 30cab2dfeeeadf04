/-
Seeds and refusals.

A seed decides what scopes are called, so it decides which scopes are shared, of what kind they are,
and where mixins are hosted. Whether a descriptor is built at all, and why not, is meant to be none
of its business.

* `Plan.AnsweredAlike`: media blocks answer the same requests of the builds under two seeds;
* `AnsweredAlike.sameVerdict`: the two builds both finish, or are both refused for one reason;
* `Plan.answeredAlike_of_avoidsPreludes`: they are answered alike where no mixin and no suffix is
  named like a prelude;
* `Command.check_accepts_iff`: a descriptor is checked without a fault exactly if it is built;
* `Plan.verdict_seed_irrel`: all of it together.

Where a mixin is named like a prelude, the seed can decide whether it gets in the way of a media
block, as a mixin that is taken for a rule hosts no mixins. The bodies of media queries are then
built outside of media blocks under one seed, and may have media blocks of their own.
-/
import Stylesheet.Command.Response
import Stylesheet.Proofs.Build.Alike

namespace Stylesheet

namespace Plan

variable {d : Descriptor} {seed seed' : Seed}

/-- Media blocks answer the same requests of the builds of a descriptor under two seeds, step by
step, as far as both of them go. -/
def AnsweredAlike (d : Descriptor) (seed seed' : Seed) : Prop :=
  AnswersAgree (mediaAnswers seed (Step.ofBody 0 "" d) empty)
    (mediaAnswers seed' (Step.ofBody 0 "" d) empty)
  deriving Decidable

/-! ### Verdicts -/

lemma SameVerdict.exists_ok_iff {x y : Except Failure Plan} (h : SameVerdict x y) :
    (∃ plan, x = .ok plan) ↔ ∃ plan, y = .ok plan := by
  cases h with
  | finished plan plan' => exact iff_of_true ⟨plan, rfl⟩ ⟨plan', rfl⟩
  | refused e plan plan' => exact iff_of_false nofun nofun

lemma SameVerdict.exists_error_iff {x y : Except Failure Plan} (h : SameVerdict x y)
    (e : CompileError) : (∃ plan, x = .error ⟨e, plan⟩) ↔ ∃ plan, y = .error ⟨e, plan⟩ := by
  cases h with
  | finished plan plan' => exact iff_of_false nofun nofun
  | refused e' plan plan' =>
    constructor
    · rintro ⟨_, h⟩
      cases h
      exact ⟨plan', rfl⟩
    · rintro ⟨_, h⟩
      cases h
      exact ⟨plan, rfl⟩

lemma exists_ofDescriptor_ok :
    (∃ plan, ofDescriptor d seed = .ok plan)
      ↔ ∃ plan, run seed (Step.ofBody 0 "" d) empty = .ok plan :=
  exists_congr fun _ => ofDescriptor_eq_ok

/-- Where requests are answered alike, a descriptor is built under both seeds, or refused under both
for one reason. -/
lemma AnsweredAlike.sameVerdict (h : AnsweredAlike d seed seed') :
    ((∃ plan, ofDescriptor d seed = .ok plan) ↔ ∃ plan, ofDescriptor d seed' = .ok plan)
      ∧ ∀ e, ofDescriptor d seed = .error e ↔ ofDescriptor d seed' = .error e := by
  have hsame := (Abreast.build d).sameVerdict h
  refine ⟨?_, fun e => ?_⟩
  · rw [exists_ofDescriptor_ok, exists_ofDescriptor_ok, hsame.exists_ok_iff]
  · rw [ofDescriptor_eq_error, ofDescriptor_eq_error, hsame.exists_error_iff]

/-- Where no mixin and no suffix is named like a prelude, requests are answered alike under all
seeds. -/
lemma answeredAlike_of_avoidsPreludes (hd : d.AvoidsPreludes) (seed seed' : Seed) :
    AnsweredAlike d seed seed' :=
  (Abreast.build d).answersAgree_of_tidy (.build hd) (.build hd)

end Plan

open Plan

/-! ### Commands -/

section

variable {path : String} {content : Except FileFault String} {key output : Option String}
  {verbose verbose' : Bool} {seed : Seed}

lemma exists_planOf :
    (∃ plan, planOf path seed content = .ok plan)
      ↔ ∃ d, descriptorOf path content = .ok d ∧ ∃ plan, ofDescriptor d seed = .ok plan := by
  simp only [planOf, bind_eq_ok]
  constructor
  · rintro ⟨plan, d, hd, h⟩
    refine ⟨d, hd, ?_⟩
    split at h
    · rename_i plan' hplan
      exact ⟨plan', hplan⟩
    · cases h
  · rintro ⟨d, hd, plan, h⟩
    refine ⟨plan, d, hd, ?_⟩
    rw [Sheet.plan, h]

lemma Command.check_accepts :
    (∃ out, (Command.check path).respond verbose content = .finished out ∧ out.code = 0)
      ↔ ∃ plan, planOf path .identity content = .ok plan := by
  rw [respond]
  cases planOf path .identity content with
  | error line =>
    refine iff_of_false ?_ nofun
    rintro ⟨out, h, hcode⟩
    cases h
    cases hcode
  | ok plan => exact iff_of_true ⟨_, rfl, rfl⟩ ⟨plan, rfl⟩

lemma Command.build_compiles :
    (∃ w, (Command.build path key output).respond verbose content = .writing w)
      ↔ ∃ plan, planOf path (.ofKey? key) content = .ok plan := by
  rw [respond]
  cases planOf path (.ofKey? key) content with
  | error line => exact iff_of_false nofun nofun
  | ok plan => exact iff_of_true ⟨_, rfl⟩ ⟨plan, rfl⟩

/-- A file is checked without a fault exactly if it is compiled behind a key, where the requests of
its descriptor are answered alike. -/
lemma Command.check_accepts_iff
    (h : ∀ d, descriptorOf path content = .ok d → AnsweredAlike d .identity (.ofKey? key)) :
    (∃ out, (Command.check path).respond verbose content = .finished out ∧ out.code = 0)
      ↔ ∃ w, (Command.build path key output).respond verbose' content = .writing w := by
  rw [check_accepts, build_compiles, exists_planOf, exists_planOf]
  exact exists_congr fun d => and_congr_right fun hd => (h d hd).sameVerdict.1

end

namespace Plan

/-- **Seeds and refusals**: under two seeds a descriptor is built or refused alike, and for one
reason, as long as media blocks answer the same requests of the two builds. They do where no mixin
and no suffix is named like a prelude. So a file that holds the descriptor is checked without a
fault exactly if it is compiled, whatever the key is. -/
theorem verdict_seed_irrel (d : Descriptor) :
    (∀ seed seed', AnsweredAlike d seed seed' →
        ((∃ plan, ofDescriptor d seed = .ok plan) ↔ ∃ plan, ofDescriptor d seed' = .ok plan)
          ∧ ∀ e, ofDescriptor d seed = .error e ↔ ofDescriptor d seed' = .error e)
      ∧ (d.AvoidsPreludes → ∀ seed seed', AnsweredAlike d seed seed')
      ∧ ∀ (path : String) (content : Except FileFault String) (key output : Option String)
          (verbose verbose' : Bool), descriptorOf path content = .ok d →
          AnsweredAlike d .identity (.ofKey? key) →
            ((∃ out, (Command.check path).respond verbose content = .finished out ∧ out.code = 0)
              ↔ ∃ w, (Command.build path key output).respond verbose' content = .writing w) := by
  refine ⟨fun _ _ h => h.sameVerdict, answeredAlike_of_avoidsPreludes, ?_⟩
  intro path content key output verbose verbose' hd h
  refine Command.check_accepts_iff fun d' hd' => ?_
  rw [hd] at hd'
  cases hd'
  exact h

/-- Two rules, one with a media block, and a mixin that is named like the prelude of the block. -/
def panel : Descriptor :=
  ⟨[("a", .block [("media", .list [.block [("print", .literal (.text "")),
      ("css", .block [("color", .literal (.text "red"))])]])]),
    ("b", .block [("mixins", .block [(":hover", .block [("top", .literal (.text "0"))])])]),
    ("mixins", .block [("@media (print)", .block [("margin", .literal (.text "0"))])])]⟩

/-- A descriptor in a file, with a mixin in a media query. -/
def panelSource : String :=
  "\x7b\"a\":\x7b\"media\":[\x7b\"print\":\"\",\"css\":\x7b\"mixins\":\x7b\"b\":\x7b\"top\":\"0\"\x7d\x7d\x7d\x7d]\x7d\x7d"

/-- The descriptor in the file. -/
def panelOfSource : Descriptor :=
  ⟨[("a", .block [("media", .list [.block [("print", .literal (.text "")),
      ("css", .block [("mixins", .block [("b", .block [("top", .literal (.text "0"))])])])]])])]⟩

/-- A mixin that is built into a media block under both seeds, also where the two rules share a
scope; and a file that is checked and compiled. -/
theorem verdict_seed_irrel_panel :
    AnsweredAlike panel .identity (.custom fun _ => "x")
      ∧ ((∃ plan, ofDescriptor panel .identity = .ok plan)
        ↔ ∃ plan, ofDescriptor panel (.custom fun _ => "x") = .ok plan)
      ∧ panelOfSource.AvoidsPreludes
      ∧ descriptorOf "panel.json" (.ok panelSource) = .ok panelOfSource
      ∧ ((∃ out, (Command.check "panel.json").respond false (.ok panelSource) = .finished out
          ∧ out.code = 0)
        ↔ ∃ w, (Command.build "panel.json" (some "x") none).respond true (.ok panelSource)
          = .writing w) := by
  have halike : AnsweredAlike panel .identity (.custom fun _ => "x") := by decide +kernel
  have havoids : panelOfSource.AvoidsPreludes := by decide +kernel
  have hsource : descriptorOf "panel.json" (.ok panelSource) = .ok panelOfSource := rfl
  obtain ⟨_, hprelude, hcommands⟩ := verdict_seed_irrel panelOfSource
  exact ⟨halike, ((verdict_seed_irrel panel).1 _ _ halike).1, havoids, hsource,
    hcommands _ _ _ _ _ _ hsource (hprelude havoids _ _)⟩

/-- A rule, a mixin with its selector that has another mixin in it, and a media query within a media
query under the name of that mixin. -/
def mixinLikeClass : Descriptor :=
  ⟨[("a", .block []),
    ("mixins", .block [(".a", .block [("mixins", .block [("@media (print)", .block [])])])]),
    ("b", .block [("media", .list [.block [("print", .literal (.text "")),
      ("css", .block [("media", .list [])])]])])]⟩

/-- Under one seed a descriptor is built that is refused under another one. As it is written, the
name of the rule makes the outer mixin a rule, so that the inner one is hosted by the stylesheet and
stands in for the media block; behind a key, media queries are not nested. -/
theorem not_verdict_seed_irrel_mixinLikeClass :
    (∃ plan, ofDescriptor mixinLikeClass .identity = .ok plan)
      ∧ ofDescriptor mixinLikeClass (.keyed "x") = .error (.unsupportedNesting .media)
      ∧ ¬ ((∃ plan, ofDescriptor mixinLikeClass .identity = .ok plan)
        ↔ ∃ plan, ofDescriptor mixinLikeClass (.keyed "x") = .ok plan) := by
  obtain ⟨plan, hbuilt, _⟩ : ∃ plan, ofDescriptor mixinLikeClass .identity = .ok plan ∧ _ :=
    exists_ok_of_any (p := fun plan => plan.size = 5) (by decide +kernel)
  have hrefused :
      ofDescriptor mixinLikeClass (.keyed "x") = .error (.unsupportedNesting .media) := by
    decide +kernel
  refine ⟨⟨plan, hbuilt⟩, hrefused, fun h => ?_⟩
  obtain ⟨plan', h'⟩ := h.1 ⟨plan, hbuilt⟩
  rw [hrefused] at h'
  cases h'

end Plan

end Stylesheet
