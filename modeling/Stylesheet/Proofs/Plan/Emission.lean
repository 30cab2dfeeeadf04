/-
What is written of a plan.

* `Statement.leaves`: the raw texts and rules of a statement, each with the media block around it;
* `ruleBlocks`: the blocks of a rule, as texts;
* `Plan.written`: the contributions that the stylesheet of a plan is made of;
* `Plan.leavesAt`: what is written of one scope;
* `WellFormed.leaves_eq`: the stylesheet has what is written of each scope, in the context of the
  scope;
* `WellFormed.written_eq`: it has the declarations of every scope but those of media blocks.
-/
import Stylesheet.Proofs.Plan.Context
import Stylesheet.Proofs.Plan.Traversal
import Stylesheet.Statement

namespace Stylesheet

namespace Statement

mutual

/-- The raw texts and rules of a statement, each with the prelude of the media block around it. -/
def leaves (block : Option String) : Statement → List (Option String × Statement)
  | .raw text => [(block, .raw text)]
  | .rule selector declarations => [(block, .rule selector declarations)]
  | .media target body => leavesAll (some target) body

/-- The raw texts and rules of some statements, one statement after another. -/
def leavesAll (block : Option String) : List Statement → List (Option String × Statement)
  | [] => []
  | s :: rest => leaves block s ++ leavesAll block rest

end

/-- The contributions that a raw text or a rule is made of. -/
def contributions : Option String × Statement → List Contribution
  | (_, .raw text) => [.raw text]
  | (block, .rule selector declarations) => declarations.map (.declaration block selector)
  | (_, .media _ _) => []

lemma leavesAll_append (block : Option String) (ss ts : List Statement) :
    leavesAll block (ss ++ ts) = leavesAll block ss ++ leavesAll block ts := by
  induction ss with
  | nil => rfl
  | cons s ss ih => rw [List.cons_append, leavesAll, ih, leavesAll, List.append_assoc]

lemma leavesAll_flatMap {α : Type} (block : Option String) (f : α → List Statement)
    (xs : List α) : leavesAll block (xs.flatMap f) = xs.flatMap fun x => leavesAll block (f x) := by
  induction xs with
  | nil => rfl
  | cons x xs ih => rw [List.flatMap_cons, leavesAll_append, ih, List.flatMap_cons]

/-- Statements that are no media blocks are their own leaves. -/
lemma leavesAll_map {α : Type} (block : Option String) {f : α → Statement}
    (hf : ∀ x, leaves block (f x) = [(block, f x)]) (xs : List α) :
    leavesAll block (xs.map f) = xs.map fun x => (block, f x) := by
  induction xs with
  | nil => rfl
  | cons x xs ih => rw [List.map_cons, leavesAll, hf, ih, List.map_cons, List.singleton_append]

/-! ### Text -/

lemma cssAll_append (ss ts : List Statement) : cssAll (ss ++ ts) = cssAll ss ++ cssAll ts := by
  induction ss with
  | nil => rw [List.nil_append, cssAll, String.empty_append]
  | cons s ss ih => rw [List.cons_append, cssAll, ih, cssAll, String.append_assoc]

lemma cssAll_map_raw (texts : List String) : cssAll (texts.map raw) = String.join texts := by
  induction texts with
  | nil => rfl
  | cons text texts ih => rw [List.map_cons, cssAll, ih, css, String.join_cons]

/-- The text of some statements has the text of each of them in it. -/
lemma exists_cssAll_of_mem {s : Statement} {ss : List Statement} (h : s ∈ ss) :
    ∃ before after, cssAll ss = before ++ s.css ++ after := by
  obtain ⟨before, after, rfl⟩ := List.append_of_mem h
  exact ⟨cssAll before, cssAll after, by rw [cssAll_append, cssAll, String.append_assoc]⟩

end Statement

/-- The statements of some trees are those of each of them. -/
lemma Tree.statementsAll_eq_flatMap (outer : String) (ts : List Tree) :
    Tree.statementsAll outer ts = ts.flatMap (Tree.statements outer) := by
  induction ts with
  | nil => rfl
  | cons t ts ih => rw [Tree.statementsAll, ih, List.flatMap_cons]

/-- The blocks of a rule, as texts: one with its declarations between braces, if it has any. -/
def ruleBlocks (selector : String) (declarations : List String) : List String :=
  if declarations = [] then []
  else [selector ++ " \x7b" ++ ";".intercalate declarations ++ "\x7d"]

lemma Tree.cssAll_rule (selector : String) (declarations : List String) :
    Statement.cssAll (rule selector declarations)
      = String.join (ruleBlocks selector declarations) := by
  rw [rule, ruleBlocks]
  by_cases hd : declarations = []
  · rw [hd]
    rfl
  · rw [if_neg (by rwa [List.isEmpty_iff]), if_neg hd, String.join_cons, Statement.cssAll]
    rfl

lemma Tree.leavesAll_rule (block : Option String) (selector : String) (declarations : List String) :
    Statement.leavesAll block (rule selector declarations)
      = (rule selector declarations).map fun s => (block, s) := by
  rw [rule]
  split <;> rfl

namespace Plan

variable {plan : Plan}

/-- The raw texts and rules of the stylesheet of a plan. -/
def leaves (plan : Plan) : List (Option String × Statement) :=
  Statement.leavesAll none plan.statements

/-- The contributions that the stylesheet of a plan is made of. -/
def written (plan : Plan) : List Contribution :=
  plan.leaves.flatMap Statement.contributions

/-- The statements of a scope and of what is under it, whose selectors go on from the given one. -/
def statementsAt (plan : Plan) (outer : String) (id : Nat) : List Statement :=
  ((plan.tree? id).map (Tree.statements outer)).getD []

/-- What is written of a scope itself. -/
def leavesAt (plan : Plan) (id : Nat) : List (Option String × Statement) :=
  match (plan.context id).kind with
  | .global => (plan.declarations id).map fun text => ((plan.context id).block, .raw text)
  | .media => []
  | _ =>
    (Tree.rule (plan.context id).selector (plan.declarations id)).map fun s =>
      ((plan.context id).block, s)

namespace WellFormed

variable (h : plan.WellFormed)

include h

lemma statementsAt_eq {id : Nat} {s : Scope} (hs : plan.scope? id = some s) (outer : String) :
    plan.statementsAt outer id = match s.kind with
      | .global => s.declarations.map .raw ++ (plan.children id).flatMap (plan.statementsAt "")
      | .media => [.media s.fragment ((plan.children id).flatMap (plan.statementsAt ""))]
      | _ => Tree.rule (outer ++ s.fragment) s.declarations
          ++ (plan.children id).flatMap (plan.statementsAt (outer ++ s.fragment)) := by
  rw [statementsAt, h.tree?_eq hs, Option.map_some, Option.getD_some, Tree.statements]
  simp only [Tree.statementsAll_eq_flatMap, h.flatMap_subtrees]
  rfl

lemma statementsAt_of_kind {id : Nat} {s : Scope} (hs : plan.scope? id = some s)
    (hg : s.kind ≠ .global) (hm : s.kind ≠ .media) (outer : String) :
    plan.statementsAt outer id = Tree.rule (outer ++ s.fragment) s.declarations
      ++ (plan.children id).flatMap (plan.statementsAt (outer ++ s.fragment)) := by
  rw [h.statementsAt_eq hs]
  split
  · rename_i hk
    exact absurd hk hg
  · rename_i hk
    exact absurd hk hm
  · rfl

lemma statements_eq : plan.statements = plan.statementsAt "" 0 := by
  obtain ⟨s, hs⟩ := exists_scope h.size_pos
  rw [statements, tree, statementsAt, h.tree?_eq hs]
  rfl

/-- What is written under a scope is what is written of each scope under it. -/
lemma leavesAll_statementsAt {id : Nat} (hid : id < plan.size) {head : Kind × String}
    {around : List (Kind × String)} (hc : plan.chain id = head :: around) :
    Statement.leavesAll (chainBlock around) (plan.statementsAt (chainOuter around) id)
      = (plan.visited id).flatMap plan.leavesAt := by
  induction id, hid using h.child_induction generalizing head around with
  | host id hid ih =>
    obtain ⟨s, hs⟩ := exists_scope hid
    have hk := kind?_of_scope? hs
    obtain ⟨_, hhead⟩ := h.chain_eq_cons hk (fragment?_of_scope? hs)
    obtain rfl : head = (s.kind, s.fragment) := (List.cons.inj (hc.symm.trans hhead)).1
    have hunder : Statement.leavesAll (chainBlock (plan.chain id))
        ((plan.children id).flatMap (plan.statementsAt (chainOuter (plan.chain id))))
          = (plan.children id).flatMap fun c => (plan.visited c).flatMap plan.leavesAt := by
      rw [Statement.leavesAll_flatMap]
      refine List.flatMap_congr fun c hm => ?_
      have hp := h.mem_children.1 hm
      have hcs := lt_size_of_parent? hp
      obtain ⟨kind, fragment, hkc, hfc⟩ := exists_kind_fragment hcs
      exact ih c hcs hp (h.chain_of_parent? hp hkc hfc)
    rw [h.visited_eq hid, List.flatMap_cons, List.flatMap_assoc, ← hunder, h.statementsAt_eq hs,
      leavesAt, context, hk, hc, declarations_of_scope? hs]
    cases s.kind with
    | global =>
      simp only [chainBlock, chainOuter, Option.getD_some]
      rw [Statement.leavesAll_append, Statement.leavesAll_map _ fun _ => rfl]
      rfl
    | media =>
      simp only [chainBlock, chainOuter, Option.getD_some]
      rw [Statement.leavesAll, Statement.leavesAll, List.append_nil, List.nil_append]
      rfl
    | _ =>
      simp only [chainBlock, chainOuter, Option.getD_some]
      rw [Statement.leavesAll_append, Tree.leavesAll_rule]
      rfl

/-- The stylesheet of a plan has what is written of each of its scopes. -/
lemma leaves_eq : plan.leaves = (plan.visited 0).flatMap plan.leavesAt := by
  obtain ⟨s, hs⟩ := exists_scope h.size_pos
  have hc := h.chain_root (kind?_of_scope? hs) (fragment?_of_scope? hs)
  rw [← h.leavesAll_statementsAt h.size_pos hc, leaves, h.statements_eq]
  rfl

end WellFormed

/-- A stylesheet starts with the text of the root, and goes on with what is right under the root. -/
lemma Rooted.statements_eq (h : plan.Rooted) :
    plan.statements = (plan.declarations 0).map .raw
      ++ (plan.children 0).flatMap (plan.statementsAt "") := by
  obtain ⟨s, hs⟩ := exists_scope h.wellFormed.size_pos
  have hk : s.kind = .global :=
    Option.some.inj ((kind?_of_scope? hs).symm.trans (h.kind?_eq_global.2 rfl))
  rw [h.wellFormed.statements_eq, h.wellFormed.statementsAt_eq hs, hk, declarations_of_scope? hs]

/-- The declarations of a scope are written in its context, unless it is a media block. -/
lemma contributions_leavesAt (plan : Plan) (id : Nat) :
    (plan.leavesAt id).flatMap Statement.contributions
      = if (plan.context id).kind = .media then []
        else (plan.declarations id).map (plan.context id).contribute := by
  have hrule : ∀ block selector (ds : List String),
      ((Tree.rule selector ds).map fun s => (block, s)).flatMap Statement.contributions
        = ds.map (.declaration block selector) := by
    intro block selector ds
    rw [Tree.rule]
    split
    · rename_i he
      rw [List.isEmpty_iff.1 he]
      rfl
    · rw [List.map_singleton, List.flatMap_singleton, Statement.contributions]
  rw [leavesAt]
  split
  · rename_i hk
    rw [hk, if_neg nofun, List.flatMap_map, List.map_eq_flatMap]
    refine List.flatMap_congr fun text _ => ?_
    rw [Statement.contributions, Context.contribute, if_pos hk]
  · rename_i hk
    rw [if_pos hk, List.flatMap_nil]
  · rename_i hg hm
    rw [hrule, if_neg hm]
    refine List.map_congr_left fun text _ => ?_
    rw [Context.contribute, if_neg hg]

/-- The stylesheet of a well-formed plan has the declarations of every scope in the context of the
scope, but for those of media blocks. -/
lemma WellFormed.written_eq (h : plan.WellFormed) :
    plan.written = (plan.visited 0).flatMap fun id =>
      if (plan.context id).kind = .media then []
      else (plan.declarations id).map (plan.context id).contribute := by
  rw [written, h.leaves_eq, List.flatMap_assoc]
  exact List.flatMap_congr fun id _ => plan.contributions_leavesAt id

end Plan

end Stylesheet
