/-
Walks over plans end, and come to every scope once.

* `Plan.Climbs`: the walk from a scope over the scopes around it;
* `Plan.Shows`: the descent that makes trees of scopes;
* `Plan.Emits`: the descent that writes scopes, with the scopes that it visits and the blocks that
  it writes for each of them;
* `WellFormed.climbs_iff`, `shows_iff`, `emits_iff`: on a well-formed plan each of these walks comes
  to an end in exactly one way, and with the result that the definitions with bounds have;
* `WellFormed.nodes_perm`: the tree of a plan has a node for each scope;
* `traversed_of_reachable`: walks over reachable plans end, and come to every scope once.

The walks here follow the numbers that scopes keep of each other and nothing else: a derivation is a
walk that has come to an end.
-/
import Stylesheet.Proofs.Build.Reachable
import Stylesheet.Proofs.Selectors

namespace Stylesheet

/-! ### Nodes -/

namespace Tree

/-- The number of the scope at the top of a tree. -/
def number : Tree → Nat
  | .node id _ _ => id

/-- The scope at the top of a tree. -/
def scope : Tree → Scope
  | .node _ s _ => s

/-- The trees right under the top of a tree. -/
def children : Tree → List Tree
  | .node _ _ ts => ts

mutual

/-- The nodes of a tree, each with what is under it, hosts before what is under them. -/
def nodes : Tree → List Tree
  | .node id s ts => .node id s ts :: nodesAll ts

/-- The nodes of some trees, one tree after another. -/
def nodesAll : List Tree → List Tree
  | [] => []
  | t :: ts => nodes t ++ nodesAll ts

end

lemma nodesAll_eq_flatMap (ts : List Tree) : nodesAll ts = ts.flatMap nodes := by
  induction ts with
  | nil => rfl
  | cons t ts ih => rw [nodesAll, ih, List.flatMap_cons]

end Tree

namespace Plan

variable {plan : Plan} {id : Nat}

/-! ### Walks -/

/-- The walk from a scope to the scope around it, and on from there, until there is none. -/
inductive Climbs (plan : Plan) : Nat → List Nat → Prop where
  | top {id : Nat} {s : Scope} (hs : plan.scope? id = some s) (hp : s.parent = none) :
      Climbs plan id [id]
  | up {id p : Nat} {s : Scope} {walk : List Nat} (hs : plan.scope? id = some s)
      (hp : s.parent = some p) (hw : Climbs plan p walk) : Climbs plan id (id :: walk)

/-- The trees of some scopes, one scope after another, each with the trees of the scopes that it
lists. -/
inductive Shows (plan : Plan) : List Nat → List Tree → Prop where
  | nil : Shows plan [] []
  | cons {id : Nat} {ids : List Nat} {s : Scope} {under after : List Tree}
      (hs : plan.scope? id = some s) (hu : Shows plan s.children under)
      (ha : Shows plan ids after) : Shows plan (id :: ids) (.node id s under :: after)

/-- The text of some scopes, one scope after another, where selectors go on from the given one. Each
visit of a scope is noted with the blocks that it writes itself; after that the scopes are written
that the scope lists. -/
inductive Emits (plan : Plan) :
    String → List Nat → List (Nat × List String) → String → Prop where
  | nil {outer : String} : Emits plan outer [] [] ""
  | global {outer inside rest : String} {id : Nat} {ids : List Nat} {s : Scope}
      {under after : List (Nat × List String)} (hs : plan.scope? id = some s)
      (hk : s.kind = .global) (hu : Emits plan "" s.children under inside)
      (ha : Emits plan outer ids after rest) :
      Emits plan outer (id :: ids) ((id, []) :: under ++ after)
        (String.join s.declarations ++ inside ++ rest)
  | media {outer inside rest : String} {id : Nat} {ids : List Nat} {s : Scope}
      {under after : List (Nat × List String)} (hs : plan.scope? id = some s)
      (hk : s.kind = .media) (hu : Emits plan "" s.children under inside)
      (ha : Emits plan outer ids after rest) :
      Emits plan outer (id :: ids) ((id, []) :: under ++ after)
        (s.fragment ++ "\x7b" ++ inside ++ "\x7d" ++ rest)
  | rule {outer inside rest : String} {id : Nat} {ids : List Nat} {s : Scope}
      {under after : List (Nat × List String)} (hs : plan.scope? id = some s)
      (hk : s.kind.isRule = true) (hu : Emits plan (outer ++ s.fragment) s.children under inside)
      (ha : Emits plan outer ids after rest) :
      Emits plan outer (id :: ids)
        ((id, ruleBlocks (outer ++ s.fragment) s.declarations) :: under ++ after)
        (String.join (ruleBlocks (outer ++ s.fragment) s.declarations) ++ inside ++ rest)

/-! ### There is one walk only -/

lemma Climbs.eq {walk walk' : List Nat} (h : plan.Climbs id walk) (h' : plan.Climbs id walk') :
    walk' = walk := by
  induction h generalizing walk' with
  | top hs hp =>
    cases h' with
    | top hs' hp' => rfl
    | up hs' hp' hw' =>
      cases hs.symm.trans hs'
      cases hp.symm.trans hp'
  | up hs hp hw ih =>
    cases h' with
    | top hs' hp' =>
      cases hs.symm.trans hs'
      cases hp.symm.trans hp'
    | up hs' hp' hw' =>
      cases hs.symm.trans hs'
      cases hp.symm.trans hp'
      rw [ih hw']

lemma Shows.eq {ids : List Nat} {ts us : List Tree} (h : plan.Shows ids ts)
    (h' : plan.Shows ids us) : us = ts := by
  induction h generalizing us with
  | nil =>
    cases h'
    rfl
  | cons hs hu ha ihu iha =>
    cases h' with
    | cons hs' hu' ha' =>
      cases hs.symm.trans hs'
      rw [ihu hu', iha ha']

lemma Emits.eq {outer text text' : String} {ids : List Nat} {vs ws : List (Nat × List String)}
    (h : plan.Emits outer ids vs text) (h' : plan.Emits outer ids ws text') :
    ws = vs ∧ text' = text := by
  induction h generalizing ws text' with
  | nil =>
    cases h'
    exact ⟨rfl, rfl⟩
  | global hs hk hu ha ihu iha =>
    cases h' with
    | global hs' hk' hu' ha' =>
      cases hs.symm.trans hs'
      obtain ⟨rfl, rfl⟩ := ihu hu'
      obtain ⟨rfl, rfl⟩ := iha ha'
      exact ⟨rfl, rfl⟩
    | media hs' hk' _ _ =>
      cases hs.symm.trans hs'
      cases hk.symm.trans hk'
    | rule hs' hk' _ _ =>
      cases hs.symm.trans hs'
      rw [hk] at hk'
      cases hk'
  | media hs hk hu ha ihu iha =>
    cases h' with
    | global hs' hk' _ _ =>
      cases hs.symm.trans hs'
      cases hk.symm.trans hk'
    | media hs' hk' hu' ha' =>
      cases hs.symm.trans hs'
      obtain ⟨rfl, rfl⟩ := ihu hu'
      obtain ⟨rfl, rfl⟩ := iha ha'
      exact ⟨rfl, rfl⟩
    | rule hs' hk' _ _ =>
      cases hs.symm.trans hs'
      rw [hk] at hk'
      cases hk'
  | rule hs hk hu ha ihu iha =>
    cases h' with
    | global hs' hk' _ _ =>
      cases hs.symm.trans hs'
      rw [hk'] at hk
      cases hk
    | media hs' hk' _ _ =>
      cases hs.symm.trans hs'
      rw [hk'] at hk
      cases hk
    | rule hs' hk' hu' ha' =>
      cases hs.symm.trans hs'
      obtain ⟨rfl, rfl⟩ := ihu hu'
      obtain ⟨rfl, rfl⟩ := iha ha'
      exact ⟨rfl, rfl⟩

/-! ### Walks on well-formed plans -/

/-- The blocks that a visit of a scope writes. -/
def blocksAt (plan : Plan) (id : Nat) : List String :=
  if (plan.context id).kind.isRule then
    ruleBlocks (plan.context id).selector (plan.declarations id)
  else []

/-- A scope that is written as a rule and has declarations is written as one block, and any other
scope as none. -/
lemma blocksAt_of_scope? {s : Scope} (hs : plan.scope? id = some s) :
    plan.blocksAt id = if s.kind.isRule = true ∧ s.declarations ≠ [] then
      [(plan.context id).selector ++ " \x7b" ++ ";".intercalate s.declarations ++ "\x7d"]
      else [] := by
  rw [blocksAt, kind_context (kind?_of_scope? hs), declarations_of_scope? hs, ruleBlocks]
  by_cases hd : s.declarations = []
  · simp [hd]
  · simp [hd]

/-- The scopes that a descent starts from are at the tops of its trees. -/
lemma Shows.map_number {ids : List Nat} {ts : List Tree} (h : plan.Shows ids ts) :
    ts.map Tree.number = ids := by
  induction h with
  | nil => rfl
  | cons _ _ _ _ iha => rw [List.map_cons, iha, Tree.number]

/-- Every node of a descent shows a scope, and has under it what the descent from the scopes shows
that the scope lists. -/
lemma Shows.of_mem_nodesAll {ids : List Nat} {ts : List Tree} (h : plan.Shows ids ts) :
    ∀ t ∈ Tree.nodesAll ts,
      plan.scope? t.number = some t.scope ∧ plan.Shows t.scope.children t.children := by
  induction h with
  | nil => exact List.forall_mem_nil _
  | cons hs hu _ ihu iha =>
    intro t ht
    rw [Tree.nodesAll, Tree.nodes, List.cons_append, List.mem_cons, List.mem_append] at ht
    rcases ht with rfl | ht | ht
    · exact ⟨hs, hu⟩
    · exact ihu t ht
    · exact iha t ht

/-- The descent from some scopes shows the trees of these scopes, if it does so for each of them. -/
lemma Shows.of_forall {ids : List Nat}
    (h : ∀ c ∈ ids, ∃ t, plan.tree? c = some t ∧ plan.Shows [c] [t]) :
    plan.Shows ids (ids.filterMap plan.tree?) := by
  induction ids with
  | nil => exact .nil
  | cons c ids ih =>
    obtain ⟨⟨t, ht, hc⟩, hids⟩ := List.forall_mem_cons.1 h
    rw [List.filterMap_cons, ht]
    cases hc with
    | cons hs hu _ => exact .cons hs hu (ih hids)

/-- A scope is written, and then others are. -/
lemma Emits.append {outer text rest : String} {ids : List Nat}
    {vs ws : List (Nat × List String)} (h : plan.Emits outer [id] vs text)
    (hr : plan.Emits outer ids ws rest) :
    plan.Emits outer (id :: ids) (vs ++ ws) (text ++ rest) := by
  cases h with
  | global hs hk hu ha =>
    cases ha
    rw [List.append_nil, String.append_empty]
    exact .global hs hk hu hr
  | media hs hk hu ha =>
    cases ha
    rw [List.append_nil, String.append_empty]
    exact .media hs hk hu hr
  | rule hs hk hu ha =>
    cases ha
    rw [List.append_nil, String.append_empty]
    exact .rule hs hk hu hr

/-- Scopes are written one after another. -/
lemma Emits.of_forall {outer : String} {ids : List Nat} {vs : Nat → List (Nat × List String)}
    {statements : Nat → List Statement}
    (h : ∀ c ∈ ids, plan.Emits outer [c] (vs c) (Statement.cssAll (statements c))) :
    plan.Emits outer ids (ids.flatMap vs) (Statement.cssAll (ids.flatMap statements)) := by
  induction ids with
  | nil => exact .nil
  | cons c ids ih =>
    obtain ⟨hc, hids⟩ := List.forall_mem_cons.1 h
    rw [List.flatMap_cons, List.flatMap_cons, Statement.cssAll_append]
    exact hc.append (ih hids)

namespace WellFormed

variable (h : plan.WellFormed)

include h

/-- The walk over the scopes around a scope ends at the root. -/
lemma climbs_iff (hid : id < plan.size) {walk : List Nat} :
    plan.Climbs id walk ↔ walk = plan.ancestors id := by
  have hclimbs : plan.Climbs id (plan.ancestors id) := by
    induction id, hid using h.parent_induction with
    | root =>
      obtain ⟨s, hs⟩ := exists_scope h.size_pos
      rw [h.ancestors_root]
      exact .top hs ((parent?_of_scope? hs).symm.trans h.parent?_root)
    | under id p hid _ hp ih =>
      obtain ⟨s, hs⟩ := exists_scope hid
      rw [h.ancestors_of_parent? hp]
      exact .up hs ((parent?_of_scope? hs).symm.trans hp) ih
  constructor
  · exact hclimbs.eq
  · rintro rfl
    exact hclimbs

/-- The descent from a scope ends, with the tree of the scope. -/
lemma shows_tree? (hid : id < plan.size) : ∃ t, plan.tree? id = some t ∧ plan.Shows [id] [t] := by
  induction id, hid using h.child_induction with
  | host id hid ih =>
    obtain ⟨s, hs⟩ := exists_scope hid
    refine ⟨_, h.tree?_eq hs, .cons hs ?_ .nil⟩
    rw [subtrees, children_of_scope? hs]
    refine Shows.of_forall fun c hc => ?_
    rw [← children_of_scope? hs, h.mem_children] at hc
    exact ih c (lt_size_of_parent? hc) hc

/-- The descent from the root shows the tree of the plan. -/
lemma shows_iff {ts : List Tree} : plan.Shows [0] ts ↔ ts = [plan.tree] := by
  obtain ⟨t, ht, hshows⟩ := h.shows_tree? h.size_pos
  rw [tree, ht, Option.getD_some]
  constructor
  · exact hshows.eq
  · rintro rfl
    exact hshows

/-- The nodes of a descent are those of the scopes that it starts from and of all under them. -/
lemma map_number_nodesAll {ids : List Nat} {ts : List Tree} (hs : plan.Shows ids ts) :
    (Tree.nodesAll ts).map Tree.number = ids.flatMap plan.visited := by
  induction hs with
  | nil => rfl
  | cons hs _ _ ihu iha =>
    rw [Tree.nodesAll, Tree.nodes, List.cons_append, List.map_cons, List.map_append, ihu, iha,
      List.flatMap_cons, h.visited_eq (lt_size hs), children_of_scope? hs, Tree.number,
      List.cons_append]

/-- The tree of a plan has a node for each scope. -/
lemma nodes_perm : (plan.tree.nodes.map Tree.number).Perm (List.range plan.size) := by
  have hnodes := h.map_number_nodesAll (h.shows_iff.2 rfl)
  rw [Tree.nodesAll_eq_flatMap, List.flatMap_singleton, List.flatMap_singleton] at hnodes
  rw [hnodes]
  exact h.visited_perm

/-- A scope under which selectors go on as they do around it is written with all that is under it,
and the visits are those of the scopes in its tree. -/
lemma emits_statementsAt (hid : id < plan.size) {head : Kind × String}
    {around : List (Kind × String)} (hc : plan.chain id = head :: around) :
    plan.Emits (chainOuter around) [id] ((plan.visited id).map fun a => (a, plan.blocksAt a))
      (Statement.cssAll (plan.statementsAt (chainOuter around) id)) := by
  induction id, hid using h.child_induction generalizing head around with
  | host id hid ih =>
    obtain ⟨s, hs⟩ := exists_scope hid
    have hk := kind?_of_scope? hs
    obtain ⟨_, hhead⟩ := h.chain_eq_cons hk (fragment?_of_scope? hs)
    obtain rfl : head = (s.kind, s.fragment) := (List.cons.inj (hc.symm.trans hhead)).1
    -- selectors under the scope go on from its chain, whatever its kind is
    have hunder : plan.Emits (chainOuter (plan.chain id)) s.children
        ((plan.children id).flatMap fun c => (plan.visited c).map fun a => (a, plan.blocksAt a))
        (Statement.cssAll
          ((plan.children id).flatMap (plan.statementsAt (chainOuter (plan.chain id))))) := by
      rw [← children_of_scope? hs]
      refine Emits.of_forall fun c hm => ?_
      have hp := h.mem_children.1 hm
      have hcs := lt_size_of_parent? hp
      obtain ⟨kind, fragment, hkc, hfc⟩ := exists_kind_fragment hcs
      exact ih c hcs hp (h.chain_of_parent? hp hkc hfc)
    have hcontext : (plan.context id).selector = chainOuter (plan.chain id) := rfl
    rw [h.visited_eq hid, List.map_cons, List.map_flatMap, h.statementsAt_eq hs, blocksAt,
      kind_context hk, hcontext, declarations_of_scope? hs]
    rw [hc] at hunder ⊢
    cases hkind : s.kind with
    | global =>
      rw [hkind, chainOuter, if_pos (.inl rfl)] at hunder
      have hemits : plan.Emits (chainOuter around) [id] _ _ := .global hs hkind hunder .nil
      rw [List.append_nil, String.append_empty] at hemits
      rw [Statement.cssAll_append, Statement.cssAll_map_raw]
      exact hemits
    | media =>
      rw [hkind, chainOuter, if_pos (.inr rfl)] at hunder
      have hemits : plan.Emits (chainOuter around) [id] _ _ := .media hs hkind hunder .nil
      rw [List.append_nil] at hemits
      exact hemits
    | _ =>
      rw [hkind] at hunder
      have hemits : plan.Emits (chainOuter around) [id] _ _ :=
        .rule hs (by rw [hkind]; rfl) hunder .nil
      rw [List.append_nil, String.append_empty] at hemits
      rw [Statement.cssAll_append, Tree.cssAll_rule]
      exact hemits

/-- A stylesheet is written by the visits of all scopes of the plan, and in no other way. -/
lemma emits_iff {vs : List (Nat × List String)} {text : String} :
    plan.Emits "" [0] vs text
      ↔ vs = ((plan.visited 0).map fun a => (a, plan.blocksAt a)) ∧ text = plan.css := by
  obtain ⟨s, hs⟩ := exists_scope h.size_pos
  have hc := h.chain_root (kind?_of_scope? hs) (fragment?_of_scope? hs)
  have hemits :
      plan.Emits "" [0] ((plan.visited 0).map fun a => (a, plan.blocksAt a)) plan.css := by
    rw [css, h.statements_eq]
    exact h.emits_statementsAt h.size_pos hc
  constructor
  · exact hemits.eq
  · rintro ⟨rfl, rfl⟩
    exact hemits

end WellFormed

/-! ### Reachable plans -/

/-- The walks over a plan end, and come to every scope once. -/
structure Traversed (plan : Plan) : Prop where
  /-- The walk over the scopes around a scope ends, from every scope. -/
  climbs_iff : ∀ id, id < plan.size → ∀ walk, plan.Climbs id walk ↔ walk = plan.ancestors id
  /-- The descent that shows the plan ends, with the tree of the plan. -/
  shows_iff : ∀ ts, plan.Shows [0] ts ↔ ts = [plan.tree]
  /-- There are as many nodes in the tree as scopes, one for each. -/
  length_nodes : plan.tree.nodes.length = plan.size
  nodes_perm : (plan.tree.nodes.map Tree.number).Perm (List.range plan.size)
  /-- A node shows its scope. -/
  shown : ∀ t ∈ plan.tree.nodes, plan.scope? t.number = some t.scope
  /-- What is right under a node shows the scopes that the scope of the node lists, in their
  order. -/
  ordered : ∀ t ∈ plan.tree.nodes, t.children.map Tree.number = t.scope.children
  /-- A scope is shown right under the scope around it, and nowhere else. -/
  under_parent : ∀ t ∈ plan.tree.nodes, ∀ id,
    id ∈ t.children.map Tree.number ↔ plan.parent? id = some t.number
  /-- The descent that writes the plan ends, with its stylesheet, and visits every scope once. A
  scope that is written as a rule and has declarations is written by its visit as one block, its
  selector and, in braces, its declarations, and any other scope as none. -/
  emits : ∃ visits, (∀ vs text, plan.Emits "" [0] vs text ↔ vs = visits ∧ text = plan.css)
    ∧ (visits.map (·.1)).Perm (List.range plan.size)
    ∧ ∀ v ∈ visits, ∃ s, plan.scope? v.1 = some s
      ∧ v.2 = if s.kind.isRule = true ∧ s.declarations ≠ [] then
          [(plan.context v.1).selector ++ " \x7b" ++ ";".intercalate s.declarations ++ "\x7d"]
        else []

/-- **Walks end**: whatever was built into a plan, and whether or not it was built to the end, the
walks over the scopes around a scope end, the tree of the plan has one node for each scope, under
that of the scope around it, and the stylesheet is written by one visit of each scope. -/
theorem traversed_of_reachable (h : plan.Reachable) : plan.Traversed := by
  have hw := wellFormed_of_reachable h
  have hnode : ∀ t ∈ plan.tree.nodes,
      plan.scope? t.number = some t.scope ∧ plan.Shows t.scope.children t.children := by
    have hnodes := (hw.shows_iff.2 rfl).of_mem_nodesAll
    rwa [Tree.nodesAll_eq_flatMap, List.flatMap_singleton] at hnodes
  have hlength := hw.nodes_perm.length_eq
  rw [List.length_map, List.length_range] at hlength
  exact
    { climbs_iff := fun _ hid _ => hw.climbs_iff hid
      shows_iff := fun _ => hw.shows_iff
      length_nodes := hlength
      nodes_perm := hw.nodes_perm
      shown := fun t ht => (hnode t ht).1
      ordered := fun t ht => (hnode t ht).2.map_number
      under_parent := fun t ht id => by
        obtain ⟨hs, hu⟩ := hnode t ht
        rw [hu.map_number, ← children_of_scope? hs, hw.mem_children]
      emits := by
        refine ⟨_, fun _ _ => hw.emits_iff, ?_, fun v hv => ?_⟩
        · have hids : (plan.visited 0).map ((·.1) ∘ fun a => (a, plan.blocksAt a))
              = plan.visited 0 := List.map_id _
          rw [List.map_map, hids]
          exact hw.visited_perm
        · obtain ⟨id, hid, rfl⟩ := List.mem_map.1 hv
          obtain ⟨s, hs⟩ := exists_scope ((hw.mem_visited hw.size_pos).1 hid).1
          exact ⟨s, hs, blocksAt_of_scope? hs⟩ }

/-- A rule with another in it and with a media query, before a member that is no mapping. -/
def brokenOff : Descriptor :=
  ⟨[("menu", .block [("top", .literal (.text "0")),
      ("& a", .block [("color", .literal (.text "red"))]),
      ("media", .list [.block [("print", .literal (.text "")),
        ("css", .block [("color", .literal (.text "black"))])]])]),
    ("hover", .literal (.text "none"))]⟩

/-- Walks end on what is left behind by a build that was refused after it had entered four
scopes. -/
theorem traversed_of_reachable_brokenOff :
    (left (empty.build 0 brokenOff .identity)).Reachable
      ∧ (left (empty.build 0 brokenOff .identity)).size = 5
      ∧ (left (empty.build 0 brokenOff .identity)).css
        = ".menu \x7btop:0\x7d.menu a \x7bcolor:red\x7d"
          ++ "@media (print)\x7b.menu \x7bcolor:black\x7d\x7d"
      ∧ (left (empty.build 0 brokenOff .identity)).Traversed := by
  have hreachable : (left (empty.build 0 brokenOff .identity)).Reachable :=
    .build .empty Nat.one_pos _ _
  exact ⟨hreachable, by decide +kernel, by decide +kernel, traversed_of_reachable hreachable⟩

end Plan

end Stylesheet
