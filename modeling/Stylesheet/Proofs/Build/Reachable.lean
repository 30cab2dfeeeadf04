/-
Reachable plans: what builds leave behind, one after another, finished or not.

* `Plan.Reachable`: an empty plan, or what a build into a scope of a reachable plan leaves behind;
* `Plan.buildAll`: builds of several descriptors, one after another, up to the first that is
  refused;
* `Plan.path`: the fragments from the root down to a scope;
* `Plan.Coherent`: the numbers that scopes keep of the scopes around them, of the scopes under them
  and of their fragments tell one tree, in which every scope has a path of its own;
* `coherent_of_reachable`: reachable plans are coherent.
-/
import Stylesheet.Proofs.Build.Run

namespace Stylesheet.Plan

variable {plan : Plan}

/-- The plans that builds leave behind, finished or not. -/
inductive Reachable : Plan → Prop where
  | empty : Reachable empty
  | standalone (fragment : String) : Reachable (standalone fragment)
  | build {plan : Plan} (h : Reachable plan) {target : Nat} (ht : target < plan.size)
      (d : Descriptor) (seed : Seed) : Reachable (left (plan.build target d seed))

/-- Builds descriptors into a scope, one after another, until one is refused. -/
def buildAll (plan : Plan) (target : Nat) (seed : Seed) : List Descriptor → Except Failure Plan
  | [] => .ok plan
  | d :: rest => do
    let next ← plan.build target d seed
    next.buildAll target seed rest

/-- Reachable plans are well-formed. -/
lemma wellFormed_of_reachable (h : plan.Reachable) : plan.WellFormed := by
  induction h with
  | empty => exact wellFormed_singleton .global ""
  | standalone fragment => exact wellFormed_singleton .element fragment
  | build _ ht d seed ih => exact (Ready.ofBody ih ht _ d).wellFormed_left_run

/-! ### Paths -/

/-- The fragments of the scopes from the root, which is left out, down to a scope. -/
def path (plan : Plan) (id : Nat) : List String :=
  ((plan.chain id).dropLast.map (·.2)).reverse

lemma follow_append (id : Nat) (path rest : List String) :
    plan.follow id (path ++ rest) = (plan.follow id path).bind fun c => plan.follow c rest := by
  induction path generalizing id with
  | nil => rfl
  | cons fragment path ih =>
    rw [List.cons_append, follow, follow]
    cases plan.child? id fragment with
    | none => rfl
    | some c => exact ih c

namespace WellFormed

lemma path_root (h : plan.WellFormed) : plan.path 0 = [] := by
  obtain ⟨_, _, hk, hf⟩ := exists_kind_fragment h.size_pos
  rw [path, h.chain_root hk hf]
  rfl

lemma path_of_parent? (h : plan.WellFormed) {id p : Nat} {fragment : String}
    (hp : plan.parent? id = some p) (hf : plan.fragment? id = some fragment) :
    plan.path id = plan.path p ++ [fragment] := by
  have hid := lt_size_of_parent? hp
  obtain ⟨_, _, hk, _⟩ := exists_kind_fragment hid
  obtain ⟨_, _, hkp, hfp⟩ := exists_kind_fragment (Nat.lt_trans (h.lt_of_parent? hp) hid)
  obtain ⟨around, hc⟩ := h.chain_eq_cons hkp hfp
  have hne : plan.chain p ≠ [] := by simp [hc]
  rw [path, h.chain_of_parent? hp hk hf, List.dropLast_cons_of_ne_nil hne, List.map_cons,
    List.reverse_cons, path]

/-- The path of a scope leads to it. -/
lemma lookup_path (h : plan.WellFormed) {id : Nat} (hid : id < plan.size) :
    plan.lookup (plan.path id) = some id := by
  induction id, hid using h.parent_induction with
  | root =>
    rw [h.path_root]
    rfl
  | under id p hid _ hp ih =>
    obtain ⟨_, _, _, hf⟩ := exists_kind_fragment hid
    rw [lookup, h.path_of_parent? hp hf, follow_append, ← lookup, ih, Option.bind_some, follow,
      h.child?_eq_some.2 ⟨hp, hf⟩]
    rfl

end WellFormed

/-! ### Coherence -/

/-- What the scopes of a plan say of each other tells one tree. -/
structure Coherent (plan : Plan) : Prop where
  /-- There is a root, and it is the only scope with no scope around it. -/
  root : ∃ s, plan.scope? 0 = some s
  root_iff : ∀ id s, plan.scope? id = some s → (s.parent = none ↔ id = 0)
  /-- The scope around a scope has a smaller number and lists the scope once; no other lists it. -/
  listed_once : ∀ id s p, plan.scope? id = some s → s.parent = some p →
    p < id ∧ ∀ q t, plan.scope? q = some t → t.children.count id = if q = p then 1 else 0
  /-- What a scope lists is there. -/
  listed_exists : ∀ id s c, plan.scope? id = some s → c ∈ s.children → c < plan.size
  /-- A scope lists what is under it in the order in which it was entered. -/
  ordered : ∀ id s, plan.scope? id = some s → s.children.Pairwise (· < ·)
  /-- The scopes under one scope have different fragments. -/
  distinct : ∀ id s, plan.scope? id = some s → (s.children.map plan.fragment?).Nodup
  /-- A scope finds under a fragment exactly the scope that it lists with that fragment. -/
  indexed : ∀ id s key c, plan.scope? id = some s →
    (s.index.lookup key = some c ↔ c ∈ s.children ∧ plan.fragment? c = some key)
  /-- The path of a scope leads to that scope and to no other. -/
  resolves : ∀ id other, id < plan.size → (plan.lookup (plan.path id) = some other ↔ other = id)

/-- **Coherence**: whatever was built into a plan, and whether or not it was built to the end, the
scopes of the plan tell one tree. -/
theorem coherent_of_reachable (h : plan.Reachable) : plan.Coherent := by
  have hw := wellFormed_of_reachable h
  exact
    { root := exists_scope hw.size_pos
      root_iff := fun id s hs => by
        rw [← parent?_of_scope? hs]
        exact hw.parent?_eq_none (lt_size hs)
      listed_once := fun id s p hs hp => by
        rw [← parent?_of_scope? hs] at hp
        refine ⟨hw.lt_of_parent? hp, fun q t ht => ?_⟩
        rw [← children_of_scope? ht]
        exact hw.count_children hp q
      listed_exists := fun id s c hs hc => by
        rw [← children_of_scope? hs] at hc
        exact lt_size_of_parent? (hw.mem_children.1 hc)
      ordered := fun id s hs => by
        rw [← children_of_scope? hs]
        exact hw.pairwise_children id
      distinct := fun id s hs => by
        rw [← children_of_scope? hs]
        exact hw.nodup_fragments id
      indexed := fun id s key c hs => by
        have hfind : s.index.lookup key = plan.child? id key := by
          rw [child?, hs, Option.bind_some]
        rw [hfind, hw.child?_eq_some, ← children_of_scope? hs, hw.mem_children]
      resolves := fun id other hid => by
        rw [hw.lookup_path hid, Option.some.injEq]
        exact eq_comm }

/-- What is left behind by a build into a rule of an earlier plan that is refused at its second
member, which is no literal, tells one tree as well. -/
theorem coherent_of_refused_member :
    (left ((left (empty.build 0 ⟨[("menu", .block [("& a", .block [])])]⟩ .identity)).build 2
      ⟨[("color", .literal (.text "red")), ("hover", .block [])]⟩ .identity)).Coherent :=
  coherent_of_reachable (.build (.build .empty (by decide) _ _) (by decide +kernel) _ _)

end Stylesheet.Plan
