/-
How plans grow.

* `Plan.heading?`: what never changes of a scope: its kind, its fragment and the scope around it;
* `Plan.children`, `Plan.declarations`: what a scope gathers;
* `Plan.textsAt`: the texts among some declarations that are made in one scope;
* `Plan.ForallHeadings`: a property of all headings, kept by each request for a heading that has it;
* `Plan.Extends`: a plan has all scopes of another under the same numbers and headings;
* `Plan.children_enter`, `child?_enter`, `scope?_declareAll`: what a request and what declarations
  change, and that they change nothing else.
-/
import Mathlib.Tactic.Common
import Stylesheet.Plan

namespace Stylesheet

/-- What never changes of a scope: its kind, its fragment and the scope around it. -/
def Scope.heading (s : Scope) : Kind × String × Option Nat :=
  (s.kind, s.fragment, s.parent)

namespace Plan

variable {plan : Plan}

/-! ### Views of a scope -/

/-- The heading of the scope with a number. -/
def heading? (plan : Plan) (id : Nat) : Option (Kind × String × Option Nat) :=
  (plan.scope? id).map Scope.heading

/-- The fragment of the scope with a number. -/
def fragment? (plan : Plan) (id : Nat) : Option String :=
  (plan.scope? id).map (·.fragment)

/-- The numbers of the scopes right under a scope. -/
def children (plan : Plan) (id : Nat) : List Nat :=
  ((plan.scope? id).map (·.children)).getD []

/-- The declarations of a scope. -/
def declarations (plan : Plan) (id : Nat) : List String :=
  ((plan.scope? id).map (·.declarations)).getD []

lemma kind?_eq (id : Nat) : plan.kind? id = (plan.heading? id).map (·.1) := by
  rw [heading?, Option.map_map]
  rfl

lemma fragment?_eq (id : Nat) : plan.fragment? id = (plan.heading? id).map (·.2.1) := by
  rw [heading?, Option.map_map]
  rfl

lemma parent?_eq (id : Nat) : plan.parent? id = (plan.heading? id).bind (·.2.2) := by
  rw [parent?, heading?, Option.bind_map]
  rfl

section

variable {id : Nat} {s : Scope} (hs : plan.scope? id = some s)

include hs

lemma kind?_of_scope? : plan.kind? id = some s.kind := by
  rw [kind?, hs, Option.map_some]

lemma fragment?_of_scope? : plan.fragment? id = some s.fragment := by
  rw [fragment?, hs, Option.map_some]

lemma parent?_of_scope? : plan.parent? id = s.parent := by
  rw [parent?, hs, Option.bind_some]

lemma children_of_scope? : plan.children id = s.children := by
  rw [children, hs, Option.map_some, Option.getD_some]

lemma declarations_of_scope? : plan.declarations id = s.declarations := by
  rw [declarations, hs, Option.map_some, Option.getD_some]

end

lemma heading?_eq_some {id p : Nat} {kind : Kind} {fragment : String}
    (hk : plan.kind? id = some kind) (hf : plan.fragment? id = some fragment)
    (hp : plan.parent? id = some p) : plan.heading? id = some (kind, fragment, some p) := by
  obtain ⟨s, hs, rfl⟩ := Option.map_eq_some_iff.1 hk
  rw [fragment?, hs, Option.map_some, Option.some.injEq] at hf
  rw [parent?, hs, Option.bind_some] at hp
  rw [heading?, hs, Option.map_some, Scope.heading, hf, hp]

/-- There is a scope with every number below the number of scopes, and no other. -/
lemma scope?_eq_none {id : Nat} : plan.scope? id = none ↔ plan.size ≤ id :=
  List.getElem?_eq_none_iff

lemma exists_scope {id : Nat} (h : id < plan.size) : ∃ s, plan.scope? id = some s :=
  ⟨_, List.getElem?_eq_getElem h⟩

lemma exists_kind_fragment {id : Nat} (h : id < plan.size) :
    ∃ kind fragment, plan.kind? id = some kind ∧ plan.fragment? id = some fragment := by
  obtain ⟨s, hs⟩ := exists_scope h
  exact ⟨s.kind, s.fragment, kind?_of_scope? hs, fragment?_of_scope? hs⟩

lemma lt_size {id : Nat} {s : Scope} (h : plan.scope? id = some s) : id < plan.size :=
  (List.getElem?_eq_some_iff.1 h).1

/-- No scope has the next number to be given. -/
lemma parent?_size : plan.parent? plan.size = none := by
  rw [parent?, scope?_eq_none.2 (Nat.le_refl _)]
  rfl

lemma lt_size_of_parent? {id p : Nat} (h : plan.parent? id = some p) : id < plan.size := by
  obtain ⟨s, hs, _⟩ := Option.bind_eq_some_iff.1 h
  exact lt_size hs

lemma lt_size_of_kind? {id : Nat} {kind : Kind} (h : plan.kind? id = some kind) :
    id < plan.size := by
  obtain ⟨s, hs, _⟩ := Option.map_eq_some_iff.1 h
  exact lt_size hs

/-! ### A request -/

/-- A request for a fragment that is there changes nothing. -/
lemma enter_of_some {r : Request} {c : Nat} (h : plan.child? r.host r.fragment = some c) :
    plan.enter r = plan := by
  rw [enter, h]

lemma answer_of_some {r : Request} {c : Nat} (h : plan.child? r.host r.fragment = some c) :
    plan.answer r = c := by
  rw [answer, h, Option.getD_some]

lemma answer_of_none {r : Request} (h : plan.child? r.host r.fragment = none) :
    plan.answer r = plan.size := by
  rw [answer, h, Option.getD_none]

lemma size_enter_of_none {r : Request} (h : plan.child? r.host r.fragment = none) :
    (plan.enter r).size = plan.size + 1 := by
  rw [enter, h]
  simp [size]

/-- A request for a new fragment adds one scope at the end, and its host takes note of it. -/
lemma scope?_enter {r : Request} (h : plan.child? r.host r.fragment = none) (id : Nat) :
    (plan.enter r).scope? id
      = if id = plan.size then
          some { kind := r.kind, fragment := r.fragment, parent := some r.host }
        else if id = r.host then (plan.scope? id).map fun s => s.adopt r.fragment plan.size
        else plan.scope? id := by
  have hlen : plan.scopes.length = plan.size := rfl
  rw [enter, h]
  simp only [scope?, List.getElem?_append, List.length_modify, List.getElem?_modify, hlen]
  by_cases hlt : id < plan.size
  · rw [if_pos hlt, if_neg (by omega : ¬ id = plan.size)]
    by_cases hh : id = r.host
    · simp [hh]
    · simp [hh, Ne.symm hh]
  · by_cases he : id = plan.size
    · simp [he]
    · have hout : plan.scopes[id]? = none := List.getElem?_eq_none (by omega)
      have hone : id - plan.size ≠ 0 := by omega
      simp [hlt, he, hout, hone]

section

variable {r : Request} (h : plan.child? r.host r.fragment = none)

include h

lemma heading?_enter (id : Nat) :
    (plan.enter r).heading? id
      = if id = plan.size then some (r.kind, r.fragment, some r.host) else plan.heading? id := by
  rw [heading?, scope?_enter h, heading?]
  split
  · rfl
  · split
    · rw [Option.map_map]
      rfl
    · rfl

lemma kind?_enter (id : Nat) :
    (plan.enter r).kind? id = if id = plan.size then some r.kind else plan.kind? id := by
  rw [kind?_eq, heading?_enter h, kind?_eq]
  split <;> rfl

lemma fragment?_enter (id : Nat) :
    (plan.enter r).fragment? id
      = if id = plan.size then some r.fragment else plan.fragment? id := by
  rw [fragment?_eq, heading?_enter h, fragment?_eq]
  split <;> rfl

lemma parent?_enter (id : Nat) :
    (plan.enter r).parent? id = if id = plan.size then some r.host else plan.parent? id := by
  rw [parent?_eq, heading?_enter h, parent?_eq]
  split <;> rfl

/-- Only the host of a new scope lists it, last. -/
lemma children_enter (hr : r.host < plan.size) (id : Nat) :
    (plan.enter r).children id
      = if id = r.host then plan.children id ++ [plan.size] else plan.children id := by
  rw [children, scope?_enter h, children]
  by_cases hs : id = plan.size
  · have hout : plan.scope? id = none := scope?_eq_none.2 (by omega)
    rw [if_pos hs, if_neg (by omega : ¬ id = r.host), hout]
    rfl
  · rw [if_neg hs]
    split
    · obtain ⟨s, hid⟩ : ∃ s, plan.scope? id = some s := exists_scope (by omega)
      rw [hid]
      rfl
    · rfl

/-- Only the host of a new scope finds it, and by its fragment alone. -/
lemma child?_enter (hr : r.host < plan.size) (id : Nat) (key : String) :
    (plan.enter r).child? id key
      = if id = r.host ∧ key = r.fragment then some plan.size else plan.child? id key := by
  rw [child?, scope?_enter h, child?]
  by_cases hs : id = plan.size
  · have hout : plan.scope? id = none := scope?_eq_none.2 (by omega)
    rw [if_pos hs, if_neg (by omega), hout]
    rfl
  · rw [if_neg hs]
    by_cases hh : id = r.host
    · obtain ⟨s, hid⟩ : ∃ s, plan.scope? id = some s := exists_scope (by omega)
      rw [if_pos hh, hid]
      simp only [Option.map_some, Option.bind_some, Scope.adopt, hh, true_and]
      rw [List.lookup_cons]
      by_cases hk : key = r.fragment
      · simp [hk]
      · simp [hk, beq_eq_false_iff_ne.2 hk]
    · rw [if_neg hh, if_neg (by omega)]

end

/-- A request makes no declaration. -/
lemma declarations_enter (r : Request) (id : Nat) :
    (plan.enter r).declarations id = plan.declarations id := by
  cases h : plan.child? r.host r.fragment with
  | some c => rw [enter_of_some h]
  | none =>
    rw [declarations, scope?_enter h, declarations]
    split
    · rename_i hs
      rw [scope?_eq_none.2 (by omega)]
      rfl
    · split
      · rw [Option.map_map]
        rfl
      · rfl

/-! ### Declarations -/

/-- The texts among some declarations that are made in one scope. -/
def textsAt (id : Nat) (writes : List (Nat × String)) : List String :=
  (writes.filter fun w => w.1 = id).map (·.2)

@[simp] lemma textsAt_nil (id : Nat) : textsAt id [] = [] := rfl

@[simp] lemma textsAt_cons (id : Nat) (w : Nat × String) (writes : List (Nat × String)) :
    textsAt id (w :: writes)
      = if w.1 = id then w.2 :: textsAt id writes else textsAt id writes := by
  rw [textsAt, List.filter_cons]
  split <;> simp_all [textsAt]

@[simp] lemma textsAt_append (id : Nat) (writes later : List (Nat × String)) :
    textsAt id (writes ++ later) = textsAt id writes ++ textsAt id later := by
  simp [textsAt]

lemma textsAt_eq_nil {id : Nat} {writes : List (Nat × String)} (h : ∀ w ∈ writes, w.1 ≠ id) :
    textsAt id writes = [] := by
  rw [textsAt, List.map_eq_nil_iff, List.filter_eq_nil_iff]
  exact fun w hw hid => h w hw (of_decide_eq_true hid)

lemma scope?_declare (w : Nat × String) (id : Nat) :
    (plan.declare w).scope? id
      = if w.1 = id then (plan.scope? id).map fun s => s.declare w.2 else plan.scope? id := by
  rw [scope?, declare, List.getElem?_modify]
  split <;> simp [scope?]

/-- Declarations go to the end of the scopes they are made in, and change nothing else. -/
lemma scope?_declareAll (writes : List (Nat × String)) (id : Nat) :
    (plan.declareAll writes).scope? id
      = (plan.scope? id).map fun s =>
          { s with declarations := s.declarations ++ textsAt id writes } := by
  induction writes generalizing plan with
  | nil => simp [declareAll]
  | cons w writes ih =>
    have hstep : plan.declareAll (w :: writes) = (plan.declare w).declareAll writes := rfl
    rw [hstep, ih, scope?_declare, textsAt_cons]
    split
    · rw [Option.map_map]
      simp [Function.comp_def, Scope.declare, List.append_assoc]
    · rfl

@[simp] lemma size_declareAll (writes : List (Nat × String)) :
    (plan.declareAll writes).size = plan.size := by
  induction writes generalizing plan with
  | nil => rfl
  | cons w writes ih =>
    have hstep : plan.declareAll (w :: writes) = (plan.declare w).declareAll writes := rfl
    rw [hstep, ih, declare, size, size, List.length_modify]

@[simp] lemma heading?_declareAll (writes : List (Nat × String)) (id : Nat) :
    (plan.declareAll writes).heading? id = plan.heading? id := by
  rw [heading?, scope?_declareAll, Option.map_map]
  rfl

@[simp] lemma kind?_declareAll (writes : List (Nat × String)) (id : Nat) :
    (plan.declareAll writes).kind? id = plan.kind? id := by
  rw [kind?_eq, heading?_declareAll, kind?_eq]

@[simp] lemma fragment?_declareAll (writes : List (Nat × String)) (id : Nat) :
    (plan.declareAll writes).fragment? id = plan.fragment? id := by
  rw [fragment?_eq, heading?_declareAll, fragment?_eq]

@[simp] lemma parent?_declareAll (writes : List (Nat × String)) (id : Nat) :
    (plan.declareAll writes).parent? id = plan.parent? id := by
  rw [parent?_eq, heading?_declareAll, parent?_eq]

@[simp] lemma children_declareAll (writes : List (Nat × String)) (id : Nat) :
    (plan.declareAll writes).children id = plan.children id := by
  rw [children, scope?_declareAll, Option.map_map]
  rfl

@[simp] lemma child?_declareAll (writes : List (Nat × String)) (id : Nat) (key : String) :
    (plan.declareAll writes).child? id key = plan.child? id key := by
  rw [child?, scope?_declareAll, Option.bind_map]
  rfl

lemma declarations_declareAll {id : Nat} (hid : id < plan.size) (writes : List (Nat × String)) :
    (plan.declareAll writes).declarations id = plan.declarations id ++ textsAt id writes := by
  obtain ⟨s, hs⟩ := exists_scope hid
  rw [declarations, scope?_declareAll, declarations, hs]
  rfl

/-! ### Headings -/

/-- All scopes of a plan have headings of some property. -/
def ForallHeadings (P : Kind → String → Option Nat → Prop) (plan : Plan) : Prop :=
  ∀ id kind fragment parent, plan.heading? id = some (kind, fragment, parent) →
    P kind fragment parent

namespace ForallHeadings

variable {P : Kind → String → Option Nat → Prop}

lemma enter (h : plan.ForallHeadings P) {r : Request} (hr : P r.kind r.fragment (some r.host)) :
    (plan.enter r).ForallHeadings P := by
  cases hc : plan.child? r.host r.fragment with
  | some c => rwa [enter_of_some hc]
  | none =>
    intro id kind fragment parent hid
    rw [heading?_enter hc] at hid
    split at hid
    · cases hid
      exact hr
    · exact h id kind fragment parent hid

lemma declareAll (h : plan.ForallHeadings P) (writes : List (Nat × String)) :
    (plan.declareAll writes).ForallHeadings P := by
  intro id kind fragment parent hid
  rw [heading?_declareAll] at hid
  exact h id kind fragment parent hid

end ForallHeadings

/-! ### Extension -/

/-- A plan has all scopes of another, under the same numbers and with the same headings. -/
def Extends (plan later : Plan) : Prop :=
  plan.scopes.map Scope.heading <+: later.scopes.map Scope.heading

namespace Extends

variable {later last : Plan}

protected lemma refl (plan : Plan) : plan.Extends plan :=
  List.prefix_rfl

protected lemma trans (h₁ : plan.Extends later) (h₂ : later.Extends last) : plan.Extends last :=
  List.IsPrefix.trans h₁ h₂

lemma size_le (h : plan.Extends later) : plan.size ≤ later.size := by
  have hle := List.IsPrefix.length_le h
  rwa [List.length_map, List.length_map] at hle

lemma heading? (h : plan.Extends later) {id : Nat} (hid : id < plan.size) :
    later.heading? id = plan.heading? id := by
  have hget := List.prefix_iff_getElem?.1 h id (by rwa [List.length_map])
  rw [List.getElem?_map, List.getElem_map] at hget
  rw [Plan.heading?, Plan.scope?, hget, Plan.heading?, Plan.scope?, List.getElem?_eq_getElem hid]
  rfl

lemma kind? (h : plan.Extends later) {id : Nat} (hid : id < plan.size) :
    later.kind? id = plan.kind? id := by
  rw [kind?_eq, h.heading? hid, kind?_eq]

lemma fragment? (h : plan.Extends later) {id : Nat} (hid : id < plan.size) :
    later.fragment? id = plan.fragment? id := by
  rw [fragment?_eq, h.heading? hid, fragment?_eq]

lemma parent? (h : plan.Extends later) {id : Nat} (hid : id < plan.size) :
    later.parent? id = plan.parent? id := by
  rw [parent?_eq, h.heading? hid, parent?_eq]

end Extends

/-- Headings survive a change of a scope that keeps its heading. -/
lemma map_heading_modify {f : Scope → Scope} (hf : ∀ s, (f s).heading = s.heading)
    (scopes : List Scope) (id : Nat) :
    (scopes.modify id f).map Scope.heading = scopes.map Scope.heading := by
  refine List.ext_getElem? fun i => ?_
  rw [List.getElem?_map, List.getElem?_modify, List.getElem?_map]
  cases scopes[i]? with
  | none => rfl
  | some s =>
    by_cases hi : id = i
    · simp [hi, hf]
    · simp [hi]

lemma extends_enter (r : Request) : plan.Extends (plan.enter r) := by
  cases h : plan.child? r.host r.fragment with
  | some c => rw [enter_of_some h]; exact .refl plan
  | none =>
    rw [Extends, enter, h, List.map_append,
      map_heading_modify (f := fun s => s.adopt r.fragment plan.size) fun _ => rfl]
    exact List.prefix_append _ _

lemma extends_declareAll (writes : List (Nat × String)) :
    plan.Extends (plan.declareAll writes) := by
  induction writes generalizing plan with
  | nil => exact .refl plan
  | cons w writes ih =>
    have hsame := map_heading_modify (f := fun s => s.declare w.2) (fun _ => rfl) plan.scopes w.1
    have hstep : plan.Extends (plan.declare w) := ⟨[], (List.append_nil _).trans hsame.symm⟩
    exact hstep.trans ih

lemma extends_grant (request : Option Request) : plan.Extends (plan.grant request) := by
  cases request with
  | none => exact .refl plan
  | some r => exact extends_enter r

end Plan

end Stylesheet
