/-
The declarations of a scope are those of the bodies that were opened in it.

* `Step.dueAt`: the declarations that a step still has to make in a scope by itself;
* `Step.openedAt`: those of the body that a step opens in a scope;
* `Orderly.journal_perm`: what a finished run declares in a scope is what was due there, and what
  the bodies declare that it opened there.
-/
import Mathlib.Data.List.Perm.Basic
import Stylesheet.Proofs.Build.Conservation
import Stylesheet.Proofs.Build.Orderly

namespace Stylesheet

namespace Step

open Plan

variable {seed : Seed} {plan : Plan} {step : Step} {more : List Step}
  {writes : List (Nat × String)} {id : Nat}

/-- The declarations that a step has to make in a scope, but for those of a body that it opens. -/
def dueAt (id : Nat) : Step → List String
  | .entry i _ key value => if i = id then Directive.entryTexts key value else []
  | .override i mapping => if i = id then Directive.overrideTexts mapping else []
  | _ => []

/-- The declarations of the body that a step opens in a scope. -/
def openedAt (id : Nat) (plan : Plan) : Step → List String
  | .scope r _ body => if plan.answer r = id then body.ownTexts else []
  | _ => []

lemma flatMap_dueAt_ofBody (i : Nat) (path : String) (body : Descriptor) :
    (ofBody i path body).flatMap (dueAt id) = if i = id then body.ownTexts else [] := by
  rw [ofBody, List.flatMap_map, Descriptor.ownTexts]
  split
  · rename_i hi
    exact List.flatMap_congr fun e _ => if_pos hi
  · rename_i hi
    rw [List.flatMap_eq_nil_iff]
    exact fun e _ => if_neg hi

/-- What a directive declares and leaves to be declared in a scope under the root is what its entry
had to declare there. -/
lemma DirectiveDoes.dueAt {i : Nat} {path : String} {d : Directive} (h : plan.Rooted) (hid : id ≠ 0)
    (hd : DirectiveDoes seed plan i path d writes more) :
    textsAt id writes ++ more.flatMap (dueAt id) = if i = id then d.ownTexts else [] := by
  have hnone : ∀ texts : List String, texts = [] → texts = if i = id then [] else [] :=
    fun texts ht => ht.trans (ite_self _).symm
  cases hd with
  | atRules hh =>
    obtain rfl := h.globalHost_eq_zero hh
    refine hnone _ ?_
    rw [List.flatMap_nil, List.append_nil]
    refine textsAt_eq_nil fun w hm => ?_
    obtain ⟨rule, _, rfl⟩ := List.mem_map.1 hm
    exact Ne.symm hid
  | keyframes hh =>
    refine hnone _ (List.flatMap_eq_nil_iff.2 fun s hs => ?_)
    obtain ⟨rule, _, rfl⟩ := List.mem_map.1 hs
    rfl
  | mixins hh =>
    refine hnone _ (List.flatMap_eq_nil_iff.2 fun s hs => ?_)
    obtain ⟨e, _, rfl⟩ := List.mem_map.1 hs
    rfl
  | media hh =>
    refine hnone _ (List.flatMap_eq_nil_iff.2 fun s hs => ?_)
    obtain ⟨_, _, rfl⟩ := eq_query_of_mem_ofQueries hs
    rfl
  | overrides =>
    rw [textsAt_nil, List.nil_append, List.flatMap_map, Directive.ownTexts]
    split
    · rename_i hi
      exact List.flatMap_congr fun m _ => if_pos hi
    · rename_i hi
      rw [List.flatMap_eq_nil_iff]
      exact fun m _ => if_neg hi
  | nested => exact hnone _ rfl
  | rule hk hb =>
    rw [Directive.ownTexts, Value.literal?_of_block? hb]
    exact hnone _ rfl
  | declaration hk hl =>
    rw [textsAt_cons, Directive.ownTexts, hl, List.flatMap_nil, List.append_nil]
    rfl

/-- What a step declares and leaves to be declared in a scope under the root is what it had to
declare there, and what the body declares that it opens there. -/
lemma Does.dueAt (h : plan.Rooted) (hs : step.Regular) (hid : id ≠ 0)
    (hd : Does seed plan step writes more) :
    textsAt id writes ++ more.flatMap (dueAt id) = step.dueAt id ++ step.openedAt id plan := by
  cases hd with
  | absentEntry ha =>
    rw [Step.dueAt, Directive.entryTexts_of_isAbsent ha, ite_self]
    rfl
  | entry ha hc hd =>
    rw [hd.dueAt h hid, Step.dueAt, Directive.entryTexts_of_classify hc]
    exact (List.append_nil _).symm
  | keyframes hr =>
    have hne : ¬ _ = id := hs ▸ Ne.symm hid
    rw [textsAt_cons, if_neg hne]
    rfl
  | override ht =>
    rw [Step.dueAt, Directive.overrideTexts_of_textOf ht]
    split
    · rw [ite_self]
      rfl
    · rw [textsAt_cons, textsAt_nil]
      exact (List.append_nil _).trans (List.append_nil _).symm
  | absentMixin ha => rfl
  | mixin hb => rfl
  | query => rfl
  | scope =>
    rw [textsAt_nil, flatMap_dueAt_ofBody]
    rfl

end Step

namespace Plan

open scoped List

variable {seed : Seed} {plan final : Plan} {agenda : List Step} {d : Descriptor} {id : Nat}

/-- A finished run declares in a scope under the root what was due there, and what the bodies
declare that it opens there. -/
lemma Orderly.journal_perm (h : Orderly agenda plan) (hid : id ≠ 0)
    (hrun : run seed agenda plan = .ok final) :
    (textsAt id (journal seed agenda plan)).Perm
      (agenda.flatMap (Step.dueAt id)
        ++ (trace seed agenda plan).flatMap fun e => e.2.openedAt id e.1) := by
  induction agenda, plan using run_induction seed with
  | nil plan => rw [journal_nil, trace_nil, textsAt_nil, List.flatMap_nil, List.flatMap_nil,
      List.append_nil]
  | refused step rest plan e he =>
    rw [run_refused he] at hrun
    cases hrun
  | performed step rest plan writes more he hd ih =>
    rw [run_performed he] at hrun
    have hstep := hd.dueAt h.rooted (h.regular step List.mem_cons_self) hid
    have hrest := ih (h.performed hd) hrun
    rw [List.flatMap_append, List.append_assoc] at hrest
    rw [journal_performed he, textsAt_append, trace_performed he, List.flatMap_cons,
      List.flatMap_cons]
    set pending := rest.flatMap (Step.dueAt id)
    set opened := (trace seed (more ++ rest) (plan.after step writes)).flatMap
      fun e => e.2.openedAt id e.1
    calc textsAt id writes ++ textsAt id (journal seed (more ++ rest) (plan.after step writes))
      _ ~ textsAt id writes ++ (more.flatMap (Step.dueAt id) ++ (pending ++ opened)) :=
          hrest.append_left _
      _ = step.dueAt id ++ (step.openedAt id plan ++ (pending ++ opened)) := by
          rw [← List.append_assoc, hstep, List.append_assoc]
      _ ~ step.dueAt id ++ (pending ++ (step.openedAt id plan ++ opened)) :=
          (List.perm_append_comm_assoc _ _ _).append_left _
      _ = step.dueAt id ++ pending ++ (step.openedAt id plan ++ opened) :=
          (List.append_assoc _ _ _).symm

/-- The declarations of a scope under the root are those of the bodies that were opened in it. -/
lemma declarations_perm_opened (h : ofDescriptor d seed = .ok final) (hid : id ≠ 0) :
    (final.declarations id).Perm
      ((trace seed (Step.ofBody 0 "" d) empty).flatMap fun e => e.2.openedAt id e.1) := by
  have hperm := (Orderly.build d).journal_perm hid (ofDescriptor_eq_ok.1 h)
  rw [Step.flatMap_dueAt_ofBody, if_neg (Ne.symm hid), List.nil_append] at hperm
  rw [declarations_of_ofDescriptor h]
  exact hperm

end Plan

end Stylesheet
