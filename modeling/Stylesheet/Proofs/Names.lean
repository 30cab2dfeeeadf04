/-
Names that could be taken for preludes.

* `Directive.names`, `Directive.bodies`: the names of mixins and the suffixes that a directive
  gives, and the bodies in it;
* `Descriptor.names`: the names of mixins and the suffixes in a descriptor, at any depth;
* `MediaQuery.IsPreludeLike`: a name begins as the prelude of a media block does;
* `Descriptor.AvoidsPreludes`: no name of a mixin and no suffix in a descriptor does;
* `AvoidsPreludes.of_classify`: what is avoided in a body is avoided in each of its directives.
-/
import Mathlib.Data.List.Infix
import Stylesheet.Proofs.Payload.Classification
import Stylesheet.Proofs.Payload.Paths

namespace Stylesheet

namespace Directive

/-- The names of mixins and the suffixes that a directive gives itself. -/
def names : Directive → List String
  | .mixins body => body.keys
  | .nested suffix _ => [suffix]
  | _ => []

/-- The bodies in a directive. -/
def bodies : Directive → List Descriptor
  | .mixins body => body.entries.filterMap fun e => e.2.block?
  | .media queries => queries.map (·.css)
  | .nested _ body => [body]
  | .member _ value => value.block?.toList
  | _ => []

end Directive

/-- The directives that the entries of a body are read as. -/
def Descriptor.directives (d : Descriptor) : List Directive :=
  d.entries.filterMap fun e => (Directive.classify e.1 e.2 "").toOption

/-! ### Weight -/

lemma Value.weight_lt_weightEntries {entries : List (String × Value)} {e : String × Value}
    (h : e ∈ entries) : e.2.weight < weightEntries entries := by
  induction entries with
  | nil => cases h
  | cons e' rest ih =>
    rw [weightEntries]
    rcases List.mem_cons.1 h with rfl | h
    · omega
    · have := ih h
      omega

lemma Payload.le_total {α : Type} (cost : α → Nat) {xs : List α} {x : α} (h : x ∈ xs) :
    cost x ≤ total cost xs := by
  induction xs with
  | nil => cases h
  | cons y ys ih =>
    rw [total]
    rcases List.mem_cons.1 h with rfl | h
    · exact Nat.le_add_right _ _
    · exact Nat.le_add_left_of_le (ih h)

lemma Directive.weight_lt_of_mem_bodies {dir : Directive} {b : Descriptor} (h : b ∈ dir.bodies) :
    b.weight < dir.weight := by
  cases dir with
  | mixins body =>
    obtain ⟨e, he, hb⟩ := List.mem_filterMap.1 h
    exact Nat.lt_trans (Value.weight_lt_of_block? hb) (Value.weight_lt_weightEntries he)
  | media queries =>
    obtain ⟨q, hq, rfl⟩ := List.mem_map.1 h
    have hle := Payload.le_total (fun q : MediaQuery => 2 + q.css.weight) hq
    rw [weight]
    omega
  | nested suffix body =>
    rw [List.mem_singleton.1 h, weight]
    exact Nat.lt_add_of_pos_left Nat.one_pos
  | member key value => exact Value.weight_lt_of_block? (Option.mem_toList.1 h)
  | _ => cases h

lemma Descriptor.weight_lt_of_mem_directives {d : Descriptor} {dir : Directive}
    (h : dir ∈ d.directives) : dir.weight < d.weight := by
  obtain ⟨e, he, hc⟩ := List.mem_filterMap.1 h
  exact Nat.lt_of_le_of_lt (Directive.weight_le_of_classify (toOption_eq_some.1 hc))
    (Value.weight_lt_weightEntries he)

/-! ### Names at any depth -/

/-- The names of mixins and the suffixes in a descriptor, at any depth. -/
def Descriptor.names (d : Descriptor) : List String :=
  d.directives.attach.flatMap fun dir =>
    dir.1.names ++ dir.1.bodies.attach.flatMap fun b => b.1.names
termination_by d.weight
decreasing_by
  exact Nat.lt_trans (Directive.weight_lt_of_mem_bodies b.2)
    (Descriptor.weight_lt_of_mem_directives dir.2)

lemma Descriptor.names_eq (d : Descriptor) :
    d.names = d.directives.flatMap fun dir => dir.names ++ dir.bodies.flatMap names := by
  rw [names]
  simp

namespace MediaQuery

/-- A name begins as preludes do. -/
def IsPreludeLike (name : String) : Prop :=
  "@media ".toList <+: name.toList
  deriving Decidable

lemma isPreludeLike_target (q : MediaQuery) : IsPreludeLike q.target := by
  rw [IsPreludeLike, target, prelude, String.toList_append]
  exact List.prefix_append _ _

/-- No class selector begins as preludes do. -/
lemma not_isPreludeLike_class (name : String) : ¬ IsPreludeLike ("." ++ name) := by
  rw [IsPreludeLike, String.toList_append]
  exact fun h => absurd (List.cons_prefix_cons.1 h).1 (by decide)

end MediaQuery

/-- No name of a mixin and no suffix in a descriptor begins as preludes do. -/
def Descriptor.AvoidsPreludes (d : Descriptor) : Prop :=
  ∀ name ∈ d.names, ¬ MediaQuery.IsPreludeLike name
  deriving Decidable

/-- No name of a mixin and no suffix in a directive begins as preludes do. -/
structure Directive.AvoidsPreludes (dir : Directive) : Prop where
  names : ∀ name ∈ dir.names, ¬ MediaQuery.IsPreludeLike name
  bodies : ∀ b ∈ dir.bodies, b.AvoidsPreludes

/-- What is avoided in a body is avoided in each of its directives. -/
lemma Descriptor.AvoidsPreludes.of_classify {d : Descriptor} (h : d.AvoidsPreludes)
    {e : String × Value} (he : e ∈ d.entries) {path : String} {dir : Directive}
    (hc : Directive.classify e.1 e.2 path = .ok dir) : dir.AvoidsPreludes := by
  have hdir : dir ∈ d.directives := by
    refine List.mem_filterMap.2 ⟨e, he, ?_⟩
    rw [Directive.classify_path hc ""]
    rfl
  have hnames : ∀ name ∈ dir.names ++ dir.bodies.flatMap names, name ∈ d.names := by
    intro name hn
    rw [names_eq]
    exact List.mem_flatMap.2 ⟨dir, hdir, hn⟩
  refine ⟨fun name hn => h name (hnames name (List.mem_append_left _ hn)), fun b hb name hn => ?_⟩
  exact h name (hnames name (List.mem_append_right _ (List.mem_flatMap.2 ⟨b, hb, hn⟩)))

end Stylesheet
