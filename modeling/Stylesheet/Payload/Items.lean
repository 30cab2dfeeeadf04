/-
Lists of payload items.

* `Payload.readItems`: reads the items of a list in order; absent items are skipped but counted, so
  that a path names the item at the position where it was written;
* `Payload.readList`: reads a value that must be a list;
* `Payload.total`: the costs of all items of a list.
-/
import Stylesheet.CompileError
import Stylesheet.Outcome
import Stylesheet.Path

namespace Stylesheet.Payload

/-- Reads each item that is there, from position `i` on. The first item at fault decides. -/
def readItems {ε α : Type} (read : Value → String → Except ε α) (path : String) :
    Nat → List Value → Except ε (List α)
  | _, [] => .ok []
  | i, v :: rest =>
    if v.isAbsent then readItems read path (i + 1) rest
    else do
      let x ← read v (Path.item path i)
      let xs ← readItems read path (i + 1) rest
      .ok (x :: xs)

/-- Reads the items of a value that must be a list, as the given part of a payload. -/
def readList {α : Type} (part : Part) (read : Value → String → Except Fault α) (value : Value)
    (path : String) : Except Fault (List α) :=
  match value.list? with
  | some items => readItems read path 0 items
  | none => .error ⟨path, .misshapen part value.shape⟩

/-- The costs of all items. -/
def total {α : Type} (cost : α → Nat) : List α → Nat
  | [] => 0
  | x :: xs => cost x + total cost xs

/-- At one each, the items cost as many as they are. -/
theorem total_one {α : Type} (xs : List α) : total (fun _ => 1) xs = xs.length := by
  induction xs with
  | nil => rfl
  | cons x xs ih => rw [total, ih, List.length_cons, Nat.add_comm]

/-- What bounds every item that was read bounds all of them. -/
theorem total_le_weightItems_of_readItems {ε α : Type} {read : Value → String → Except ε α}
    (cost : α → Nat) (hcost : ∀ v path x, read v path = .ok x → cost x ≤ 1 + v.weight)
    {path : String} {i : Nat} {items : List Value} {xs : List α}
    (h : readItems read path i items = .ok xs) :
    total cost xs ≤ Value.weightItems items := by
  induction items generalizing i xs with
  | nil =>
    cases h
    exact Nat.zero_le _
  | cons v rest ih =>
    rw [readItems] at h
    rw [Value.weightItems]
    split at h
    · have h₁ := ih h
      omega
    · obtain ⟨x, hx, h⟩ := bind_eq_ok.1 h
      obtain ⟨ys, hys, h⟩ := bind_eq_ok.1 h
      cases h
      have h₁ := hcost v _ x hx
      have h₂ := ih hys
      rw [total]
      omega

/-- So it does where all of them were read from one value. -/
theorem total_le_weight_of_readList {α : Type} {part : Part}
    {read : Value → String → Except Fault α} (cost : α → Nat)
    (hcost : ∀ v path x, read v path = .ok x → cost x ≤ 1 + v.weight) {value : Value}
    {path : String} {xs : List α} (h : readList part read value path = .ok xs) :
    total cost xs ≤ value.weight := by
  rw [readList] at h
  cases value with
  | list items =>
    have h₁ := total_le_weightItems_of_readItems cost hcost h
    rw [Value.weight]
    omega
  | _ => cases h

end Stylesheet.Payload
