/-
Computations that may be refused.

* `bind_eq_ok`: a computation in two parts comes to a result exactly when both parts do;
* `bind_eq_error`: it is refused exactly when one of them is, the first part before the second;
* `exists_bind_iff`, `exists_bind_bind_iff`: what goes on without a refusal comes to a result
  exactly when what comes before does;
* `exists_ok_of_any`: a computation whose result was tested comes to a result that passes the test;
* `exists_error_of_isNone`: a computation without a result is refused;
* `toOption_eq_some`: a computation has the result that it comes to;
* `toOption_bind`: the result of two parts is that of the second part after the first.
-/

namespace Stylesheet

variable {ε α β γ : Type}

/-- Two parts come to a result exactly when both do. -/
theorem bind_eq_ok {x : Except ε α} {f : α → Except ε β} {b : β} :
    x >>= f = .ok b ↔ ∃ a, x = .ok a ∧ f a = .ok b := by
  cases x with
  | error e => simp [bind, Except.bind]
  | ok a => simp [bind, Except.bind]

/-- Two parts are refused exactly when the first is, or the second is after it. -/
theorem bind_eq_error {x : Except ε α} {f : α → Except ε β} {e : ε} :
    x >>= f = .error e ↔ x = .error e ∨ ∃ a, x = .ok a ∧ f a = .error e := by
  cases x with
  | error e => simp [bind, Except.bind]
  | ok a => simp [bind, Except.bind]

/-- What goes on without a refusal comes to a result exactly when what comes before does. -/
theorem exists_bind_iff {x : Except ε α} {f : α → β} :
    (∃ b, (x >>= fun a => Except.ok (f a)) = .ok b) ↔ ∃ a, x = .ok a := by
  constructor
  · rintro ⟨b, h⟩
    obtain ⟨a, ha, _⟩ := bind_eq_ok.1 h
    exact ⟨a, ha⟩
  · rintro ⟨a, ha⟩
    exact ⟨f a, bind_eq_ok.2 ⟨a, ha, rfl⟩⟩

/-- Two results that are put together without a refusal are there exactly when both are. -/
theorem exists_bind_bind_iff {x : Except ε α} {y : Except ε β} {f : α → β → γ} :
    (∃ c, (x >>= fun a => y >>= fun b => Except.ok (f a b)) = .ok c)
      ↔ (∃ a, x = .ok a) ∧ ∃ b, y = .ok b := by
  constructor
  · rintro ⟨c, h⟩
    obtain ⟨a, ha, h⟩ := bind_eq_ok.1 h
    exact ⟨⟨a, ha⟩, exists_bind_iff.1 ⟨c, h⟩⟩
  · rintro ⟨⟨a, ha⟩, b, hb⟩
    exact ⟨f a b, bind_eq_ok.2 ⟨a, ha, bind_eq_ok.2 ⟨b, hb, rfl⟩⟩⟩

/-- A computation whose result was tested comes to a result that passes the test. -/
theorem exists_ok_of_any {x : Except ε α} {p : α → Bool} (h : x.toOption.any p = true) :
    ∃ a, x = .ok a ∧ p a = true := by
  cases x with
  | error e => cases h
  | ok a => exact ⟨a, rfl, h⟩

/-- A computation without a result is refused. -/
theorem exists_error_of_isNone {x : Except ε α} (h : x.toOption.isNone = true) :
    ∃ e, x = .error e := by
  cases x with
  | error e => exact ⟨e, rfl⟩
  | ok a => cases h

/-- A computation has the result that it comes to, and no other. -/
theorem toOption_eq_some {x : Except ε α} {a : α} : x.toOption = some a ↔ x = .ok a := by
  cases x with
  | error e => simp [Except.toOption]
  | ok b => simp [Except.toOption]

/-- The result of two parts is that of the second part after the first, if both come to one. -/
theorem toOption_bind (x : Except ε α) (f : α → Except ε β) :
    (x >>= f).toOption = x.toOption.bind fun a => (f a).toOption := by
  cases x with
  | error e => rfl
  | ok a => rfl

end Stylesheet
