/-
Texts and integers in JSON, read back.

* `Json.readText_escape`, `readText_escapes`: a character and a text that were escaped are read as
  they were;
* `Json.Ends`: what can follow a value;
* `Json.takeDigits_digits`, `append_digits`: the digits of a number, and their value;
* `Json.read_natural`, `value_natural`: a number that was written in decimal;
* `Json.readNumber_integer`: an integer of 64 bits that was written in decimal is read as itself.
-/
import Mathlib.Tactic.Common
import Stylesheet.Json.Document
import Stylesheet.Json.Reader
import Stylesheet.Outcome

namespace Stylesheet.Json

/-! ### Texts -/

lemma hexDigit?_digitChar : ∀ n < 16, hexDigit? (Nat.digitChar n) = some n := by
  decide

/-- A code point below the space, by its four digits. -/
lemma readText_fourDigits {c : Char} (hc : c.toNat < 0x20) (rest : List Char) :
    readText .none ('\\' :: 'u' :: fourDigits c.toNat ++ rest)
      = andThen c (readText .none rest) := by
  have hzero : hexDigit? '0' = some 0 := rfl
  have hhigh := hexDigit?_digitChar (c.toNat / 16) (by omega)
  have hlow := hexDigit?_digitChar (c.toNat % 16) (by omega)
  have hcode : c.toNat / 16 * 16 + c.toNat % 16 = c.toNat := Nat.div_add_mod' c.toNat 16
  have hh : isHighSurrogate c.toNat = false := by
    simp only [isHighSurrogate, Bool.and_eq_false_iff, decide_eq_false_iff_not]
    omega
  have hl : isLowSurrogate c.toNat = false := by
    simp only [isLowSurrogate, Bool.and_eq_false_iff, decide_eq_false_iff_not]
    omega
  simp [fourDigits, readText, hzero, hhigh, hlow, hcode, hh, hl]

/-- A character that was escaped is read as it was. -/
lemma readText_escape (c : Char) (rest : List Char) :
    readText .none (escape c ++ rest) = andThen c (readText .none rest) := by
  unfold escape
  split
  case h_8 hquote hback _ _ _ _ _ =>
    split
    · rename_i hc
      exact readText_fourDigits hc rest
    · rename_i hc
      rw [List.singleton_append, readText, if_neg hquote, if_neg hback, if_neg hc]
  all_goals rfl

/-- A text that was escaped is read as it was, up to its closing quote. -/
lemma readText_escapes (cs rest : List Char) :
    readText .none (cs.flatMap escape ++ '"' :: rest) = .ok (cs, rest) := by
  induction cs with
  | nil => rfl
  | cons c cs ih => rw [List.flatMap_cons, List.append_assoc, readText_escape, ih, andThen]

lemma toList_textOf (s : String) :
    (textOf s).toList = '"' :: (s.toList.flatMap escape ++ ['"']) := by
  rw [textOf, String.toList_ofList]

/-! ### Integers -/

/-- What can follow a value: the end of the text, a comma or a closing bracket. -/
def Ends (rest : List Char) : Prop :=
  ∀ c ∈ rest.head?, c = ',' ∨ c = ']' ∨ c = '\x7d'

lemma ends_nil : Ends [] := by
  simp [Ends]

/-- The value of a decimal digit. -/
def digitOf (c : Char) : Nat :=
  c.toNat - '0'.toNat

lemma takeDigits_of_ends {rest : List Char} (h : Ends rest) : takeDigits rest = ([], rest) := by
  cases rest with
  | nil => rfl
  | cons c rest => rcases h c rfl with rfl | rfl | rfl <;> rfl

/-- Digits are taken up to the end. -/
lemma takeDigits_digits {cs rest : List Char} (hcs : ∀ c ∈ cs, c.isDigit = true) (h : Ends rest) :
    takeDigits (cs ++ rest) = (cs.map digitOf, rest) := by
  induction cs with
  | nil => exact takeDigits_of_ends h
  | cons c cs ih =>
    obtain ⟨hc, hcs⟩ := List.forall_mem_cons.1 hcs
    rw [List.cons_append, takeDigits, digit?, if_pos hc, ih hcs]
    rfl

lemma le_ofDigitChars (cs : List Char) (n : Nat) : n ≤ Nat.ofDigitChars 10 cs n := by
  induction cs generalizing n with
  | nil => exact Nat.le_refl n
  | cons c cs ih =>
    rw [Nat.ofDigitChars_cons]
    have h := ih (10 * n + (c.toNat - '0'.toNat))
    omega

/-- Digits of a number that is not too large all fit. -/
lemma append_digits {limit n : Nat} {cs : List Char} (h : Nat.ofDigitChars 10 cs n ≤ limit) :
    append limit n (cs.map digitOf) = (Nat.ofDigitChars 10 cs n, 0) := by
  induction cs generalizing n with
  | nil => rfl
  | cons c cs ih =>
    rw [Nat.ofDigitChars_cons, Nat.mul_comm] at h
    have hle := Nat.le_trans (le_ofDigitChars cs _) h
    rw [List.map_cons, append, digitOf, if_pos hle, ih h, Nat.ofDigitChars_cons, Nat.mul_comm 10 n]

lemma head_toDigits_ne_zero {n : Nat} (h : 0 < n) :
    ∃ c cs, Nat.toDigits 10 n = c :: cs ∧ c ≠ '0' := by
  induction n using Nat.base_induction 10 (by decide) with
  | single m hm =>
    refine ⟨m.digitChar, [], Nat.toDigits_of_lt_base hm, ?_⟩
    rw [ne_eq, Nat.digitChar_eq_zero]
    omega
  | digit m k hk hm ih =>
    obtain ⟨c, cs, hcs, hc⟩ := ih hm
    refine ⟨c, cs ++ Nat.toDigits 10 k, ?_, hc⟩
    rw [← Nat.toDigits_append_toDigits (by decide) hm hk, hcs, List.cons_append]

lemma needDigits_digits {cs rest : List Char} (hne : cs ≠ []) (hcs : ∀ c ∈ cs, c.isDigit = true)
    (h : Ends rest) : needDigits (cs ++ rest) = .ok (cs.map digitOf, rest) := by
  rw [needDigits, takeDigits_digits hcs h]
  cases cs with
  | nil => exact absurd rfl hne
  | cons c cs => rfl

/-- The digits of a number that was written in decimal. No other number than zero starts with the
digit for it. -/
lemma readWhole_toDigits (n : Nat) {rest : List Char} (h : Ends rest) :
    Numeral.readWhole (Nat.toDigits 10 n ++ rest)
      = .ok ((Nat.toDigits 10 n).map digitOf, rest) := by
  rcases Nat.eq_zero_or_pos n with rfl | hn
  · rw [Nat.toDigits_zero, List.singleton_append, Numeral.readWhole, takeDigits_of_ends h]
    rfl
  · have hdigits : ∀ c ∈ Nat.toDigits 10 n, c.isDigit = true := fun c hc =>
      Nat.isDigit_of_mem_toDigits (by decide) (by decide) hc
    have hneed := needDigits_digits Nat.toDigits_ne_nil hdigits h
    obtain ⟨c, cs, hcs, hc⟩ := head_toDigits_ne_zero hn
    rw [hcs, List.cons_append] at hneed ⊢
    unfold Numeral.readWhole
    split
    · rename_i heq
      cases heq
      exact absurd rfl hc
    · exact hneed

/-- A number that was written in decimal, with a sign or without one. -/
def decimal (negative : Bool) (n : Nat) : Numeral :=
  ⟨negative, (Nat.toDigits 10 n).map digitOf, [], none⟩

lemma readFraction_of_ends {rest : List Char} (h : Ends rest) :
    Numeral.readFraction rest = .ok ([], rest) := by
  cases rest with
  | nil => rfl
  | cons c rest => rcases h c rfl with rfl | rfl | rfl <;> rfl

lemma readExponent_of_ends {rest : List Char} (h : Ends rest) :
    Numeral.readExponent rest = .ok (none, rest) := by
  cases rest with
  | nil => rfl
  | cons c rest => rcases h c rfl with rfl | rfl | rfl <;> rfl

lemma read_negative (n : Nat) {rest : List Char} (h : Ends rest) :
    Numeral.read ('-' :: (Nat.toDigits 10 n ++ rest)) = .ok (decimal true n, rest) := by
  have hwhole := readWhole_toDigits n h
  refine bind_eq_ok.2 ⟨_, hwhole, ?_⟩
  exact bind_eq_ok.2 ⟨_, readFraction_of_ends h, bind_eq_ok.2 ⟨_, readExponent_of_ends h, rfl⟩⟩

lemma read_natural (n : Nat) {rest : List Char} (h : Ends rest) :
    Numeral.read (Nat.toDigits 10 n ++ rest) = .ok (decimal false n, rest) := by
  have hwhole := readWhole_toDigits n h
  obtain ⟨c, cs, hcs⟩ := List.exists_cons_of_ne_nil (Nat.toDigits_ne_nil (n := n) (b := 10))
  have hc : c ≠ '-' := by
    rintro rfl
    have hd := Nat.isDigit_of_mem_toDigits (b := 10) (n := n) (c := '-') (by decide) (by decide)
      (hcs ▸ List.mem_cons_self)
    cases hd
  rw [hcs, List.cons_append] at hwhole ⊢
  simp only [Numeral.read]
  split
  · rename_i heq
    exact absurd (List.cons.inj heq).1 hc
  · refine bind_eq_ok.2 ⟨_, hwhole, ?_⟩
    refine bind_eq_ok.2 ⟨_, readFraction_of_ends h, bind_eq_ok.2 ⟨_, readExponent_of_ends h, ?_⟩⟩
    rw [decimal, hcs]

lemma append_toDigits {n : Nat} (h : n ≤ maxSignificand) :
    append maxSignificand 0 ((Nat.toDigits 10 n).map digitOf) = (n, 0) := by
  have hle : Nat.ofDigitChars 10 (Nat.toDigits 10 n) 0 ≤ maxSignificand := by
    rwa [Nat.ofDigitChars_ten_toDigits]
  rw [append_digits hle, Nat.ofDigitChars_ten_toDigits]

lemma value_natural {n : Nat} (h : n ≤ maxSignificand) :
    (decimal false n).value = .ok (.integer n) := by
  have hint : (decimal false n).integer? = some (n : Int) := by
    simp [Numeral.integer?, decimal, append_toDigits h]
  rw [Numeral.value, hint]

lemma value_negative {n : Nat} (hn : 0 < n) (h : n ≤ Nat.pow 2 63) :
    (decimal true n).value = .ok (.integer (-n)) := by
  have hle : n ≤ maxSignificand := Nat.le_trans h (by decide)
  have hint : (decimal true n).integer? = some (-(n : Int)) := by
    simp [Numeral.integer?, decimal, append_toDigits hle, hn, h]
  rw [Numeral.value, hint]

/-- An integer that was written in decimal is read as itself, if it is one of 64 bits. -/
lemma readNumber_integer {n : Int} (hlow : -(Nat.pow 2 63 : Int) ≤ n)
    (hhigh : n < (Nat.pow 2 63 : Int)) {rest : List Char} (h : Ends rest) :
    readNumber ((toString n).toList ++ rest) = .ok (.integer n, rest) := by
  rw [Int.toString_eq_repr, Int.repr_eq_if]
  split
  · rename_i hn
    obtain ⟨m, rfl⟩ := Int.eq_ofNat_of_zero_le hn
    have hm : m ≤ maxSignificand := by
      have hle : Nat.pow 2 63 ≤ maxSignificand := by decide
      omega
    rw [Int.toNat_natCast, Nat.toList_repr]
    refine bind_eq_ok.2 ⟨_, read_natural m h, ?_⟩
    dsimp only
    rw [value_natural hm]
  · obtain ⟨m, hm⟩ := Int.eq_ofNat_of_zero_le (a := -n) (by omega)
    obtain rfl : n = -(m : Int) := by omega
    rw [Int.neg_neg, Int.toNat_natCast, String.toList_append, Nat.toList_repr, List.append_assoc]
    refine bind_eq_ok.2 ⟨_, read_negative m h, ?_⟩
    dsimp only
    rw [value_negative (by omega) (by omega)]

end Stylesheet.Json
