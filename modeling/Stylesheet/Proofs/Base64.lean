/-
Base64 text, read back.

* `Base64.value?`: the value of a symbol;
* `Base64.decode?`: the bytes of a text. A group that is filled up must be the last one, and the
  bits that the fill stands for must be zero;
* `Base64.decode?_encodeBytes`: the bytes of an encoded text are those that were encoded;
* `Base64.encodeText_injective`: different texts have different codes;
* `Base64.length_encodeBytes`, `mem_encodeBytes`: how long a code is, and of which symbols;
* `Directive.isReservedKey_encodeText`: no code is a reserved key.
-/
import Mathlib.Logic.Function.Basic
import Mathlib.Tactic.Common
import Stylesheet.Proofs.Payload.Classification
import Stylesheet.Text.Base64

namespace Stylesheet

namespace Base64

/-! ### Decoding -/

/-- The value of a symbol. -/
def value? (c : Char) : Option Nat :=
  alphabet.findIdx? (· == c)

/-- The bytes of a group of four symbols: three of them, or fewer where the group is filled up. -/
def decodeGroup? (a b c d : Char) : Option (List UInt8) :=
  if d = pad then
    if c = pad then do
      let n := 64 * (← value? a) + (← value? b)
      if n % 16 = 0 then some [.ofNat (n / 16)] else none
    else do
      let n := 4096 * (← value? a) + 64 * (← value? b) + (← value? c)
      if n % 4 = 0 then some [.ofNat (n / 1024), .ofNat (n / 4)] else none
  else do
    let n := 262144 * (← value? a) + 4096 * (← value? b) + 64 * (← value? c) + (← value? d)
    some [.ofNat (n / 65536), .ofNat (n / 256), .ofNat n]

/-- The bytes of a text. Only the last group may be filled up. -/
def decode? : List Char → Option (List UInt8)
  | [] => some []
  | a :: b :: c :: d :: rest => do
    let bytes ← decodeGroup? a b c d
    let others ← decode? rest
    if d = pad ∧ rest ≠ [] then none else some (bytes ++ others)
  | _ => none

/-! ### Symbols -/

@[simp] lemma length_alphabet : alphabet.length = 64 := by decide +kernel

lemma symbol_eq (n : Nat) : ∃ h : n % 64 < alphabet.length, symbol n = alphabet[n % 64] := by
  have h : n % 64 < alphabet.length := by
    rw [length_alphabet]
    exact Nat.mod_lt _ (by decide)
  refine ⟨h, ?_⟩
  rw [symbol, List.getD_eq_getElem?_getD, List.getElem?_eq_getElem h, Option.getD_some]

@[simp] lemma value?_symbol (n : Nat) : value? (symbol n) = some (n % 64) := by
  obtain ⟨h, hs⟩ := symbol_eq n
  have hall : alphabet.map value? = (List.range 64).map some := by decide +kernel
  have hget := List.getElem_of_eq hall (i := n % 64) (by rwa [List.length_map])
  rw [List.getElem_map, List.getElem_map, List.getElem_range] at hget
  rw [hs, hget]

lemma symbol_mem_alphabet (n : Nat) : symbol n ∈ alphabet := by
  obtain ⟨h, hs⟩ := symbol_eq n
  rw [hs]
  exact List.getElem_mem h

lemma pad_notMem_alphabet : pad ∉ alphabet := by decide +kernel

@[simp] lemma symbol_ne_pad (n : Nat) : symbol n ≠ pad :=
  fun h => pad_notMem_alphabet (h ▸ symbol_mem_alphabet n)

/-! ### Groups -/

lemma ofNat_eq {b : UInt8} {n : Nat} (h : n % 256 = b.toNat) : UInt8.ofNat n = b :=
  UInt8.toNat_inj.1 (UInt8.toNat_ofNat'.trans h)

section

variable {p q r s : Char} {x y z w : Nat} (hp : value? p = some x) (hq : value? q = some y)

include hp hq

lemma decodeGroup?_one {a : UInt8} (hn : 64 * x + y = a.toNat * 16) :
    decodeGroup? p q pad pad = some [a] := by
  have ha : UInt8.ofNat (a.toNat * 16 / 16) = a := ofNat_eq (by have := a.toNat_lt; omega)
  simp [decodeGroup?, hp, hq, hn]

lemma decodeGroup?_two {a b : UInt8} (hr : value? r = some z) (hpad : r ≠ pad)
    (hn : 4096 * x + 64 * y + z = (a.toNat * 256 + b.toNat) * 4) :
    decodeGroup? p q r pad = some [a, b] := by
  have ha := a.toNat_lt
  have hb := b.toNat_lt
  have h₁ : UInt8.ofNat ((a.toNat * 256 + b.toNat) * 4 / 1024) = a := ofNat_eq (by omega)
  have h₂ : UInt8.ofNat ((a.toNat * 256 + b.toNat) * 4 / 4) = b := ofNat_eq (by omega)
  simp only [decodeGroup?, if_true, if_neg hpad, hp, hq, hr, hn, h₁, h₂, Nat.mul_mod_left,
    Option.bind_eq_bind, Option.bind_some]

lemma decodeGroup?_three {a b c : UInt8} (hr : value? r = some z) (hs : value? s = some w)
    (hpad : s ≠ pad)
    (hn : 262144 * x + 4096 * y + 64 * z + w = a.toNat * 65536 + b.toNat * 256 + c.toNat) :
    decodeGroup? p q r s = some [a, b, c] := by
  have ha := a.toNat_lt
  have hb := b.toNat_lt
  have hc := c.toNat_lt
  have h₁ : UInt8.ofNat ((a.toNat * 65536 + b.toNat * 256 + c.toNat) / 65536) = a :=
    ofNat_eq (by omega)
  have h₂ : UInt8.ofNat ((a.toNat * 65536 + b.toNat * 256 + c.toNat) / 256) = b :=
    ofNat_eq (by omega)
  have h₃ : UInt8.ofNat (a.toNat * 65536 + b.toNat * 256 + c.toNat) = c := ofNat_eq (by omega)
  simp only [decodeGroup?, if_neg hpad, hp, hq, hr, hs, hn, h₁, h₂, h₃, Option.bind_eq_bind,
    Option.bind_some]

end

/-! ### Codes -/

/-- The bytes of a code are those that were encoded. -/
lemma decode?_encodeBytes (bytes : List UInt8) : decode? (encodeBytes bytes) = some bytes := by
  induction bytes using encodeBytes.induct with
  | case1 => rfl
  | case2 a =>
    have ha := a.toNat_lt
    have hgroup := decodeGroup?_one (a := a) (value?_symbol (a.toNat * 65536 / 262144))
      (value?_symbol (a.toNat * 65536 / 4096)) (by omega)
    simp [encodeBytes, decode?, hgroup]
  | case3 a b =>
    have ha := a.toNat_lt
    have hb := b.toNat_lt
    generalize hn : a.toNat * 65536 + b.toNat * 256 = n
    have hgroup := decodeGroup?_two (a := a) (b := b) (value?_symbol (n / 262144))
      (value?_symbol (n / 4096)) (value?_symbol (n / 64)) (symbol_ne_pad _) (by omega)
    simp [encodeBytes, decode?, hn, hgroup]
  | case4 a b c rest ih =>
    have ha := a.toNat_lt
    generalize hn : a.toNat * 65536 + b.toNat * 256 + c.toNat = n
    have hb := b.toNat_lt
    have hc := c.toNat_lt
    have hgroup := decodeGroup?_three (a := a) (b := b) (c := c) (value?_symbol (n / 262144))
      (value?_symbol (n / 4096)) (value?_symbol (n / 64)) (value?_symbol n) (symbol_ne_pad _)
      (by omega)
    simp [encodeBytes, decode?, hn, hgroup, ih]

/-- A code has four symbols for every three bytes that were begun. -/
lemma length_encodeBytes (bytes : List UInt8) :
    (encodeBytes bytes).length = 4 * ((bytes.length + 2) / 3) := by
  induction bytes using encodeBytes.induct with
  | case1 => rfl
  | case2 a => simp [encodeBytes]
  | case3 a b => simp [encodeBytes]
  | case4 a b c rest ih =>
    simp only [encodeBytes, List.length_cons, ih]
    omega

/-- A code is made of the symbols and the fill. -/
lemma mem_encodeBytes {bytes : List UInt8} {c : Char} (h : c ∈ encodeBytes bytes) :
    c ∈ alphabet ∨ c = pad := by
  induction bytes using encodeBytes.induct with
  | case1 => cases h
  | case2 a =>
    simp only [encodeBytes, List.mem_cons, List.not_mem_nil, or_false] at h
    rcases h with rfl | rfl | rfl | rfl <;> simp [symbol_mem_alphabet]
  | case3 a b =>
    simp only [encodeBytes, List.mem_cons, List.not_mem_nil, or_false] at h
    rcases h with rfl | rfl | rfl | rfl <;> simp [symbol_mem_alphabet]
  | case4 a b c rest ih =>
    simp only [encodeBytes, List.mem_cons] at h
    rcases h with rfl | rfl | rfl | rfl | h
    · exact .inl (symbol_mem_alphabet _)
    · exact .inl (symbol_mem_alphabet _)
    · exact .inl (symbol_mem_alphabet _)
    · exact .inl (symbol_mem_alphabet _)
    · exact ih h

/-- Different texts have different codes. -/
lemma encodeText_injective : Function.Injective encodeText := by
  intro s t h
  have hbytes := congrArg (fun code => decode? code.toList) h
  simp only [encodeText, encode, String.toList_ofList, decode?_encodeBytes, Option.some.injEq]
    at hbytes
  exact String.toByteArray_inj.1 (ByteArray.ext (Array.ext' hbytes))

end Base64

/-- No code is a reserved key: the lengths of codes are multiples of four, and `&` is no symbol. -/
lemma Directive.isReservedKey_encodeText (s : String) :
    isReservedKey (Base64.encodeText s) = false := by
  refine isReservedKey_eq_false.2 ⟨ofKey?_eq_none.2 fun hkey => ?_,
    nestingSuffix?_eq_none.2 fun hmark => ?_⟩
  · obtain ⟨reserved, _, hkey⟩ := List.mem_map.1 hkey
    have hlen := congrArg (fun key => key.toList.length % 4) hkey
    simp only [Base64.encodeText, Base64.encode, String.toList_ofList, Base64.length_encodeBytes,
      Nat.mul_mod_right] at hlen
    cases reserved <;> exact absurd hlen (by decide)
  · rw [Base64.encodeText, Base64.encode, String.toList_ofList] at hmark
    have hm := Base64.mem_encodeBytes (List.mem_of_mem_head? hmark)
    exact absurd hm (by decide +kernel)

end Stylesheet
