/-
Base64 texts are exact, and so are the class names behind a key.

* `Base64.tableValue?`, `value?_eq_tableValue?`: the values of the symbols by the standard table;
* `Base64.exists_symbols`: a code is made of symbols, filled up at its end;
* `Base64.encodeBytes_one`, `encodeBytes_two`, `encodeBytes_three`: the bits of a group are put
  together again;
* `Base64.encodeBytes_of_decodeGroup?`, `decode?_eq_some_iff`: the texts that can be decoded are the
  codes, each for its own bytes;
* `Base64.encode_exact`: length, symbols and fill of a code, decoding, and different class names for
  different rules behind one key.
-/
import Mathlib.Data.List.Basic
import Stylesheet.Proofs.Base64
import Stylesheet.Seed

namespace Stylesheet

namespace Base64

/-! ### The table -/

/-- The value of a symbol by the standard table: capitals, small letters, digits, plus and slash. -/
def tableValue? (c : Char) : Option Nat :=
  if 'A' ≤ c ∧ c ≤ 'Z' then some (c.toNat - 'A'.toNat)
  else if 'a' ≤ c ∧ c ≤ 'z' then some (c.toNat - 'a'.toNat + 26)
  else if '0' ≤ c ∧ c ≤ '9' then some (c.toNat - '0'.toNat + 52)
  else if c = '+' then some 62
  else if c = '/' then some 63
  else none

lemma lt_of_tableValue? {c : Char} (h : (tableValue? c).isSome = true) : c.toNat < 128 := by
  have hle : ∀ d : Char, d.toNat < 128 → c ≤ d → c.toNat < 128 := fun d hd hcd =>
    Nat.lt_of_le_of_lt (Char.le_def.1 hcd) hd
  unfold tableValue? at h
  split_ifs at h with hcapital hsmall hdigit hplus hslash
  · exact hle 'Z' (by decide) hcapital.2
  · exact hle 'z' (by decide) hsmall.2
  · exact hle '9' (by decide) hdigit.2
  · exact hle '+' (by decide) (hplus ▸ Char.le_refl c)
  · exact hle '/' (by decide) (hslash ▸ Char.le_refl c)
  · cases h

lemma mem_alphabet_of_tableValue? {c : Char} (h : (tableValue? c).isSome = true) :
    c ∈ alphabet := by
  have hall : ∀ n < 128, (tableValue? (Char.ofNat n)).isSome = true → Char.ofNat n ∈ alphabet := by
    decide +kernel
  have hc := hall c.toNat (lt_of_tableValue? h)
  rw [Char.ofNat_toNat] at hc
  exact hc h

/-- The place of a symbol in the alphabet is its value by the table. -/
lemma value?_eq_tableValue? (c : Char) : value? c = tableValue? c := by
  by_cases hc : c ∈ alphabet
  · have hall : alphabet.map value? = alphabet.map tableValue? := by decide +kernel
    exact List.map_inj_left.1 hall c hc
  · have hnone : tableValue? c = none := by
      rw [← Option.isNone_iff_eq_none, ← Option.isSome_eq_false_iff]
      exact Bool.eq_false_iff.2 fun h => hc (mem_alphabet_of_tableValue? h)
    rw [hnone, value?, List.findIdx?_eq_none_iff]
    exact fun d hd => beq_eq_false_iff_ne.2 fun heq => hc (heq ▸ hd)

/-! ### Symbols and fill -/

/-- The number of bytes that the last group of a sequence lacks: none, one or two. -/
def lacking (n : Nat) : Nat :=
  (3 - n % 3) % 3

/-- A code is made of symbols, and of fill for the bytes that its last group lacks. -/
lemma exists_symbols (bytes : List UInt8) :
    ∃ symbols, (∀ c ∈ symbols, c ∈ alphabet)
      ∧ encodeBytes bytes = symbols ++ List.replicate (lacking bytes.length) pad := by
  induction bytes using encodeBytes.induct with
  | case1 => exact ⟨[], List.forall_mem_nil _, rfl⟩
  | case2 a =>
    refine ⟨[_, _], ?_, rfl⟩
    simp [symbol_mem_alphabet]
  | case3 a b =>
    refine ⟨[_, _, _], ?_, rfl⟩
    simp [symbol_mem_alphabet]
  | case4 a b c rest ih =>
    obtain ⟨symbols, hsymbols, hcode⟩ := ih
    have hlacking : lacking (a :: b :: c :: rest).length = lacking rest.length := by
      simp only [lacking, List.length_cons]
      omega
    rw [hlacking, encodeBytes, hcode]
    refine ⟨_ :: _ :: _ :: _ :: symbols, ?_, rfl⟩
    simpa [symbol_mem_alphabet] using hsymbols

/-! ### Exactness -/

lemma symbol_congr {m n : Nat} (h : m % 64 = n % 64) : symbol m = symbol n := by
  rw [symbol, symbol, h]

/-- A character with a value is the symbol of that value. -/
lemma symbol_of_value? {c : Char} {v : Nat} (h : value? c = some v) : v < 64 ∧ symbol v = c := by
  obtain ⟨hv, hc, _⟩ := List.findIdx?_eq_some_iff_getElem.1 h
  rw [length_alphabet] at hv
  obtain ⟨hlt, hs⟩ := symbol_eq v
  refine ⟨hv, ?_⟩
  rw [hs, ← eq_of_beq hc]
  simp only [Nat.mod_eq_of_lt hv]

/-- Twelve bits, of which the last four are zero, are one byte. -/
lemma encodeBytes_one {x y : Nat} (hy : y < 64) (hzero : (64 * x + y) % 16 = 0) :
    encodeBytes [.ofNat ((64 * x + y) / 16)] = [symbol x, symbol y, pad, pad] := by
  generalize hn : 64 * x + y = n at hzero
  have h₁ : symbol (n / 16 % 2 ^ 8 * 65536 / 262144) = symbol x := symbol_congr (by omega)
  have h₂ : symbol (n / 16 % 2 ^ 8 * 65536 / 4096) = symbol y := symbol_congr (by omega)
  simp only [encodeBytes, UInt8.toNat_ofNat', h₁, h₂]

/-- Eighteen bits, of which the last two are zero, are two bytes. -/
lemma encodeBytes_two {x y z : Nat} (hx : x < 64) (hy : y < 64) (hz : z < 64)
    (hzero : (4096 * x + 64 * y + z) % 4 = 0) :
    encodeBytes [.ofNat ((4096 * x + 64 * y + z) / 1024), .ofNat ((4096 * x + 64 * y + z) / 4)]
      = [symbol x, symbol y, symbol z, pad] := by
  generalize hn : 4096 * x + 64 * y + z = n at hzero
  have hbits : n / 1024 % 2 ^ 8 * 65536 + n / 4 % 2 ^ 8 * 256 = n * 64 := by omega
  have h₁ : symbol (n * 64 / 262144) = symbol x := symbol_congr (by omega)
  have h₂ : symbol (n * 64 / 4096) = symbol y := symbol_congr (by omega)
  have h₃ : symbol (n * 64 / 64) = symbol z := symbol_congr (by omega)
  simp only [encodeBytes, UInt8.toNat_ofNat', hbits, h₁, h₂, h₃]

/-- Twenty-four bits are three bytes. -/
lemma encodeBytes_three {x y z w : Nat} (hx : x < 64) (hy : y < 64) (hz : z < 64) (hw : w < 64) :
    encodeBytes [.ofNat ((262144 * x + 4096 * y + 64 * z + w) / 65536),
        .ofNat ((262144 * x + 4096 * y + 64 * z + w) / 256),
        .ofNat (262144 * x + 4096 * y + 64 * z + w)]
      = [symbol x, symbol y, symbol z, symbol w] := by
  generalize hn : 262144 * x + 4096 * y + 64 * z + w = n
  have hbits : n / 65536 % 2 ^ 8 * 65536 + n / 256 % 2 ^ 8 * 256 + n % 2 ^ 8 = n := by omega
  have h₁ : symbol (n / 262144) = symbol x := symbol_congr (by omega)
  have h₂ : symbol (n / 4096) = symbol y := symbol_congr (by omega)
  have h₃ : symbol (n / 64) = symbol z := symbol_congr (by omega)
  have h₄ : symbol n = symbol w := symbol_congr (by omega)
  simp only [encodeBytes, UInt8.toNat_ofNat', hbits, h₁, h₂, h₃, h₄]

/-- A group that can be decoded is the code of its bytes; it has three of them if it has no fill. -/
lemma encodeBytes_of_decodeGroup? {a b c d : Char} {bytes : List UInt8}
    (h : decodeGroup? a b c d = some bytes) :
    encodeBytes bytes = [a, b, c, d] ∧ (d ≠ pad → bytes.length = 3) := by
  unfold decodeGroup? at h
  split_ifs at h with hd hc
  · -- one byte
    simp only [Option.bind_eq_bind, Option.bind_eq_some_iff] at h
    obtain ⟨x, hx, y, hy, h⟩ := h
    obtain ⟨_, rfl⟩ := symbol_of_value? hx
    obtain ⟨hy', rfl⟩ := symbol_of_value? hy
    split_ifs at h with hzero
    cases h
    rw [hc, hd]
    exact ⟨encodeBytes_one hy' hzero, fun hpad => absurd rfl hpad⟩
  · -- two bytes
    simp only [Option.bind_eq_bind, Option.bind_eq_some_iff] at h
    obtain ⟨x, hx, y, hy, z, hz, h⟩ := h
    obtain ⟨hx', rfl⟩ := symbol_of_value? hx
    obtain ⟨hy', rfl⟩ := symbol_of_value? hy
    obtain ⟨hz', rfl⟩ := symbol_of_value? hz
    split_ifs at h with hzero
    cases h
    rw [hd]
    exact ⟨encodeBytes_two hx' hy' hz' hzero, fun hpad => absurd rfl hpad⟩
  · -- three bytes
    simp only [Option.bind_eq_bind, Option.bind_eq_some_iff] at h
    obtain ⟨x, hx, y, hy, z, hz, w, hw, h⟩ := h
    obtain ⟨hx', rfl⟩ := symbol_of_value? hx
    obtain ⟨hy', rfl⟩ := symbol_of_value? hy
    obtain ⟨hz', rfl⟩ := symbol_of_value? hz
    obtain ⟨hw', rfl⟩ := symbol_of_value? hw
    cases h
    exact ⟨encodeBytes_three hx' hy' hz' hw', fun _ => rfl⟩

/-- Three bytes in front are coded on their own. -/
lemma encodeBytes_append {bytes : List UInt8} (h : bytes.length = 3) (others : List UInt8) :
    encodeBytes (bytes ++ others) = encodeBytes bytes ++ encodeBytes others := by
  obtain ⟨x, y, z, rfl⟩ := List.length_eq_three.1 h
  rfl

/-- A text that can be decoded is the code of its bytes. -/
lemma encodeBytes_of_decode? {cs : List Char} {bytes : List UInt8} (h : decode? cs = some bytes) :
    encodeBytes bytes = cs := by
  induction cs using decode?.induct generalizing bytes with
  | case1 =>
    cases h
    rfl
  | case2 a b c d rest ih =>
    simp only [decode?, Option.bind_eq_bind, Option.bind_eq_some_iff] at h
    obtain ⟨group, hgroup, others, hothers, h⟩ := h
    split_ifs at h with hfill
    cases h
    obtain ⟨hcode, hlength⟩ := encodeBytes_of_decodeGroup? hgroup
    by_cases hd : d = pad
    · -- the group is the last one
      have hrest : rest = [] := not_not.1 fun hne => hfill ⟨hd, hne⟩
      subst hrest
      cases hothers
      rw [List.append_nil, hcode]
    · rw [encodeBytes_append (hlength hd), hcode, ih hothers]
      rfl
  | case3 cs hnil hgroup =>
    have hnone : decode? cs = none := by rw [decode?] <;> assumption
    cases hnone.symm.trans h

/-- Decoding is the inverse of coding, and codes are all that can be decoded. -/
lemma decode?_eq_some_iff {cs : List Char} {bytes : List UInt8} :
    decode? cs = some bytes ↔ cs = encodeBytes bytes :=
  ⟨fun h => (encodeBytes_of_decode? h).symm, fun h => h ▸ decode?_encodeBytes bytes⟩

lemma encode_injective : Function.Injective encode := by
  intro bytes others h
  have hcodes := congrArg (fun code => decode? code.toList) h
  simpa only [encode, String.toList_ofList, decode?_encodeBytes, Option.some.injEq] using hcodes

end Base64

/-! ### Class names -/

/-- Different rules behind one key have different class names. -/
lemma Seed.apply_keyed_injective (key : String) : Function.Injective (keyed key).apply :=
  fun _ _ h => (String.append_right_inj key).1 (Base64.encodeText_injective h)

/-- **Codes can be undone**: symbols have the values of the standard table; the code of some bytes
has four characters for every three bytes that were begun, which are symbols but for the fill at the
end, one for each byte that the last group lacks; it is decoded to these bytes, and no other text
is; so that different bytes have different codes, and different rules behind one key different class
names. -/
theorem Base64.encode_exact :
    (∀ c, value? c = tableValue? c)
      ∧ (∀ bytes,
        (encode bytes).length = 4 * ((bytes.length + 2) / 3)
          ∧ (∃ symbols, (∀ c ∈ symbols, c ∈ alphabet)
            ∧ (encode bytes).toList = symbols ++ List.replicate (lacking bytes.length) pad)
          ∧ ∀ cs, decode? cs = some bytes ↔ cs = (encode bytes).toList)
      ∧ Function.Injective encode
      ∧ ∀ key, Function.Injective (Seed.keyed key).apply := by
  refine ⟨value?_eq_tableValue?, fun bytes => ?_, encode_injective, Seed.apply_keyed_injective⟩
  rw [encode, String.length_ofList, String.toList_ofList]
  exact ⟨length_encodeBytes bytes, exists_symbols bytes, fun _ => decode?_eq_some_iff⟩

/-- Eight bytes: the last group lacks one. -/
theorem Base64.encode_exact_seedFoo :
    (Seed.keyed "seed!").apply "foo" = "c2VlZCFmb28="
      ∧ decode? "c2VlZCFmb28=".toList = some "seed!foo".toUTF8.data.toList
      ∧ (Seed.keyed "seed!").apply "foo" ≠ (Seed.keyed "seed!").apply "bar" := by
  obtain ⟨_, hcode, _, hkey⟩ := encode_exact
  have hname : "c2VlZCFmb28=" = encode "seed!foo".toUTF8.data.toList := by decide +kernel
  refine ⟨hname.symm, ((hcode _).2.2 _).2 (congrArg String.toList hname), fun h => ?_⟩
  exact absurd (hkey "seed!" h) (by decide)

end Stylesheet
