/-
Property names, and the keys that they come from.

* `Declaration.NoCapitals`: texts without a letter from `A` to `Z`;
* `Declaration.withCapital`: a key with its vendor prefix `ms` written `Ms`, as the other vendor
  prefixes are; `toList_propertyName`: a name is the key in this form, hyphenated;
* `Declaration.keyOf`, `keyOf_propertyName`: a name without its hyphens, each of which makes the
  letter after it a capital, is the key that it came from, but for `Ms`;
* `Declaration.propertyName_eq_iff`: keys without a hyphen have the same name only if they are the
  same, or are vendor twins;
* `Declaration.propertyName_stable`: names have no capitals, and are their own names.
-/
import Mathlib.Data.List.Basic
import Stylesheet.Declaration

namespace Stylesheet.Declaration

/-! ### Capitals -/

/-- No character of a text is a letter from `A` to `Z`. -/
def NoCapitals (s : String) : Prop :=
  ∀ c ∈ s.toList, c.isUpper = false

lemma capital_ofNat :
    ∀ n < 91, (Char.ofNat n).isUpper = true → (Char.ofNat n).toLower.isUpper = false
      ∧ (Char.ofNat n).toLower.toUpper = Char.ofNat n := by
  decide

/-- A capital letter becomes a small one, and becomes itself again. -/
lemma toLower_of_isUpper {c : Char} (h : c.isUpper = true) :
    c.toLower.isUpper = false ∧ c.toLower.toUpper = c := by
  have hle : c.toNat < 91 := Nat.lt_succ_of_le (of_decide_eq_true h).2
  have hletter := capital_ofNat c.toNat hle
  rw [Char.ofNat_toNat] at hletter
  exact hletter h

lemma isUpper_of_mem_hyphenated {c d : Char} (h : d ∈ hyphenated c) : d.isUpper = false := by
  rw [hyphenated] at h
  split at h
  · rename_i hc
    rcases List.mem_cons.1 h with rfl | h
    · rfl
    · rw [List.mem_singleton.1 h]
      exact (toLower_of_isUpper hc).1
  · rename_i hc
    rw [List.mem_singleton.1 h]
    exact Bool.eq_false_iff.2 hc

lemma hyphenated_of_not_isUpper {c : Char} (h : c.isUpper = false) : hyphenated c = [c] :=
  if_neg (Bool.eq_false_iff.1 h)

/-! ### The vendor prefix -/

/-- A key with its vendor prefix `ms` written `Ms`. -/
def withCapital (cs : List Char) : List Char :=
  if hasSmallVendorPrefix cs then 'M' :: cs.tail else cs

/-- Two keys that differ in their first letter only: one starts with `ms`, the other with `Ms`, and
a capital follows. -/
def VendorTwins (key other : List Char) : Prop :=
  ∃ c rest, c.isUpper = true ∧ key = 'm' :: 's' :: c :: rest ∧ other = 'M' :: 's' :: c :: rest

lemma hasSmallVendorPrefix_iff {cs : List Char} :
    hasSmallVendorPrefix cs = true
      ↔ ∃ c rest, c.isUpper = true ∧ cs = 'm' :: 's' :: c :: rest := by
  constructor
  · intro h
    unfold hasSmallVendorPrefix at h
    split at h
    · exact ⟨_, _, h, rfl⟩
    · cases h
  · rintro ⟨c, rest, hc, rfl⟩
    exact hc

lemma withCapital_of_vendor {cs : List Char} (h : hasSmallVendorPrefix cs = true) :
    withCapital cs = 'M' :: cs.tail :=
  if_pos h

lemma withCapital_of_noVendor {cs : List Char} (h : hasSmallVendorPrefix cs = false) :
    withCapital cs = cs :=
  if_neg (Bool.eq_false_iff.1 h)

/-- The hyphen before the vendor prefix is the one before a capital. -/
lemma toList_propertyName (key : String) :
    (propertyName key).toList = (withCapital key.toList).flatMap hyphenated := by
  rw [propertyName, String.toList_ofList]
  cases h : hasSmallVendorPrefix key.toList with
  | false => rw [withCapital_of_noVendor h, if_neg Bool.false_ne_true, List.nil_append]
  | true =>
    obtain ⟨c, rest, _, hkey⟩ := hasSmallVendorPrefix_iff.1 h
    rw [withCapital_of_vendor h, if_pos rfl, hkey]
    rfl

/-- With their vendor prefixes written alike, keys are the same only if they are equal or twins. -/
lemma withCapital_eq_iff {cs ds : List Char} :
    withCapital cs = withCapital ds ↔ cs = ds ∨ VendorTwins cs ds ∨ VendorTwins ds cs := by
  constructor
  · intro heq
    cases hc : hasSmallVendorPrefix cs with
    | false =>
      rw [withCapital_of_noVendor hc] at heq
      cases hd : hasSmallVendorPrefix ds with
      | false =>
        rw [withCapital_of_noVendor hd] at heq
        exact .inl heq
      | true =>
        rw [withCapital_of_vendor hd] at heq
        obtain ⟨c, rest, hupper, rfl⟩ := hasSmallVendorPrefix_iff.1 hd
        exact .inr (.inr ⟨c, rest, hupper, rfl, heq⟩)
    | true =>
      rw [withCapital_of_vendor hc] at heq
      obtain ⟨c, rest, hupper, rfl⟩ := hasSmallVendorPrefix_iff.1 hc
      cases hd : hasSmallVendorPrefix ds with
      | false =>
        rw [withCapital_of_noVendor hd] at heq
        exact .inr (.inl ⟨c, rest, hupper, rfl, heq.symm⟩)
      | true =>
        rw [withCapital_of_vendor hd] at heq
        obtain ⟨d, rest', _, rfl⟩ := hasSmallVendorPrefix_iff.1 hd
        exact .inl (congrArg ('m' :: ·) (List.cons.inj heq).2)
  · have htwins : ∀ cs ds, VendorTwins cs ds → withCapital cs = withCapital ds := by
      rintro _ _ ⟨c, rest, hupper, rfl, rfl⟩
      exact withCapital_of_vendor hupper
    rintro (rfl | h | h)
    · rfl
    · exact htwins cs ds h
    · exact (htwins ds cs h).symm

/-! ### Names read back -/

/-- The characters of a name without its hyphens: a hyphen makes the letter after it a capital. -/
def keyOf : List Char → List Char
  | '-' :: c :: rest => c.toUpper :: keyOf rest
  | c :: rest => c :: keyOf rest
  | [] => []

lemma keyOf_hyphenated_append {c : Char} (h : c ≠ '-') (rest : List Char) :
    keyOf (hyphenated c ++ rest) = c :: keyOf rest := by
  rw [hyphenated]
  split
  · rename_i hupper
    rw [List.cons_append, List.singleton_append, keyOf, (toLower_of_isUpper hupper).2]
  · rw [List.singleton_append, keyOf]
    exact fun _ _ hc _ => h hc

/-- Characters that are hyphenated are read back, if none of them was a hyphen itself. -/
lemma keyOf_flatMap_hyphenated {cs : List Char} (h : '-' ∉ cs) :
    keyOf (cs.flatMap hyphenated) = cs := by
  induction cs with
  | nil => rfl
  | cons c cs ih =>
    obtain ⟨hc, hcs⟩ := not_or.1 (mt List.mem_cons.2 h)
    rw [List.flatMap_cons, keyOf_hyphenated_append (Ne.symm hc), ih hcs]

lemma hyphen_notMem_withCapital {cs : List Char} (h : '-' ∉ cs) : '-' ∉ withCapital cs := by
  rw [withCapital]
  split
  · exact List.not_mem_cons_of_ne_of_not_mem (by decide) fun hm => h (List.mem_of_mem_tail hm)
  · exact h

/-- A key without a hyphen can be read from its name, but for the first letter of `ms`. -/
lemma keyOf_propertyName {key : String} (h : '-' ∉ key.toList) :
    keyOf (propertyName key).toList = withCapital key.toList := by
  rw [toList_propertyName, keyOf_flatMap_hyphenated (hyphen_notMem_withCapital h)]

/-- Keys without a hyphen that have the same name are the same, or twins. -/
lemma propertyName_eq_iff {key other : String} (hkey : '-' ∉ key.toList)
    (hother : '-' ∉ other.toList) :
    propertyName key = propertyName other
      ↔ key = other ∨ VendorTwins key.toList other.toList
        ∨ VendorTwins other.toList key.toList := by
  have hsame : key = other ↔ key.toList = other.toList := String.toList_inj.symm
  rw [hsame, ← withCapital_eq_iff]
  constructor
  · intro h
    rw [← keyOf_propertyName hkey, ← keyOf_propertyName hother, h]
  · intro h
    rw [← String.toList_inj, toList_propertyName, toList_propertyName, h]

/-! ### Normal forms -/

lemma noCapitals_propertyName (key : String) : NoCapitals (propertyName key) := by
  intro c hc
  rw [toList_propertyName] at hc
  obtain ⟨d, _, hd⟩ := List.mem_flatMap.1 hc
  exact isUpper_of_mem_hyphenated hd

/-- A key without capitals is a name already. -/
lemma propertyName_of_noCapitals {key : String} (h : NoCapitals key) : propertyName key = key := by
  have hprefix : hasSmallVendorPrefix key.toList = false := by
    refine Bool.eq_false_iff.2 fun hp => ?_
    obtain ⟨c, rest, hupper, hkey⟩ := hasSmallVendorPrefix_iff.1 hp
    have hc : c ∈ key.toList := by simp [hkey]
    exact Bool.eq_false_iff.1 (h c hc) hupper
  have hflat : key.toList.flatMap hyphenated = key.toList := by
    rw [List.flatMap_congr fun c hc => hyphenated_of_not_isUpper (h c hc)]
    exact List.flatMap_singleton' _
  rw [← String.toList_inj, toList_propertyName, withCapital_of_noVendor hprefix, hflat]

/-- **Property names**: a name has no capitals; it is its own name, and a key is its own name
exactly if it has no capitals; and two keys without hyphens have the same name exactly if they are
the same key or differ in their first letter only, one of them starting with `ms`, the other with
`Ms`, and both going on with a capital. -/
theorem propertyName_stable (key : String) :
    NoCapitals (propertyName key)
      ∧ propertyName (propertyName key) = propertyName key
      ∧ (propertyName key = key ↔ NoCapitals key)
      ∧ ∀ other, '-' ∉ key.toList → '-' ∉ other.toList →
        (propertyName key = propertyName other
          ↔ key = other ∨ VendorTwins key.toList other.toList
            ∨ VendorTwins other.toList key.toList) := by
  have hname := noCapitals_propertyName key
  refine ⟨hname, propertyName_of_noCapitals hname, ⟨fun h => ?_, propertyName_of_noCapitals⟩,
    fun other => propertyName_eq_iff⟩
  rw [← h]
  exact hname

/-- The vendor prefix is the same with and without a capital, but no other letter is. -/
theorem propertyName_stable_msFlex :
    propertyName "msFlex" = "-ms-flex" ∧ propertyName "msFlex" = propertyName "MsFlex"
      ∧ propertyName "msFlex" ≠ propertyName "msflex"
      ∧ propertyName (propertyName "msFlex") = propertyName "msFlex" := by
  obtain ⟨_, hagain, _, heq⟩ := propertyName_stable "msFlex"
  have htwins : VendorTwins "msFlex".toList "MsFlex".toList := ⟨'F', "lex".toList, rfl, rfl, rfl⟩
  refine ⟨rfl, (heq "MsFlex" (by decide) (by decide)).2 (.inr (.inl htwins)), fun h => ?_, hagain⟩
  rcases (heq "msflex" (by decide) (by decide)).1 h with h | ⟨_, _, _, _, h⟩ | ⟨_, _, _, _, h⟩
  · exact absurd h (by decide)
  · cases h
  · cases h

end Stylesheet.Declaration
