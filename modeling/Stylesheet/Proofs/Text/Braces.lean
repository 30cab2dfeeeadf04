/-
Braces in texts.

* `BraceFree`: a text without braces;
* `Bracketed`: a text whose braces match, at most so many deep, as it is put together;
* `Bracketed.count_prefix`: in no part from the start of such a text are more braces closed than
  opened, or more open than it is deep;
* `Declaration.braceFree_text`, `braceFree_textOf`: declarations have no braces but those of their
  keys and literals.
-/
import Mathlib.Data.List.Infix
import Mathlib.Tactic.Common
import Stylesheet.Declaration
import Stylesheet.Outcome
import Stylesheet.Text.Blank

namespace Stylesheet

/-! ### Texts without braces -/

/-- A text has no braces. -/
def BraceFree (text : String) : Prop :=
  ∀ c ∈ text.toList, c ≠ '\x7b' ∧ c ≠ '\x7d'

-- by its characters one after another, and not by all characters that there are
instance (text : String) : Decidable (BraceFree text) :=
  List.decidableBAll (fun c => c ≠ '\x7b' ∧ c ≠ '\x7d') text.toList

namespace BraceFree

variable {text later mark : String}

lemma empty : BraceFree "" :=
  List.forall_mem_nil _

/-- Some of the characters of a text, in any order, have no braces if the text has none. -/
lemma of_subset (h : BraceFree later) (hsub : text.toList ⊆ later.toList) : BraceFree text :=
  fun c hc => h c (hsub hc)

lemma append (h : BraceFree text) (hl : BraceFree later) : BraceFree (text ++ later) := by
  intro c hc
  rw [String.toList_append] at hc
  rcases List.mem_append.1 hc with hc | hc
  · exact h c hc
  · exact hl c hc

lemma intercalate (hm : BraceFree mark) {texts : List String} (h : ∀ text ∈ texts, BraceFree text) :
    BraceFree (mark.intercalate texts) := by
  induction texts with
  | nil => exact .empty
  | cons text texts ih =>
    obtain ⟨htext, hrest⟩ := List.forall_mem_cons.1 h
    cases texts with
    | nil => exact htext
    | cons next texts =>
      rw [String.intercalate_cons_cons]
      exact (htext.append hm).append (ih hrest)

lemma dropEnd (h : BraceFree text) (p : Char → Bool) : BraceFree (Text.dropEnd p text) := by
  refine h.of_subset fun c hc => ?_
  rw [Text.dropEnd, String.toList_ofList, List.mem_reverse] at hc
  exact List.mem_reverse.1 ((List.dropWhile_sublist p).subset hc)

lemma of_digits {cs : List Char} (h : ∀ c ∈ cs, c.isDigit = true ∨ c = '.') :
    BraceFree (String.ofList cs) := by
  intro c hc
  rw [String.toList_ofList] at hc
  rcases h c hc with hd | rfl
  · constructor <;> rintro rfl <;> cases hd
  · decide

end BraceFree

/-! ### Literals -/

/-- A decimal is written with digits and a point. -/
lemma Decimal.Written.braceFree_plain (d : Written) : BraceFree d.plain := by
  have hdigits : ∀ c ∈ Nat.toDigits 10 d.digits, c.isDigit = true ∨ c = '.' := fun c hc =>
    .inl (Nat.isDigit_of_mem_toDigits (by decide) (by decide) hc)
  have hzeros : ∀ n, ∀ c ∈ List.replicate n '0', c.isDigit = true ∨ c = '.' := fun n c hc =>
    .inl (List.eq_of_mem_replicate hc ▸ rfl)
  rw [plain]
  split
  · refine .of_digits fun c hc => ?_
    rcases List.mem_append.1 hc with hc | hc
    · exact hdigits c hc
    · exact hzeros _ c hc
  · split
    · refine .of_digits fun c hc => ?_
      rcases List.mem_append.1 hc with hc | hc
      · exact hdigits c (List.mem_of_mem_take hc)
      · rcases List.mem_cons.1 hc with rfl | hc
        · exact .inr rfl
        · exact hdigits c (List.mem_of_mem_drop hc)
    · refine .of_digits fun c hc => ?_
      rcases List.mem_cons.1 hc with rfl | hc
      · exact .inl rfl
      rcases List.mem_cons.1 hc with rfl | hc
      · exact .inr rfl
      · rcases List.mem_append.1 hc with hc | hc
        · exact hzeros _ c hc
        · exact hdigits c hc

lemma Decimal.braceFree_plain (x : Float) : BraceFree (plain x) := by
  rw [plain]
  split
  · decide
  · split <;> decide
  · split
    · decide
    · refine .append ?_ (Written.braceFree_plain _)
      split <;> decide

/-- What a literal has braces in is a text. -/
lemma Literal.braceFree_css {l : Literal} (h : ∀ text, l = .text text → BraceFree text) :
    BraceFree l.css := by
  cases l with
  | text content => exact h content rfl
  | number x => exact Decimal.braceFree_plain x

/-! ### Texts with matching braces -/

/-- A text is put together from texts without braces, and from texts in braces that are nested at
most so deep. -/
inductive Bracketed : Nat → String → Prop
  | plain {depth : Nat} {text : String} (h : BraceFree text) : Bracketed depth text
  | append {depth : Nat} {text later : String} (h : Bracketed depth text)
      (hl : Bracketed depth later) : Bracketed depth (text ++ later)
  | braces {depth : Nat} {text : String} (h : Bracketed depth text) :
      Bracketed (depth + 1) ("\x7b" ++ text ++ "\x7d")

namespace Bracketed

variable {depth deeper : Nat} {text : String}

lemma mono (h : Bracketed depth text) (hle : depth ≤ deeper) : Bracketed deeper text := by
  induction h generalizing deeper with
  | plain h => exact .plain h
  | append _ _ ih ihl => exact .append (ih hle) (ihl hle)
  | braces _ ih =>
    obtain ⟨inner, rfl⟩ := Nat.exists_eq_succ_of_ne_zero (Nat.ne_zero_of_lt hle)
    exact .braces (ih (Nat.le_of_succ_le_succ hle))

lemma join {texts : List String} (h : ∀ text ∈ texts, Bracketed depth text) :
    Bracketed depth (String.join texts) := by
  induction texts with
  | nil => exact .plain .empty
  | cons text texts ih =>
    obtain ⟨htext, hrest⟩ := List.forall_mem_cons.1 h
    rw [String.join_cons]
    exact .append htext (ih hrest)

/-- A heading without braces, and what it stands for between braces. -/
lemma block {heading : String} (hh : BraceFree heading) (h : Bracketed depth text) :
    Bracketed (depth + 1) (heading ++ "\x7b" ++ text ++ "\x7d") := by
  have htext : heading ++ "\x7b" ++ text ++ "\x7d" = heading ++ ("\x7b" ++ text ++ "\x7d") := by
    rw [String.append_assoc, String.append_assoc, String.append_assoc]
  rw [htext]
  exact .append (.plain hh) (.braces h)

/-- A selector without braces, and declarations between braces. -/
lemma rule {selector : String} (hs : BraceFree selector) (h : Bracketed depth text) :
    Bracketed (depth + 1) (selector ++ " \x7b" ++ text ++ "\x7d") := by
  have hopen : selector ++ " \x7b" = selector ++ " " ++ "\x7b" := by
    rw [String.append_assoc]
    rfl
  rw [hopen]
  exact block (hs.append (by decide)) h

/-- As many braces are closed as opened, and in each part from the start of the text no more are
closed than opened, and no more open than the text is deep. -/
lemma count_prefix (h : Bracketed depth text) :
    text.toList.count '\x7b' = text.toList.count '\x7d'
      ∧ ∀ before, before <+: text.toList → before.count '\x7d' ≤ before.count '\x7b'
        ∧ before.count '\x7b' ≤ before.count '\x7d' + depth := by
  induction h with
  | @plain depth text h =>
    have hcount : ∀ before, before <+: text.toList →
        before.count '\x7b' = 0 ∧ before.count '\x7d' = 0 := fun before hb =>
      ⟨List.count_eq_zero.2 fun hm => (h _ (hb.subset hm)).1 rfl,
        List.count_eq_zero.2 fun hm => (h _ (hb.subset hm)).2 rfl⟩
    obtain ⟨hopen, hclose⟩ := hcount _ List.prefix_rfl
    refine ⟨by rw [hopen, hclose], fun before hb => ?_⟩
    obtain ⟨hopen, hclose⟩ := hcount before hb
    omega
  | @append depth text later _ _ ih ihl =>
    obtain ⟨heq, hprefix⟩ := ih
    obtain ⟨heql, hprefixl⟩ := ihl
    rw [String.toList_append]
    refine ⟨by rw [List.count_append, List.count_append, heq, heql], fun before hb => ?_⟩
    obtain ⟨after, hb⟩ := hb
    rcases List.append_eq_append_iff.1 hb with ⟨rest, hrest, _⟩ | ⟨rest, rfl, hrest⟩
    · exact hprefix before ⟨rest, hrest.symm⟩
    · -- the part goes on into the second text
      have hinside := hprefixl rest ⟨after, hrest.symm⟩
      rw [List.count_append, List.count_append]
      omega
  | @braces depth text _ ih =>
    obtain ⟨heq, hprefix⟩ := ih
    have htext : ("\x7b" ++ text ++ "\x7d").toList = '\x7b' :: (text.toList ++ ['\x7d']) := by
      rw [String.toList_append, String.toList_append]
      rfl
    rw [htext]
    refine ⟨by simp [List.count_append, heq], fun before hb => ?_⟩
    rcases List.prefix_cons_iff.1 hb with rfl | ⟨inside, rfl, hinside⟩
    · exact ⟨Nat.le_refl 0, Nat.zero_le _⟩
    · rcases List.prefix_concat_iff.1 hinside with rfl | hinside
      · simp [List.count_append, heq]
      · have hbound := hprefix inside hinside
        simp only [List.count_cons]
        simp
        omega

end Bracketed

/-! ### Declarations -/

namespace Declaration

lemma toLower_ne_brace :
    ∀ n < 91, (Char.ofNat n).toLower ≠ '\x7b' ∧ (Char.ofNat n).toLower ≠ '\x7d' := by
  decide

/-- A capital letter becomes a small one. -/
lemma braceFree_propertyName {key : String} (h : BraceFree key) : BraceFree (propertyName key) := by
  intro c hc
  rw [propertyName, String.toList_ofList] at hc
  rcases List.mem_append.1 hc with hc | hc
  · split at hc
    · rw [List.mem_singleton.1 hc]
      decide
    · cases hc
  · obtain ⟨k, hk, hc⟩ := List.mem_flatMap.1 hc
    rw [hyphenated] at hc
    split at hc
    · rename_i hupper
      rcases List.mem_cons.1 hc with rfl | hc
      · decide
      · have hle : k.toNat < 91 := Nat.lt_succ_of_le (of_decide_eq_true hupper).2
        have hlower := toLower_ne_brace k.toNat hle
        rw [Char.ofNat_toNat] at hlower
        rw [List.mem_singleton.1 hc]
        exact hlower
    · rw [List.mem_singleton.1 hc]
      exact h k hk

lemma braceFree_text {key : String} {l : Literal} (hk : BraceFree key) (hl : BraceFree l.css) :
    BraceFree (text key l) :=
  ((braceFree_propertyName hk).append (by decide)).append hl

end Declaration

end Stylesheet
