/-
Texts split at slashes.

* `Text.splitOn_slash`: the pieces of a text are the pieces of its characters;
* `Text.splitOn_of_not_mem`, `splitOn_append`: characters without a slash are a single piece, and
  the last one behind a slash.
-/
import Mathlib.Data.String.Basic

namespace Stylesheet.Text

open String

/-- What a split finds from a place on, where the piece that it is in has begun with `m`. -/
lemma splitOnAux_slash (l m r : List Char) (acc : List String) :
    splitOnAux (ofList (l ++ m ++ r)) "/" ⟨utf8Len l⟩ ⟨utf8Len l + utf8Len m⟩ 0 acc
      = acc.reverse ++ (List.splitOnPPrepend (· == '/') r m.reverse).map ofList := by
  have hend : Pos.Raw.atEnd (ofList (l ++ m ++ r)) ⟨utf8Len l + utf8Len m⟩ = true ↔ r = [] := by
    have h := atEnd_of_valid (l ++ m) r
    rwa [utf8Len_append] at h
  rw [splitOnAux]
  cases r with
  | nil =>
    have hlast := extract_of_valid l m []
    rw [if_pos (hend.2 rfl), hlast, List.reverse_cons, List.splitOnPPrepend_nil,
      List.reverse_reverse]
    rfl
  | cons c r =>
    have hget : Pos.Raw.get (ofList (l ++ m ++ c :: r)) ⟨utf8Len l + utf8Len m⟩ = c := by
      simpa [-ofList_append] using get_of_valid (l ++ m) (c :: r)
    have hnext : Pos.Raw.next (ofList (l ++ m ++ c :: r)) ⟨utf8Len l + utf8Len m⟩
        = ⟨utf8Len l + utf8Len m + c.utf8Size⟩ := by
      simpa [-ofList_append] using next_of_valid (l ++ m) c r
    -- the separator is a single character: it is found as soon as that is
    have hfound : Pos.Raw.atEnd "/" (Pos.Raw.next "/" 0) = true := rfl
    rw [if_neg (mt hend.1 (List.cons_ne_nil c r)), hget, show Pos.Raw.get "/" 0 = '/' from rfl]
    by_cases hc : c = '/'
    · subst hc
      have hback : (⟨utf8Len l + utf8Len m + '/'.utf8Size⟩ : Pos.Raw).unoffsetBy
          (Pos.Raw.next "/" 0) = ⟨utf8Len l + utf8Len m⟩ := rfl
      rw [if_pos (beq_self_eq_true _), hnext, if_pos hfound, hback, extract_of_valid]
      simpa [-ofList_append, List.splitOnPPrepend_cons_eq_if, Nat.add_assoc] using
        splitOnAux_slash (l ++ m ++ ['/']) [] r (ofList m :: acc)
    · have hback : (⟨utf8Len l + utf8Len m⟩ : Pos.Raw).unoffsetBy 0
          = ⟨utf8Len l + utf8Len m⟩ := rfl
      rw [if_neg (by simpa using hc), hback, hnext]
      simpa [-ofList_append, List.splitOnPPrepend_cons_eq_if, Nat.add_assoc, hc] using
        splitOnAux_slash l (m ++ [c]) r acc

/-- The pieces of a text are the pieces of its characters. -/
lemma splitOn_slash (s : String) :
    s.splitOn "/" = (s.toList.splitOnP (· == '/')).map ofList := by
  rw [splitOn, if_neg (by decide)]
  simpa using splitOnAux_slash [] [] s.toList []

lemma splitOnP_of_not_mem {name : List Char} (hn : '/' ∉ name) :
    name.splitOnP (· == '/') = [name] :=
  List.splitOnP_eq_singleton fun _ hc => beq_false_of_ne (ne_of_mem_of_not_mem hc hn)

/-- Characters without a slash are a single piece. -/
lemma splitOn_of_not_mem {name : List Char} (hn : '/' ∉ name) :
    (ofList name).splitOn "/" = [ofList name] := by
  rw [splitOn_slash, toList_ofList, splitOnP_of_not_mem hn, List.map_singleton]

/-- Behind a slash, characters without one are the last piece. -/
lemma splitOn_append (before : List Char) {name : List Char} (hn : '/' ∉ name) :
    (ofList (before ++ '/' :: name)).splitOn "/"
      = (before.splitOnP (· == '/')).map ofList ++ [ofList name] := by
  have hpieces : (before ++ '/' :: name).splitOnP (· == '/')
      = before.splitOnP (· == '/') ++ name.splitOnP (· == '/') :=
    List.splitOnP_append_cons before name (beq_self_eq_true '/')
  rw [splitOn_slash, toList_ofList, hpieces, splitOnP_of_not_mem hn, List.map_append,
    List.map_singleton]

end Stylesheet.Text
