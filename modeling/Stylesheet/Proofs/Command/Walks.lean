/-
What walks come to, and what a file that is written changes.

* `Directory.Grounded`: all that is around the place which a walk has come to is a folder;
* `Directory.grounded_of_walk`: so it is wherever a walk comes to;
* `Directory.Wrote`: one file holds a text, and nothing else has changed;
* `Directory.wrote_put`: that is what writing comes to;
* `Wrote.read_eq`: what does not lead to that file is read as before.

A file that is written may be new, and then it has made folders of all that is around it. These have
been folders before, since the walk went through them.
-/
import Mathlib.Data.List.Infix
import Mathlib.Tactic.Common
import Stylesheet.Command.Directory
import Stylesheet.Outcome

namespace Stylesheet.Directory

variable {d after : Directory} {names other : List String} {spot final : Spot} {path text : String}

/-! ### Walks -/

/-- All that is around a place in a directory is a folder. -/
def Grounded (d : Directory) : Spot → Prop
  | .inside names => ∀ p, p <+: names → p ≠ names → d.find? p = some .folder
  | _ => True

lemma dropLast_ne_self (hn : ¬ names.isEmpty = true) : names.dropLast ≠ names := by
  intro h
  have hlength := congrArg List.length h
  rw [List.length_dropLast] at hlength
  have hpos := List.length_pos_of_ne_nil (mt List.isEmpty_iff.2 hn)
  omega

lemma find?_nil : d.find? [] = some .folder := rfl

lemma needFolder_inside :
    d.needFolder (.inside names) = .ok () ↔ d.find? names = some .folder := by
  rw [needFolder]
  cases d.find? names with
  | none => exact ⟨nofun, nofun⟩
  | some e =>
    cases e with
    | folder => exact ⟨fun _ => rfl, fun _ => rfl⟩
    | file bytes => exact ⟨nofun, nofun⟩

/-- From a folder that is in folders, the next name leads to a place that is in folders. -/
lemma Grounded.next (h : d.Grounded spot) (hf : d.needFolder spot = .ok ()) (name : String) :
    d.Grounded (next spot name) := by
  rw [next.eq_def]
  split
  · exact h
  · cases spot with
    | elsewhere => exact trivial
    | around => dsimp only; split <;> exact trivial
    | inside names =>
      dsimp only
      split
      · split
        · exact trivial
        · rename_i hn
          intro p hp hne
          refine h p (hp.trans (List.dropLast_prefix names)) ?_
          rintro rfl
          exact hne (hp.eq_of_length_le (List.dropLast_prefix _).length_le)
      · intro p hp hne
        rcases List.prefix_concat_iff.1 hp with rfl | hp
        · exact absurd rfl hne
        · by_cases he : p = names
          · rw [he]
            exact needFolder_inside.1 hf
          · exact h p hp he

/-- A walk that starts in folders comes to a place in folders. -/
lemma grounded_of_walk {way : List String} (h : d.Grounded spot)
    (hw : d.walk spot way = .ok final) :
    d.Grounded final := by
  induction way generalizing spot with
  | nil =>
    cases hw
    exact h
  | cons name rest ih =>
    obtain ⟨_, hf, hw⟩ := bind_eq_ok.1 hw
    split at hw
    · exact ih (h.next hf name) hw
    · cases hw

lemma grounded_start (path : String) : d.Grounded (start path) := by
  rw [start]
  split
  · exact trivial
  · exact fun p hp hne => absurd (List.prefix_nil.1 hp) hne

lemma locate_eq_ok (h : d.locate path = .ok final) :
    d.walk (start path) (path.splitOn "/") = .ok final := by
  rw [locate] at h
  split at h
  · cases h
  · split at h
    · exact h
    · cases h

lemma grounded_of_locate (h : d.locate path = .ok final) : d.Grounded final :=
  grounded_of_walk (grounded_start path) (locate_eq_ok h)

/-- A walk in two parts goes on where the first one has come to. -/
lemma walk_append {way later : List String} :
    d.walk spot (way ++ later) = d.walk spot way >>= fun mid => d.walk mid later := by
  induction way generalizing spot with
  | nil => rfl
  | cons name rest ih =>
    rw [List.cons_append, walk, walk]
    cases d.needFolder spot with
    | error fault => rfl
    | ok _ =>
      simp only [bind, Except.bind]
      split
      · exact ih
      · rfl

/-- A walk along one more name comes to what that name leads to, from a folder. -/
lemma walk_concat {way : List String} {name : String}
    (h : d.walk spot (way ++ [name]) = .ok final) :
    ∃ mid, d.walk spot way = .ok mid ∧ d.needFolder mid = .ok () ∧ final = next mid name := by
  rw [walk_append] at h
  obtain ⟨mid, hm, h⟩ := bind_eq_ok.1 h
  obtain ⟨_, hf, h⟩ := bind_eq_ok.1 h
  split at h
  · cases h
    exact ⟨mid, hm, hf, rfl⟩
  · cases h

/-- From a folder, a name that leads to anything but a folder is added to the way. -/
lemma exists_of_next {name : String} (h : d.Grounded spot) (hf : d.needFolder spot = .ok ())
    (hnext : next spot name = .inside names) (hn : d.find? names ≠ some .folder) :
    ∃ outer, spot = .inside outer ∧ names = outer ++ [name] ∧ name ≠ ".." := by
  rw [next.eq_def] at hnext
  split at hnext
  · subst hnext
    exact absurd (needFolder_inside.1 hf) hn
  · cases spot with
    | elsewhere => cases hnext
    | around =>
      dsimp only at hnext
      split at hnext <;> cases hnext
    | inside outer =>
      dsimp only at hnext
      split at hnext
      · split at hnext
        · cases hnext
        · rename_i ho
          cases hnext
          exact absurd (h _ (List.dropLast_prefix outer) (dropLast_ne_self ho)) hn
      · rename_i hback
        cases hnext
        exact ⟨outer, rfl, rfl, hback⟩

/-! ### Reading -/

lemma fromUTF8?_toUTF8 (text : String) : String.fromUTF8? text.toUTF8 = some text := by
  rw [String.fromUTF8?, String.toUTF8_eq_toByteArray, dif_pos text.isValidUTF8]
  rfl

/-- What is read is the text of a file. -/
lemma read_eq_ok : d.read path = .ok text ↔ ∃ names bytes, d.locate path = .ok (.inside names)
    ∧ d.find? names = some (.file bytes) ∧ String.fromUTF8? bytes = some text := by
  constructor
  · intro h
    rw [read] at h
    split at h
    · cases h
    · cases h
    · cases h
    · rename_i names hl
      split at h
      · cases h
      · cases h
      · rename_i bytes he
        split at h
        · rename_i hb
          cases h
          exact ⟨names, bytes, hl, he, hb⟩
        · cases h
  · rintro ⟨names, bytes, hl, he, hb⟩
    simp only [read, hl, he, hb]

/-! ### Writing -/

/-- What is written to is no folder, and its path leads to it. -/
lemma target_eq_ok (h : d.target path = .ok names) :
    d.locate path = .ok (.inside names) ∧ d.find? names ≠ some .folder := by
  rw [target] at h
  split at h
  · obtain ⟨folder, _, h⟩ := bind_eq_ok.1 h
    obtain ⟨_, _, h⟩ := bind_eq_ok.1 h
    cases h
  · obtain ⟨spot, hl, h⟩ := bind_eq_ok.1 h
    cases spot with
    | elsewhere => cases h
    | around => cases h
    | inside names' =>
      dsimp only at h
      split at h
      · cases h
      · rename_i hn
        cases h
        exact ⟨hl, hn⟩

lemma lookup_cons (e : List String × DirectoryEntry) (rest : List (List String × DirectoryEntry))
    (other : List String) :
    (e :: rest).lookup other = if other = e.1 then some e.2 else rest.lookup other := by
  obtain ⟨place, entry⟩ := e
  rw [List.lookup_cons]
  split <;> simp_all

lemma lookup_put (names : List String) (bytes : ByteArray)
    (entries : List (List String × DirectoryEntry)) (other : List String) :
    (put names bytes entries).lookup other
      = if other = names then some (.file bytes) else entries.lookup other := by
  induction entries with
  | nil => simp only [put, lookup_cons]
  | cons e rest ih =>
    rw [put]
    split
    · rename_i he
      rw [lookup_cons, lookup_cons, he]
      split <;> rfl
    · rename_i he
      rw [lookup_cons, lookup_cons, ih]
      split
      · rename_i ho
        rw [if_neg (by rwa [ho])]
      · rfl

/-- A file that is put somewhere makes folders of what is around it, and of nothing else. -/
lemma any_put (names : List String) (bytes : ByteArray)
    (entries : List (List String × DirectoryEntry)) (other : List String) :
    ((put names bytes entries).any fun e => other.isPrefixOf e.1)
      = ((entries.any fun e => other.isPrefixOf e.1) || other.isPrefixOf names) := by
  induction entries with
  | nil => rw [put, List.any_cons, Bool.or_comm, List.any_nil]
  | cons e rest ih =>
    rw [put]
    split
    · rename_i he
      rw [List.any_cons, List.any_cons, he, Bool.or_right_comm, Bool.or_self]
    · rw [List.any_cons, List.any_cons, ih, Bool.or_assoc]

/-- What is around a file that is put somewhere is a folder from then on. If it was one before, the
file is all that has changed. -/
lemma find?_put (bytes : ByteArray) (hne : other ≠ names)
    (hp : other <+: names → d.find? other = some .folder) :
    find? ⟨put names bytes d.entries⟩ other = d.find? other := by
  have hany : other.isPrefixOf names = true → d.entries.lookup other = none →
      other.isEmpty = false → (d.entries.any fun e => other.isPrefixOf e.1) = true := by
    intro hprefix hl ho
    have hf := hp (List.isPrefixOf_iff_prefix.1 hprefix)
    rw [find?, hl, ho] at hf
    by_contra ha
    rw [if_neg Bool.false_ne_true, if_neg ha] at hf
    cases hf
  rw [find?, find?, lookup_put, if_neg hne, any_put]
  cases ho : other.isEmpty with
  | true => rfl
  | false =>
    cases hl : d.entries.lookup other with
    | some e => rfl
    | none =>
      cases hprefix : other.isPrefixOf names with
      | true => rw [hany hprefix hl ho, Bool.true_or]
      | false => rw [Bool.or_false]

/-- One file holds a text, and nothing else has changed. -/
structure Wrote (d : Directory) (names : List String) (text : String) (after : Directory) :
    Prop where
  holds : after.find? names = some (.file text.toUTF8)
  others : ∀ other, other ≠ names → after.find? other = d.find? other

/-- Where a text can be written to, a file with the text is all that has to be put. -/
lemma wrote_put (ht : d.target path = .ok names) (text : String) :
    d.Wrote names text ⟨put names text.toUTF8 d.entries⟩ := by
  obtain ⟨hl, hn⟩ := target_eq_ok ht
  have hempty : names.isEmpty = false := by
    cases names with
    | nil => exact absurd find?_nil hn
    | cons name rest => rfl
  refine ⟨?_, fun other hne => ?_⟩
  · rw [find?, hempty, lookup_put, if_pos rfl]
    rfl
  · -- what is around the file was a folder before
    exact find?_put text.toUTF8 hne fun hp => grounded_of_locate hl other hp hne

lemma write_eq_ok : d.write path text = .ok after
    ↔ ∃ names, d.target path = .ok names ∧ after = ⟨put names text.toUTF8 d.entries⟩ := by
  rw [write, bind_eq_ok]
  refine exists_congr fun names => and_congr_right fun _ => ?_
  rw [Except.ok.injEq, eq_comm]

namespace Wrote

variable (h : d.Wrote names text after) (hn : d.find? names ≠ some .folder)

include h hn

/-- What is walked through is what it was. -/
lemma needFolder_eq_ok : after.needFolder spot = .ok () ↔ d.needFolder spot = .ok () := by
  cases spot with
  | around => exact Iff.rfl
  | elsewhere => exact Iff.rfl
  | inside other =>
    rw [needFolder_inside, needFolder_inside]
    by_cases he : other = names
    · rw [he, h.holds]
      exact iff_of_false nofun hn
    · rw [h.others other he]

lemma toOption_walk (way : List String) (spot : Spot) :
    (after.walk spot way).toOption = (d.walk spot way).toOption := by
  induction way generalizing spot with
  | nil => rfl
  | cons name rest ih =>
    have hf : after.needFolder spot = .ok () ↔ d.needFolder spot = .ok () :=
      h.needFolder_eq_ok hn
    rw [walk, walk]
    cases hd : d.needFolder spot with
    | ok _ =>
      rw [hf.2 hd]
      simp only [bind, Except.bind]
      split
      · exact ih (next spot name)
      · rfl
    | error fault =>
      cases ha : after.needFolder spot with
      | ok _ =>
        rw [hf.1 ha] at hd
        cases hd
      | error fault' => rfl

lemma toOption_locate (path : String) :
    (after.locate path).toOption = (d.locate path).toOption := by
  rw [locate, locate]
  split
  · rfl
  · split
    · exact h.toOption_walk hn _ _
    · rfl

/-- Paths lead where they led before, and what does not lead to the file is read as before. -/
lemma read_eq {path : String} (hp : d.locate path ≠ .ok (.inside names)) :
    after.read path = d.read path := by
  have hl := h.toOption_locate hn path
  rw [read, read]
  cases hd : d.locate path with
  | error fault =>
    cases ha : after.locate path with
    | error fault' => rfl
    | ok spot =>
      rw [hd, ha] at hl
      cases hl
  | ok spot =>
    have ha : after.locate path = .ok spot := by
      rw [hd] at hl
      exact toOption_eq_some.1 hl
    rw [ha]
    cases spot with
    | around => rfl
    | elsewhere => rfl
    | inside other =>
      rw [hd] at hp
      dsimp only
      rw [h.others other fun he => hp (he ▸ rfl)]

/-- What leads to the file is read as the text that was written. -/
lemma read_self {path : String} (hp : d.locate path = .ok (.inside names)) :
    after.read path = .ok text := by
  have hl := h.toOption_locate hn path
  rw [hp] at hl
  exact read_eq_ok.2 ⟨names, text.toUTF8, toOption_eq_some.1 hl, h.holds, fromUTF8?_toUTF8 _⟩

end Wrote

end Stylesheet.Directory
