/-
What commands change.

* `Directory.exists_lastName`: a path is its last name behind a slash or nothing, and the path of
  its stylesheet has another last name in its place;
* `Directory.exists_stem`: a stylesheet without a path of its own takes the place of its descriptor
  only if that is named like a stylesheet;
* `Directory.run_changes`: only a build that succeeds changes something, and no more than the file
  of its stylesheet.

A path that is not given is made from that of the descriptor by a change of its extension. Where
that is the extension of stylesheets already, the descriptor is overwritten.
-/
import Mathlib.Data.List.TakeWhile
import Stylesheet.Command.Response
import Stylesheet.Proofs.Command.Walks
import Stylesheet.Proofs.Text.Splitting

namespace Stylesheet

namespace Directory

variable {d : Directory} {names : List String} {path text : String} {name before : List Char}

/-! ### The path of a stylesheet -/

/-- The extension of stylesheets. -/
def cssExtension : List Char := ['c', 's', 's']

/-- What stands before the last name of a path: nothing, or what ends in a slash. -/
def IsOuter (before : List Char) : Prop :=
  before = [] ∨ ∃ outer, before = outer ++ ['/']

/-- A path is its last name behind what ends in a slash, or behind nothing. The path of its
stylesheet has another last name in its place. -/
lemma exists_lastName (path : String) :
    ∃ before name, path.toList = before ++ name ∧ IsOuter before ∧ '/' ∉ name
      ∧ defaultOutput path = String.ofList (before ++ withExtension name cssExtension) := by
  set last := path.toList.reverse.takeWhile (· != '/') with hlast
  set rest := path.toList.reverse.dropWhile (· != '/') with hrest
  have hpath : path.toList = rest.reverse ++ last.reverse := by
    rw [← List.reverse_append, hlast, hrest, List.takeWhile_append_dropWhile, List.reverse_reverse]
  refine ⟨rest.reverse, last.reverse, hpath, ?_, ?_, ?_⟩
  · cases hr : rest with
    | nil => exact .inl rfl
    | cons c outer =>
      have hc := List.head?_dropWhile_not (· != '/') path.toList.reverse
      rw [← hrest, hr] at hc
      obtain rfl : c = '/' := by simpa using hc
      exact .inr ⟨outer.reverse, List.reverse_cons⟩
  · intro hm
    have hc := List.mem_takeWhile_imp (List.mem_reverse.1 hm)
    simp at hc
  · have htake : path.toList.take (path.toList.length - last.reverse.length) = rest.reverse := by
      rw [hpath, List.length_append, Nat.add_sub_cancel, List.take_left]
    rw [defaultOutput, ← hlast, htake]
    rfl

/-- A name with another extension has no slash if both have none. -/
lemma not_mem_withExtension {extension : List Char} (hn : '/' ∉ name) (he : '/' ∉ extension) :
    '/' ∉ withExtension name extension := by
  rw [withExtension]
  have hdot : '/' ∉ '.' :: extension := List.not_mem_cons_of_ne_of_not_mem (by decide) he
  split
  · exact List.not_mem_append hn hdot
  · split
    · decide
    · exact List.not_mem_append (fun h => hn (List.mem_of_mem_take h)) hdot

/-- A name that keeps its extension has that extension, unless it is no name of a file. -/
lemma exists_of_withExtension_eq_self {extension : List Char}
    (h : withExtension name extension = name) (hn : name ≠ ['.', '.']) :
    ∃ stem, name = stem ++ '.' :: extension := by
  rw [withExtension] at h
  split at h
  · have hlength := congrArg List.length h
    rw [List.length_append, List.length_cons] at hlength
    omega
  · split at h
    · exact absurd h.symm hn
    · exact ⟨_, h.symm⟩

/-- Whether a walk starts around the working directory is told by the first character. -/
lemma start_ofList (cs : List Char) :
    start (String.ofList cs) = if cs.head? = some '/' then .around else .inside [] := by
  have hs : (String.ofList cs).startsWith "/" = true ↔ cs.head? = some '/' := by
    rw [String.startsWith_string_iff, String.toList_ofList]
    cases cs with
    | nil => simp
    | cons c rest => simp [eq_comm]
  rw [start]
  simp only [hs]

/-- Paths that differ in their last names alone are walked alike up to these. -/
lemma exists_way (hb : IsOuter before) :
    ∃ spot way, ∀ name, '/' ∉ name → start (String.ofList (before ++ name)) = spot
      ∧ (String.ofList (before ++ name)).splitOn "/" = way ++ [String.ofList name] := by
  rcases hb with rfl | ⟨outer, rfl⟩
  · refine ⟨.inside [], [], fun name hn => ⟨?_, Text.splitOn_of_not_mem hn⟩⟩
    rw [List.nil_append, start_ofList, if_neg fun h => hn (List.mem_of_head? h)]
  · refine ⟨start (String.ofList (outer ++ ['/'])),
      (outer.splitOnP (· == '/')).map String.ofList, fun name hn => ⟨?_, ?_⟩⟩
    · rw [start_ofList, start_ofList, List.head?_append_of_ne_nil _ (by simp)]
    · rw [List.append_assoc]
      exact Text.splitOn_append outer hn

/-- Paths that differ in their last names alone lead to different files. -/
lemma eq_of_locate {last : List Char} (hb : IsOuter before) (hn : '/' ∉ name) (hl : '/' ∉ last)
    (h : d.locate (String.ofList (before ++ name)) = .ok (.inside names))
    (h' : d.locate (String.ofList (before ++ last)) = .ok (.inside names))
    (hfile : d.find? names ≠ some .folder) : name = last ∧ name ≠ ['.', '.'] := by
  obtain ⟨spot, way, hway⟩ := exists_way hb
  have hlast : ∀ name, '/' ∉ name →
      d.locate (String.ofList (before ++ name)) = .ok (.inside names) →
      ∃ outer, d.walk spot way = .ok (.inside outer) ∧ names = outer ++ [String.ofList name]
        ∧ String.ofList name ≠ ".." := by
    intro name hn h
    obtain ⟨hspot, hsplit⟩ := hway name hn
    have hw := locate_eq_ok h
    rw [hspot, hsplit] at hw
    obtain ⟨mid, hm, hf, hnext⟩ := walk_concat hw
    have hg : d.Grounded mid := grounded_of_walk (hspot ▸ grounded_start _) hm
    obtain ⟨outer, rfl, hnames, hback⟩ := exists_of_next hg hf hnext.symm hfile
    exact ⟨outer, hm, hnames, hback⟩
  obtain ⟨outer, hm, hnames, hback⟩ := hlast name hn h
  obtain ⟨outer', hm', hnames', _⟩ := hlast last hl h'
  rw [hm] at hm'
  cases hm'
  rw [hnames] at hnames'
  refine ⟨String.ofList_injective (List.singleton_inj.1 (List.append_cancel_left hnames')), ?_⟩
  rintro rfl
  exact hback rfl

/-- A stylesheet without a path of its own takes the place of its descriptor only if that is named
like a stylesheet. -/
lemma exists_stem (ht : d.target (defaultOutput path) = .ok names)
    (hp : d.locate path = .ok (.inside names)) : ∃ stem, path = stem ++ ".css" := by
  obtain ⟨before, name, hpath, hb, hn, hout⟩ := exists_lastName path
  obtain ⟨hl, hfile⟩ := target_eq_ok ht
  have hpath' : path = String.ofList (before ++ name) := by rw [← hpath, String.ofList_toList]
  rw [hpath'] at hp
  rw [hout] at hl
  obtain ⟨hsame, hback⟩ := eq_of_locate hb hn (not_mem_withExtension hn (by decide)) hp hl hfile
  obtain ⟨stem, hstem⟩ := exists_of_withExtension_eq_self hsame.symm hback
  refine ⟨String.ofList (before ++ stem), ?_⟩
  rw [hpath', hstem, ← List.append_assoc, String.ofList_append]
  rfl

end Directory

/-! ### Answers -/

section Answers

variable {verbose : Bool} {path : String} {content : Except FileFault String} {seed : Seed}

/-- A file has a plan if it was read as a descriptor and that has one. -/
lemma planOf_eq_ok {plan : Plan} :
    planOf path seed content = .ok plan
      ↔ ∃ source d, content = .ok source ∧ Descriptor.ofJson source = .ok d
        ∧ Sheet.plan ⟨d, seed⟩ = .ok plan := by
  rw [planOf, descriptorOf.eq_def, bind_eq_ok]
  constructor
  · rintro ⟨d, hd, h⟩
    split at hd
    · cases hd
    · cases hd
    · rename_i source
      split at hd
      · rename_i hjson
        cases hd
        split at h
        · rename_i hplan
          cases h
          exact ⟨source, d, rfl, hjson, hplan⟩
        · cases h
      · cases hd
  · rintro ⟨source, d, rfl, hjson, hplan⟩
    exact ⟨d, by simp only [hjson], by rw [hplan]⟩

/-- Only a build writes. -/
lemma Command.exists_finished {c : Command} (hc : ∀ path seed output, c ≠ .build path seed output) :
    ∃ output, c.respond verbose content = .finished output := by
  cases c with
  | build path seed output => exact absurd rfl (hc path seed output)
  | explain path seed =>
    rw [respond]
    split <;> exact ⟨_, rfl⟩
  | check path =>
    rw [respond]
    split <;> exact ⟨_, rfl⟩

/-- A build that does not write has failed. -/
lemma Command.code_build {seed output : Option String} {answer : Output}
    (h : (Command.build path seed output).respond verbose content = .finished answer) :
    answer.code = 1 := by
  rw [respond] at h
  split at h
  · cases h
    rfl
  · cases h

/-- What a build writes is the stylesheet of the descriptor that its file holds. -/
lemma Command.of_respond_build {seed output : Option String} {w : Writing}
    (h : (Command.build path seed output).respond verbose content = .writing w) :
    w.path = output.getD (Directory.defaultOutput path)
      ∧ ∃ source d, content = .ok source ∧ Descriptor.ofJson source = .ok d
        ∧ Sheet.css ⟨d, .ofKey? seed⟩ = .ok w.css := by
  rw [respond] at h
  split at h
  · cases h
  · rename_i plan hplan
    cases h
    obtain ⟨source, d, hcontent, hjson, hplan⟩ := planOf_eq_ok.1 hplan
    refine ⟨rfl, source, d, hcontent, hjson, ?_⟩
    rw [Sheet.css, hplan]
    rfl

end Answers

/-! ### Runs -/

namespace Directory

variable {d : Directory} {environmentSeed : Option String} {args : List String}
  {invocation : Invocation}

/-- A run that finishes without writing leaves the directory as it is. -/
lemma run_finished (h : Arguments.parse environmentSeed args = .ok invocation) {answer : Output}
    (ha : invocation.respond (d.read invocation.command.path) = .finished answer) :
    d.run environmentSeed args = (answer, d) := by
  rw [run, h]
  dsimp only
  rw [ha]

/-- A run that writes ends as the attempt to write does. -/
lemma run_writing (h : Arguments.parse environmentSeed args = .ok invocation) {w : Writing}
    (ha : invocation.respond (d.read invocation.command.path) = .writing w) :
    d.run environmentSeed args = match d.write w.path w.css with
      | .ok after => (w.finish (.ok ()), after)
      | .error fault => (w.finish (.error fault), d) := by
  cases hw : d.write w.path w.css with
  | ok after => simp only [run, h, ha, hw]
  | error fault => simp only [run, h, ha, hw]

/-- A build succeeds if its descriptor has a stylesheet and there is a place for that. -/
lemma run_build {verbose : Bool} {path source css : String} {seed output : Option String}
    {descriptor : Descriptor} {names : List String}
    (h : Arguments.parse environmentSeed args = .ok ⟨verbose, .build path seed output⟩)
    (hread : d.read path = .ok source) (hjson : Descriptor.ofJson source = .ok descriptor)
    (hcss : Sheet.css ⟨descriptor, .ofKey? seed⟩ = .ok css)
    (ht : d.target (output.getD (defaultOutput path)) = .ok names) :
    (d.run environmentSeed args).1.code = 0
      ∧ d.Wrote names css (d.run environmentSeed args).2 := by
  obtain ⟨plan, hplan, hcss⟩ := bind_eq_ok.1 hcss
  cases hcss
  have hanswer : (Command.build path seed output).respond verbose (d.read path)
      = .writing ⟨output.getD (defaultOutput path), plan.css, verbose,
          tellPlan verbose plan ++ tellCss verbose plan plan.css⟩ := by
    rw [Command.respond, planOf_eq_ok.2 ⟨source, descriptor, hread, hjson, hplan⟩]
  rw [run_writing h hanswer, write_eq_ok.2 ⟨names, ht, rfl⟩]
  exact ⟨rfl, wrote_put ht plan.css⟩

/-- **What commands change**: showing a plan and checking a descriptor change nothing, nor does a
command that fails. A build that succeeds writes to one file the stylesheet of the descriptor that
it has read. All other places in the directory stay as they are, and each path that does not lead to
that file is read as before. If it was not said where to write, the path of the descriptor does not
lead there, unless it ends as the paths of stylesheets do. -/
theorem run_changes (h : Arguments.parse environmentSeed args = .ok invocation) :
    ((∀ path seed output, invocation.command ≠ .build path seed output) →
        (d.run environmentSeed args).2 = d)
      ∧ ((d.run environmentSeed args).1.code ≠ 0 → (d.run environmentSeed args).2 = d)
      ∧ ∀ path seed output, invocation.command = .build path seed output →
        (d.run environmentSeed args).1.code = 0 →
        ∃ source descriptor css names, d.read path = .ok source
          ∧ Descriptor.ofJson source = .ok descriptor
          ∧ Sheet.css ⟨descriptor, .ofKey? seed⟩ = .ok css
          ∧ d.target (output.getD (defaultOutput path)) = .ok names
          ∧ d.Wrote names css (d.run environmentSeed args).2
          ∧ (∀ other, d.locate other ≠ .ok (.inside names) →
              (d.run environmentSeed args).2.read other = d.read other)
          ∧ (output = none → d.locate path = .ok (.inside names) →
              ∃ stem, path = stem ++ ".css") := by
  cases ha : invocation.respond (d.read invocation.command.path) with
  | finished answer =>
    rw [run_finished h ha]
    refine ⟨fun _ => rfl, fun _ => rfl, fun path seed output hc hcode => ?_⟩
    rw [Invocation.respond, hc] at ha
    rw [Command.code_build ha] at hcode
    cases hcode
  | writing w =>
    have hbuild : ¬ ∀ path seed output, invocation.command ≠ .build path seed output := fun hc => by
      obtain ⟨answer, hanswer⟩ := Command.exists_finished hc
      rw [Invocation.respond, hanswer] at ha
      cases ha
    refine ⟨fun hc => absurd hc hbuild, ?_⟩
    cases hw : d.write w.path w.css with
    | error fault =>
      rw [run_writing h ha, hw]
      exact ⟨fun _ => rfl, fun _ _ _ _ hcode => nomatch hcode⟩
    | ok after =>
      rw [run_writing h ha, hw]
      refine ⟨fun hcode => absurd rfl hcode, fun path seed output hc _ => ?_⟩
      rw [Invocation.respond, hc] at ha
      obtain ⟨hpath, source, descriptor, hread, hjson, hcss⟩ := Command.of_respond_build ha
      obtain ⟨names, ht, rfl⟩ := write_eq_ok.1 hw
      have hwrote := wrote_put ht w.css
      rw [hpath] at ht
      refine ⟨source, descriptor, w.css, names, hread, hjson, hcss, ht, hwrote,
        fun other ho => hwrote.read_eq (target_eq_ok ht).2 ho, ?_⟩
      rintro rfl hl
      exact exists_stem ht hl

/-- The text of a descriptor with a single rule. -/
def redSource : String :=
  "\x7b\"a\":\x7b\"color\":\"red\"\x7d\x7d"

/-- The stylesheet of that descriptor. -/
def redCss : String :=
  ".a \x7bcolor:red\x7d"

/-- A directory that holds that descriptor alone, under the given name. -/
def holding (name : String) : Directory :=
  ⟨[([name], .file redSource.toUTF8)]⟩

lemma exists_redDescriptor : ∃ descriptor, Descriptor.ofJson redSource = .ok descriptor
    ∧ Sheet.css ⟨descriptor, .ofKey? none⟩ = .ok redCss := by
  obtain ⟨descriptor, hjson, hcss⟩ := exists_ok_of_any
    (x := Descriptor.ofJson redSource)
    (p := fun descriptor => (Sheet.css ⟨descriptor, .ofKey? none⟩).toOption == some redCss)
    (by decide +kernel)
  exact ⟨descriptor, hjson, toOption_eq_some.1 (eq_of_beq hcss)⟩

/-- A descriptor that is not named like a stylesheet stays as it is. -/
theorem run_changes_json :
    Arguments.parse none ["build", "x.json"] = .ok ⟨false, .build "x.json" none none⟩
      ∧ ((holding "x.json").run none ["build", "x.json"]).1.code = 0
      ∧ ((holding "x.json").run none ["build", "x.json"]).2.read "x.json" = .ok redSource
      ∧ ∃ css names, (holding "x.json").target "x.css" = .ok names
        ∧ (holding "x.json").Wrote names css
            ((holding "x.json").run none ["build", "x.json"]).2 := by
  have hparse : Arguments.parse none ["build", "x.json"]
      = .ok ⟨false, .build "x.json" none none⟩ := by decide +kernel
  have hpath : defaultOutput "x.json" = "x.css" := by decide +kernel
  have hlocate : (holding "x.json").locate "x.json" = .ok (.inside ["x.json"]) := by
    rw [locate, Text.splitOn_slash]
    decide +kernel
  have hread : (holding "x.json").read "x.json" = .ok redSource :=
    read_eq_ok.2 ⟨_, _, hlocate, rfl, fromUTF8?_toUTF8 _⟩
  have htarget : (holding "x.json").target "x.css" = .ok ["x.css"] := by
    rw [target, locate, Text.splitOn_slash]
    decide +kernel
  obtain ⟨descriptor, hjson, hcss⟩ := exists_redDescriptor
  obtain ⟨hcode, _⟩ := run_build hparse hread hjson hcss (by rw [Option.getD_none, hpath, htarget])
  obtain ⟨_, _, css, names, _, _, _, ht, hwrote, hothers, hstem⟩ :=
    (run_changes hparse).2.2 "x.json" none none rfl hcode
  have hkept : (holding "x.json").locate "x.json" ≠ .ok (.inside names) := fun hl => by
    obtain ⟨stem, hstem⟩ := hstem rfl hl
    have hlast := congrArg (fun path => path.toList.getLast?) hstem
    simp at hlast
  rw [Option.getD_none, hpath] at ht
  exact ⟨hparse, hcode, (hothers "x.json" hkept).trans hread, css, names, ht, hwrote⟩

/-- A descriptor that is named like a stylesheet is overwritten, although it was not said to write
there. -/
theorem run_overwrites_css :
    Arguments.parse none ["build", "x.css"] = .ok ⟨false, .build "x.css" none none⟩
      ∧ ((holding "x.css").run none ["build", "x.css"]).1.code = 0
      ∧ (holding "x.css").read "x.css" = .ok redSource
      ∧ ((holding "x.css").run none ["build", "x.css"]).2.read "x.css" = .ok redCss
      ∧ redCss ≠ redSource := by
  have hparse : Arguments.parse none ["build", "x.css"]
      = .ok ⟨false, .build "x.css" none none⟩ := by decide +kernel
  have hpath : defaultOutput "x.css" = "x.css" := by decide +kernel
  have hlocate : (holding "x.css").locate "x.css" = .ok (.inside ["x.css"]) := by
    rw [locate, Text.splitOn_slash]
    decide +kernel
  have hread : (holding "x.css").read "x.css" = .ok redSource :=
    read_eq_ok.2 ⟨_, _, hlocate, rfl, fromUTF8?_toUTF8 _⟩
  have htarget : (holding "x.css").target "x.css" = .ok ["x.css"] := by
    rw [target, hlocate]
    decide +kernel
  obtain ⟨descriptor, hjson, hcss⟩ := exists_redDescriptor
  obtain ⟨hcode, hwrote⟩ :=
    run_build hparse hread hjson hcss (by rw [Option.getD_none, hpath, htarget])
  exact ⟨hparse, hcode, hread, hwrote.read_self (target_eq_ok htarget).2 hlocate, by decide +kernel⟩

end Directory

end Stylesheet
