import Checklist.Proofs.Arguments
import Checklist.Proofs.ConfigReading
import Checklist.Proofs.Editing
import Checklist.Proofs.Files
import Checklist.Proofs.Perform

namespace Checklist
open Machine Text

namespace Machine

/-- The machine once a toggle has written a file, and has said so. -/
def toggled (machine : Machine) (location : List Text) (file : Path) (t : Text) (count : Nat) :
    Machine where
  files := machine.files.set location (.file t.bytes)
  directory := machine.directory
  output := machine.output ++ ("Toggled ".toList ++ Text.decimal count ++ " line(s)\n".toList)
  records := machine.records ++ [⟨.info, .document, "wrote ".toList ++ file⟩]

end Machine

namespace Session

/-- Nothing stands in the way of a toggle of a file that holds a text. -/
structure Clear (engine : Engine) (config : Config) (file : Path) (ranges : List LineRange)
    (set : TokenSet) (t : Text) : Prop where
  covered : config.covers file = true
  tokens : config.tokenSet engine = .ok set
  inRange : ∀ range ∈ ranges, range.last ≤ (LineIndex.ofText t).lineCount

section Toggle

variable {engine : Engine} {machine : Machine} {config : Config} {file : Path}
  {ranges : List LineRange}

/-- The first range that ends past the last line stops the checks. -/
theorem perform_checks (machine : Machine) (ranges : List LineRange) (count : Nat) :
    machine.perform (ranges.forM fun range => Run.orStop .outOfRange (range.check count)) =
      match ranges.find? fun range => count < range.last with
      | none => (.ok (), machine)
      | some range => (.error (.outOfRange ⟨range.last, count⟩), machine) := by
  induction ranges with
  | nil => rfl
  | cons range rest ih =>
    rw [List.forM, List.find?_cons, LineRange.check]
    by_cases hrange : count < range.last
    · simp only [hrange, ↓reduceIte, decide_true]
      rfl
    · simp only [hrange, ↓reduceIte, decide_false]
      exact (perform_bind_of_ok (perform_orStop_ok _ _) _).trans ih

theorem perform_writeTo {doc : Document} {location : List Text} {old : Text}
    (h : machine.files.Holds machine.directory file location old) :
    machine.perform (doc.writeTo file) = (.ok (),
      { machine with
        files := machine.files.set location (.file doc.text.bytes)
        records := machine.records ++ [⟨.info, .document, "wrote ".toList ++ file⟩] }) := by
  unfold Document.writeTo
  rw [perform_bind_of_ok (perform_write (h.write doc.text)),
    perform_bind_of_ok (perform_orStop_ok _ _), perform_report]

/-- A document whose file is there is written to it. -/
theorem perform_save {doc : Document} {location : List Text} {old : Text}
    (h : machine.files.Holds machine.directory file location old)
    (hname : doc.filename = some file) :
    machine.perform doc.save = (.ok { doc with modified := false },
      { machine with
        files := machine.files.set location (.file doc.text.bytes)
        records := machine.records ++ [⟨.info, .document, "wrote ".toList ++ file⟩] }) := by
  unfold Document.save
  rw [hname]
  dsimp only
  rw [perform_bind_of_ok (perform_writeTo h), perform_pure]

theorem lt_of_mem_indices (file : Path) {t : Text} (valid : ∀ range ∈ ranges, range.Valid)
    (inRange : ∀ range ∈ ranges, range.last ≤ (LineIndex.ofText t).lineCount) :
    ∀ i ∈ ranges.flatMap LineRange.indices, i < (Document.ofFile file t).lineCount := by
  intro i hi
  obtain ⟨range, hmem, -, hline⟩ := (LineRange.mem_flatMap_indices valid i).mp hi
  have hlast := inRange range hmem
  exact Nat.lt_of_lt_of_le hline hlast

/-- A toggle that nothing stands in the way of advances the lines of its ranges, and writes the file
and nothing else. -/
theorem perform_toggle {set : TokenSet} {t : Text} {location : List Text}
    (h : Clear engine config file ranges set t)
    (holds : machine.files.Holds machine.directory file location t)
    (valid : ∀ range ∈ ranges, range.Valid) :
    ∃ count doc', (Document.ofFile file t).advanceLines set (ranges.flatMap LineRange.indices) =
        (.ok count, doc') ∧
      Document.Advanced set (ranges.flatMap LineRange.indices) (Document.ofFile file t) doc' ∧
      machine.perform (toggle engine config file ranges) =
        (.ok (), machine.toggled location file doc'.text count) := by
  have hset := TokenSet.accepted_of_ofStates h.tokens
  obtain ⟨doc', hrun, hadvanced⟩ := (Document.ofFile_consistent file t).advanceLines_eq hset
    (lt_of_mem_indices file valid h.inRange)
  have hname := Document.filename_advanceLines (.ofFile file t) set
    (ranges.flatMap LineRange.indices)
  rw [hrun] at hname
  have hload := perform_load_of_ok (FileTree.read_eq_ok_iff.mpr ⟨location, holds⟩)
  have hchecks : machine.perform (ranges.forM fun range =>
      Run.orStop .outOfRange (range.check (Document.ofFile file t).lineCount)) =
      (.ok (), machine) := by
    rw [perform_checks, List.find?_eq_none.mpr]
    intro range hrange
    have hlast := h.inRange range hrange
    rw [decide_eq_true_eq]
    exact Nat.not_lt.mpr hlast
  refine ⟨_, doc', hrun, hadvanced, ?_⟩
  unfold toggle
  rw [if_pos h.covered, h.tokens, perform_bind_of_ok (perform_orStop_ok _ _),
    perform_bind_of_ok hload, perform_bind_of_ok hchecks, hrun]
  dsimp only
  rw [perform_bind_of_ok (perform_orStop_ok _ _), perform_bind_of_ok (perform_save holds hname),
    perform_print]
  rfl

/-- The first range that ends past the last line is all that such a toggle comes to. -/
theorem perform_toggle_out {set : TokenSet} {t : Text} {range : LineRange}
    (covered : config.covers file = true) (tokens : config.tokenSet engine = .ok set)
    (readable : machine.files.read machine.directory file = .ok t)
    (hfind : (ranges.find? fun range => (LineIndex.ofText t).lineCount < range.last) = some range) :
    machine.perform (toggle engine config file ranges) =
      (.error (.outOfRange ⟨range.last, (LineIndex.ofText t).lineCount⟩), machine) := by
  have hchecks := perform_checks machine ranges (Document.ofFile file t).lineCount
  change (ranges.find? fun range => (Document.ofFile file t).lineCount < range.last) = some range
    at hfind
  rw [hfind] at hchecks
  unfold toggle
  rw [if_pos covered, tokens, perform_bind_of_ok (perform_orStop_ok _ _),
    perform_bind_of_ok (perform_load_of_ok readable), perform_bind_of_error hchecks]
  rfl

/-- All that a toggle can come to: a failure that changes nothing, a file that the configuration
does not cover, or a toggle that nothing stands in the way of. -/
theorem toggle_cases (engine : Engine) (machine : Machine) (config : Config) (file : Path)
    (ranges : List LineRange) :
    (∃ failure, machine.perform (toggle engine config file ranges) = (.error failure, machine)) ∨
    (config.covers file = false ∧ ∃ record, machine.perform (toggle engine config file ranges) =
      (.ok (), { machine with records := machine.records ++ [record] })) ∨
    ∃ set t, Clear engine config file ranges set t ∧
      machine.files.read machine.directory file = .ok t := by
  by_cases hcovered : config.covers file = true
  · cases htokens : config.tokenSet engine with
    | error error =>
      unfold toggle
      rw [if_pos hcovered, htokens]
      exact .inl ⟨_, perform_bind_of_error (perform_orStop_error _ _) _⟩
    | ok set =>
      cases hread : machine.files.read machine.directory file with
      | error error =>
        have hload := perform_load machine file
        rw [hread] at hload
        unfold toggle
        rw [if_pos hcovered, htokens, perform_bind_of_ok (perform_orStop_ok _ _)]
        exact .inl ⟨_, perform_bind_of_error hload _⟩
      | ok t =>
        cases hfind : ranges.find? fun range => (LineIndex.ofText t).lineCount < range.last with
        | some range => exact .inl ⟨_, perform_toggle_out hcovered htokens hread hfind⟩
        | none =>
          refine .inr (.inr ⟨set, t, ⟨hcovered, htokens, ?_⟩, rfl⟩)
          intro range hrange
          have hlast := List.find?_eq_none.mp hfind range hrange
          rw [decide_eq_true_eq] at hlast
          exact Nat.not_lt.mp hlast
  · unfold toggle
    rw [if_neg hcovered]
    exact .inr (.inl ⟨Bool.eq_false_iff.mpr hcovered, _, perform_report _ _ _⟩)

end Toggle

section Commands
open Run

variable (engine : Engine)

theorem atomic_scan (config : Config) (file : Path) :
    Atomic (scan engine config file : Run (StateM Machine) Unit) := by
  unfold scan
  split
  · refine (readOnly_orStop _ _).bind_atomic fun set => ?_
    exact (readOnly_load file).bind_atomic fun doc => (sure_print _).atomic
  · exact (sure_report _ _ _).atomic

theorem atomic_draw (config : Config) (columns : Nat) (file : Path) (lineNumbers : Bool) :
    Atomic (draw engine config columns file lineNumbers : Run (StateM Machine) Unit) := by
  unfold draw
  refine (readOnly_load file).bind_atomic fun doc => ?_
  dsimp only
  split
  · exact (readOnly_orStop _ _).bind_atomic fun set => (sure_print _).atomic
  · exact ((sure_report _ _ _).bind fun _ => sure_print _).atomic

theorem atomic_toggle (config : Config) (file : Path) {ranges : List LineRange}
    (valid : ∀ range ∈ ranges, range.Valid) :
    Atomic (toggle engine config file ranges : Run (StateM Machine) Unit) := by
  intro machine after failure hfail
  rcases toggle_cases engine machine config file ranges with
    ⟨_, h⟩ | ⟨-, _, h⟩ | ⟨set, t, hclear, hread⟩
  · rw [h] at hfail
    cases hfail
    rfl
  · rw [h] at hfail
    cases hfail
  · obtain ⟨location, holds⟩ := FileTree.read_eq_ok_iff.mp hread
    obtain ⟨count, doc', -, -, h⟩ := perform_toggle hclear holds valid
    rw [h] at hfail
    cases hfail

theorem keepsFiles_scan (config : Config) (file : Path) :
    KeepsFiles (scan engine config file : Run (StateM Machine) Unit) := by
  unfold scan
  split
  · refine (readOnly_orStop _ _).keepsFiles.bind fun set => ?_
    exact (readOnly_load file).keepsFiles.bind fun doc => keepsFiles_print _
  · exact keepsFiles_report _ _ _

theorem keepsFiles_draw (config : Config) (columns : Nat) (file : Path) (lineNumbers : Bool) :
    KeepsFiles (draw engine config columns file lineNumbers : Run (StateM Machine) Unit) := by
  unfold draw
  refine (readOnly_load file).keepsFiles.bind fun doc => ?_
  dsimp only
  split
  · exact (readOnly_orStop _ _).keepsFiles.bind fun set => keepsFiles_print _
  · exact (keepsFiles_report _ _ _).bind fun _ => keepsFiles_print _

/-- Every command does all that can fail before it changes or prints anything. -/
theorem atomic_execute (config : Config) (columns : Nat) {command : Command}
    (valid : ∀ file ranges, command = .toggle file ranges → ∀ range ∈ ranges, range.Valid) :
    Atomic (execute engine config columns command : Run (StateM Machine) Unit) := by
  cases command with
  | scan file => exact atomic_scan engine config file
  | draw file lineNumbers => exact atomic_draw engine config columns file lineNumbers
  | toggle file ranges => exact atomic_toggle engine config file (valid file ranges rfl)
  | config => exact (sure_print _).atomic
  | help => exact (sure_print _).atomic
  | version => exact (sure_print _).atomic

/-- Only a toggle changes a file. -/
theorem keepsFiles_execute (config : Config) (columns : Nat) {command : Command}
    (hne : ∀ file ranges, command ≠ .toggle file ranges) :
    KeepsFiles (execute engine config columns command : Run (StateM Machine) Unit) := by
  cases command with
  | scan file => exact keepsFiles_scan engine config file
  | draw file lineNumbers => exact keepsFiles_draw engine config columns file lineNumbers
  | toggle file ranges => exact absurd rfl (hne file ranges)
  | config => exact keepsFiles_print _
  | help => exact keepsFiles_print _
  | version => exact keepsFiles_print _

end Commands

/-- A command line whose toggle nothing stands in the way of, with all that it depends on. -/
structure Toggling (engine : Engine) (home : Option Path) (arguments : List Text)
    (machine : Machine) where
  path : Option Path
  file : Path
  ranges : List LineRange
  config : Config
  set : TokenSet
  text : Text
  parsed : Invocation.parse arguments = .ok ⟨path, .toggle file ranges⟩
  configured : machine.perform (configOf home ⟨path, .toggle file ranges⟩) = (.ok config, machine)
  clear : Clear engine config file ranges set text
  readable : machine.files.read machine.directory file = .ok text

section Running

variable {engine : Engine} {home : Option Path} {arguments : List Text} {machine : Machine}

theorem perform_run {invocation : Invocation} {config : Config}
    (hparse : Invocation.parse arguments = .ok invocation)
    (hconfig : machine.perform (configOf home invocation) = (.ok config, machine))
    (columns : Nat) :
    machine.perform (run engine home columns arguments) =
      machine.perform (execute engine config columns invocation.command) := by
  unfold run
  rw [hparse, perform_bind_of_ok (perform_orStop_ok _ _), perform_bind_of_ok hconfig]

theorem valid_of_parse {invocation : Invocation}
    (hparse : Invocation.parse arguments = .ok invocation) (file : Path)
    (ranges : List LineRange) (hcommand : invocation.command = .toggle file ranges) :
    ∀ range ∈ ranges, range.Valid := by
  obtain ⟨path, command⟩ := invocation
  subst hcommand
  exact (Invocation.ranges_of_parse hparse).2

/-- A run that fails has changed nothing, wherever it fails. -/
theorem atomic_run (engine : Engine) (home : Option Path) (columns : Nat)
    (arguments : List Text) :
    Run.Atomic (run engine home columns arguments : Run (StateM Machine) Unit) := by
  intro machine after failure hfail
  unfold run at hfail
  cases hparse : Invocation.parse arguments with
  | error error =>
    rw [hparse, perform_bind_of_error (perform_orStop_error _ _)] at hfail
    cases hfail
    rfl
  | ok invocation =>
    rw [hparse, perform_bind_of_ok (perform_orStop_ok _ _)] at hfail
    refine (Run.readOnly_configOf home invocation).bind_atomic (fun config => ?_) machine after
      failure hfail
    exact atomic_execute engine config columns (valid_of_parse hparse)

/-- A run that changes a file has a toggle that nothing stands in the way of. -/
theorem files_run (engine : Engine) (home : Option Path) (columns : Nat) (arguments : List Text)
    (machine : Machine) :
    (machine.perform (run engine home columns arguments)).2.files = machine.files ∨
      Nonempty (Toggling engine home arguments machine) := by
  cases hparse : Invocation.parse arguments with
  | error error =>
    unfold run
    rw [hparse, perform_bind_of_error (perform_orStop_error _ _)]
    exact .inl rfl
  | ok invocation =>
    have hconfig := (Run.readOnly_configOf home invocation).perform_eq machine
    cases hresult : (machine.perform (configOf home invocation)).1 with
    | error failure =>
      rw [hresult] at hconfig
      unfold run
      rw [hparse, perform_bind_of_ok (perform_orStop_ok _ _), perform_bind_of_error hconfig]
      exact .inl rfl
    | ok config =>
      rw [hresult] at hconfig
      rw [perform_run hparse hconfig]
      obtain ⟨path, command⟩ := invocation
      by_cases htoggle : ∃ file ranges, command = .toggle file ranges
      · obtain ⟨file, ranges, rfl⟩ := htoggle
        dsimp only [execute]
        rcases toggle_cases engine machine config file ranges with
          ⟨_, h⟩ | ⟨-, _, h⟩ | ⟨set, t, hclear, hread⟩
        · rw [h]
          exact .inl rfl
        · rw [h]
          exact .inl rfl
        · exact .inr ⟨⟨path, file, ranges, config, set, t, hparse, hconfig, hclear, hread⟩⟩
      · refine .inl (keepsFiles_execute engine config columns ?_ machine)
        exact fun file ranges h => htoggle ⟨file, ranges, h⟩

theorem Toggling.perform_run (toggling : Toggling engine home arguments machine) (columns : Nat) :
    ∃ location count doc',
      (Document.ofFile toggling.file toggling.text).advanceLines toggling.set
        (toggling.ranges.flatMap LineRange.indices) = (.ok count, doc') ∧
      Document.Advanced toggling.set (toggling.ranges.flatMap LineRange.indices)
        (Document.ofFile toggling.file toggling.text) doc' ∧
      machine.files.Holds machine.directory toggling.file location toggling.text ∧
      machine.perform (run engine home columns arguments) =
        (.ok (), machine.toggled location toggling.file doc'.text count) := by
  obtain ⟨location, holds⟩ := FileTree.read_eq_ok_iff.mp toggling.readable
  obtain ⟨count, doc', hrun, hadvanced, h⟩ := perform_toggle toggling.clear holds
    (Invocation.ranges_of_parse toggling.parsed).2
  refine ⟨location, count, doc', hrun, hadvanced, holds, ?_⟩
  rw [Session.perform_run toggling.parsed toggling.configured]
  exact h

/-- Some line is advanced, and no line is its own successor. -/
theorem Toggling.text_ne (toggling : Toggling engine home arguments machine) {doc' : Document}
    (h : Document.Advanced toggling.set (toggling.ranges.flatMap LineRange.indices)
      (Document.ofFile toggling.file toggling.text) doc') : doc'.text ≠ toggling.text := by
  obtain ⟨hne, hvalid⟩ := Invocation.ranges_of_parse toggling.parsed
  obtain ⟨range, rest, hranges⟩ := List.exists_cons_of_ne_nil hne
  have hrange : range ∈ toggling.ranges := by rw [hranges]; exact List.mem_cons_self
  have hmem : range.first - 1 ∈ toggling.ranges.flatMap LineRange.indices := by
    obtain ⟨hpos, hle⟩ := hvalid range hrange
    exact (LineRange.mem_flatMap_indices hvalid _).mpr ⟨range, hrange, by omega, by omega⟩
  have hlt := lt_of_mem_indices toggling.file hvalid toggling.clear.inRange _ hmem
  have hline := (h.line?_ne_iff (TokenSet.accepted_of_ofStates toggling.clear.tokens) hlt).mpr hmem
  intro he
  rw [h.after.line?_eq, h.before.line?_eq, he] at hline
  exact hline rfl

end Running

/-- A run changes no file unless it is a toggle that nothing stands in the way of. Such a run
succeeds and changes the file of the toggle, whose lines in the ranges it advances, and no other
file. A run that fails has changed no file and printed nothing. -/
theorem run_files (engine : Engine) (home : Option Path) (columns : Nat) (arguments : List Text)
    (machine : Machine) :
    ∃ result after, machine.perform (run engine home columns arguments) = (result, after) ∧
      (∀ failure, result = .error failure → after = machine) ∧
      (after.files = machine.files ∨ Nonempty (Toggling engine home arguments machine)) ∧
      ∀ toggling : Toggling engine home arguments machine, result = .ok () ∧
        ∃ location count doc',
          (∀ i, i ∈ toggling.ranges.flatMap LineRange.indices ↔
            ∃ range ∈ toggling.ranges, range.first ≤ i + 1 ∧ i + 1 ≤ range.last) ∧
          (Document.ofFile toggling.file toggling.text).advanceLines toggling.set
            (toggling.ranges.flatMap LineRange.indices) = (.ok count, doc') ∧
          doc'.text ≠ toggling.text ∧
          machine.files.Holds machine.directory toggling.file location toggling.text ∧
          after.files.Holds machine.directory toggling.file location doc'.text ∧
          ∀ other, other ≠ location → after.files.entry? other = machine.files.entry? other := by
  refine ⟨(machine.perform (run engine home columns arguments)).1,
    (machine.perform (run engine home columns arguments)).2, rfl, ?_,
    files_run engine home columns arguments machine, ?_⟩
  · intro failure hfail
    exact atomic_run engine home columns arguments machine _ failure (Prod.ext hfail rfl)
  · intro toggling
    obtain ⟨location, count, doc', hrun, hadvanced, holds, h⟩ := toggling.perform_run columns
    rw [h]
    have hvalid := (Invocation.ranges_of_parse toggling.parsed).2
    have hrewritten := holds.rewritten doc'.text
    exact ⟨rfl, location, count, doc', LineRange.mem_flatMap_indices hvalid, hrun,
      toggling.text_ne hadvanced, holds, hrewritten.holds, hrewritten.others⟩

/-- Two ranges that overlap, on a file that is reached through the directory above the working one.
The configuration in the home directory says which files are covered. -/
theorem run_files_standard :
    ∃ after, (Machine.start (.ofTexts
        [(["home".toList, ".todo-highlight.toml".toList], "extension = 'txt'".toList),
          (["home".toList, "a.txt".toList], "- a\n+ b\n".toList),
          (["home".toList, "work".toList, "b.txt".toList], "- c".toList)])
        ["home".toList, "work".toList]).perform (run .usual (some "/home".toList) 80
          ["toggle".toList, "../a.txt".toList, "2:3".toList, "1:2".toList]) = (.ok (), after) ∧
      after.files.entry? ["home".toList, "a.txt".toList] =
        some (.file (bytes "+ a\n-> b\n- ".toList)) ∧
      after.files.entry? ["home".toList, ".todo-highlight.toml".toList] =
        some (.file (bytes "extension = 'txt'".toList)) := by
  obtain ⟨result, after, hrun, -, -, heffect⟩ := run_files .usual (some "/home".toList) 80
    ["toggle".toList, "../a.txt".toList, "2:3".toList, "1:2".toList] (.start (.ofTexts
      [(["home".toList, ".todo-highlight.toml".toList], "extension = 'txt'".toList),
        (["home".toList, "a.txt".toList], "- a\n+ b\n".toList),
        (["home".toList, "work".toList, "b.txt".toList], "- c".toList)])
      ["home".toList, "work".toList])
  have hconfig : Config.ofToml "extension = 'txt'".toList =
      .ok { Config.default with extension := "txt".toList } := eq_ok_of_toOption (by decide +kernel)
  obtain ⟨rfl, location, count, doc', -, hadvance, -, hbefore, hafter, hother⟩ := heffect
    { path := none
      file := "../a.txt".toList
      ranges := [⟨2, 3⟩, ⟨1, 2⟩]
      config := { Config.default with extension := "txt".toList }
      set := .standard
      text := "- a\n+ b\n".toList
      parsed := by rfl
      configured := perform_configLoad_of_ok rfl
        (FileTree.read_eq_ok_iff.mpr
          ⟨["home".toList, ".todo-highlight.toml".toList], rfl, rfl, rfl⟩) hconfig
      clear := ⟨by decide, by rfl, by decide⟩
      readable := FileTree.read_eq_ok_iff.mpr
        ⟨["home".toList, "a.txt".toList], rfl, rfl, rfl⟩ }
  have hadvanced : ((Document.ofFile "../a.txt".toList "- a\n+ b\n".toList).advanceLines .standard
      [1, 2, 0, 1]).2.text = "+ a\n-> b\n- ".toList := by decide
  have htext : doc'.text = "+ a\n-> b\n- ".toList :=
    (congrArg (fun outcome => outcome.2.text) hadvance).symm.trans hadvanced
  have hplace : (.ok location : Except IoError (List Text)) =
      .ok ["home".toList, "a.txt".toList] := hbefore.place.symm
  cases hplace
  refine ⟨after, hrun, htext ▸ hafter.entry, ?_⟩
  exact (hother ["home".toList, ".todo-highlight.toml".toList] (by decide)).trans rfl

end Session

end Checklist
