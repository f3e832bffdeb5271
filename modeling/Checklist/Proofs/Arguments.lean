import Checklist.Invocation

namespace Checklist

namespace LineRange

variable {range : LineRange} {t : Text}

/-- Lines counted from one, of which the first is not after the last. -/
structure Valid (range : LineRange) : Prop where
  first_pos : 0 < range.first
  ordered : range.first ≤ range.last

theorem number?_bounds {n : Nat} (h : number? t = some n) : 0 < n ∧ n < UInt64.size := by
  simp only [number?, Option.ite_none_right_eq_some, Option.some.injEq, Bool.and_eq_true,
    decide_eq_true_eq] at h
  obtain ⟨⟨⟨-, hpos⟩, hlt⟩, rfl⟩ := h
  exact ⟨hpos, hlt⟩

/-- Both ends of a range are read as numbers, from one text or from two. -/
theorem numbers_of_ofText? (h : ofText? t = some range) :
    ∃ first last, number? first = some range.first ∧ number? last = some range.last ∧
      range.first ≤ range.last := by
  unfold ofText? at h
  split at h
  · obtain ⟨n, hn, rfl⟩ := Option.map_eq_some_iff.mp h
    exact ⟨t, t, hn, hn, Nat.le_refl n⟩
  · rename_i first last _
    obtain ⟨m, hm, h⟩ := Option.bind_eq_some_iff.mp h
    obtain ⟨n, hn, h⟩ := Option.bind_eq_some_iff.mp h
    split at h
    · cases h
    · rename_i hle
      cases h
      exact ⟨first, last, hm, hn, Nat.le_of_not_lt hle⟩

theorem valid_of_ofText? (h : ofText? t = some range) : range.Valid := by
  obtain ⟨_, _, hfirst, -, hle⟩ := numbers_of_ofText? h
  exact ⟨(number?_bounds hfirst).1, hle⟩

/-- The lines of a range counted from zero. -/
theorem mem_indices (h : 0 < range.first) (i : Nat) :
    i ∈ range.indices ↔ range.first ≤ i + 1 ∧ i + 1 ≤ range.last := by
  rw [indices, firstIndices, Nat.min_self, List.mem_range'_1]
  omega

theorem mem_flatMap_indices {ranges : List LineRange} (valid : ∀ range ∈ ranges, range.Valid)
    (i : Nat) : i ∈ ranges.flatMap indices ↔
      ∃ range ∈ ranges, range.first ≤ i + 1 ∧ i + 1 ≤ range.last := by
  rw [List.mem_flatMap]
  refine exists_congr fun range => and_congr_right fun hmem => ?_
  exact mem_indices (valid range hmem).first_pos i

end LineRange

namespace Command

/-- Every range of a toggle is read from one of its words. -/
theorem exists_text_of_ranges {words : List Text} {found : List LineRange}
    (h : ranges words = .ok found) : ∀ range ∈ found, ∃ t, LineRange.ofText? t = some range := by
  induction words generalizing found with
  | nil =>
    cases h
    simp
  | cons word rest ih =>
    unfold ranges at h
    split at h
    · rename_i range hrange
      cases hrest : ranges rest with
      | error error =>
        rw [hrest] at h
        cases h
      | ok later =>
        rw [hrest] at h
        cases h
        intro other ho
        rcases List.mem_cons.mp ho with rfl | ho
        · exact ⟨word, hrange⟩
        · exact ih hrest other ho
    · cases h

theorem alone_ne_toggle {command : Command} {rest : List Text} {file : Path}
    {found : List LineRange} (hne : command ≠ toggle file found) :
    command.alone rest ≠ .ok (toggle file found) := by
  cases rest with
  | nil => simpa [alone] using hne
  | cons extra rest => simp [alone]

theorem ranges_of_ofWords {lineNumbers : Bool} {words : List Text} {file : Path}
    {found : List LineRange} (h : ofWords lineNumbers words = .ok (toggle file found)) :
    found ≠ [] ∧ ∀ range ∈ found, ∃ t, LineRange.ofText? t = some range := by
  revert h
  fun_cases ofWords lineNumbers words with
  | case9 _ words later hsome hranges =>
    intro h
    cases h
    exact ⟨hsome, exists_text_of_ranges hranges⟩
  | case3 | case5 | case10 | case11 => exact fun h => absurd h (alone_ne_toggle (by simp))
  | case1 | case2 | case4 | case6 | case7 | case8 | case12 =>
    intro h
    cases h

end Command

namespace Invocation

/-- What a command line asks for is help, the version or what its words say. -/
theorem command_of_ofArguments {path : Option Path} {lineNumbers : Bool}
    {words arguments : List Text} {invocation : Invocation}
    (h : ofArguments path lineNumbers words arguments = .ok invocation) :
    invocation.command = .help ∨ invocation.command = .version ∨
      ∃ lineNumbers words, Command.ofWords lineNumbers words = .ok invocation.command := by
  fun_induction ofArguments path lineNumbers words arguments with
  | case1 path lineNumbers words =>
    cases hcommand : Command.ofWords lineNumbers words with
    | error error =>
      rw [hcommand] at h
      cases h
    | ok command =>
      rw [hcommand] at h
      cases h
      exact .inr (.inr ⟨lineNumbers, words, hcommand⟩)
  | case2 =>
    cases h
    exact .inl rfl
  | case3 =>
    cases h
    exact .inr (.inl rfl)
  | case4 => cases h
  | case5 path _ _ _ _ _ _ _ _ ih => exact ih h
  | case6 _ _ _ _ _ _ _ _ _ ih => exact ih h
  | case7 => cases h
  | case8 _ _ _ _ _ _ _ _ _ _ ih => exact ih h

theorem texts_of_parse {arguments : List Text} {path : Option Path} {file : Path}
    {ranges : List LineRange} (h : parse arguments = .ok ⟨path, .toggle file ranges⟩) :
    ranges ≠ [] ∧ ∀ range ∈ ranges, ∃ t, LineRange.ofText? t = some range := by
  rcases command_of_ofArguments h with hcommand | hcommand | ⟨lineNumbers, words, hwords⟩
  · cases hcommand
  · cases hcommand
  · exact Command.ranges_of_ofWords hwords

/-- A toggle is for some lines, all of them counted from one. -/
theorem ranges_of_parse {arguments : List Text} {path : Option Path} {file : Path}
    {ranges : List LineRange} (h : parse arguments = .ok ⟨path, .toggle file ranges⟩) :
    ranges ≠ [] ∧ ∀ range ∈ ranges, range.Valid := by
  obtain ⟨hne, htexts⟩ := texts_of_parse h
  refine ⟨hne, ?_⟩
  intro range hrange
  obtain ⟨t, ht⟩ := htexts range hrange
  exact LineRange.valid_of_ofText? ht

end Invocation

end Checklist
