import Checklist.Proofs.Editing

namespace Checklist.Document
open Text

section Replaced

variable {doc doc' : Document} {pre post : List Text} {row new : Text}

theorem Consistent.exists_rawLine (h : doc.Consistent) {i : Nat} (hi : i < doc.lineCount) :
    ∃ raw, doc.rawLine? i = some raw := by
  obtain ⟨row, hrow⟩ := h.exists_row hi
  rw [h.rawLine?_eq_rawRow?, rawRow?, hrow]
  exact ⟨_, rfl⟩

/-- The new text brings one line for each of its line feeds. -/
theorem rows_length_carriage (new row : Text) :
    (rows (new ++ carriage row)).length = new.count '\n' + 1 := by
  rw [rows_length, List.count_append, List.count_eq_zero.mpr (no_feed_carriage row), Nat.add_zero]

theorem Replaced.lineCount_eq (h : Replaced pre row post new doc doc') :
    doc'.lineCount = doc.lineCount + new.count '\n' := by
  rw [h.before.lineCount_eq, h.after.lineCount_eq, h.rows_after, h.rows_before, List.length_append,
    List.length_append, List.length_append, List.length_cons, rows_length_carriage]
  omega

theorem Replaced.rawLine?_before (h : Replaced pre row post new doc doc') {j : Nat}
    (hj : j < pre.length) : doc'.rawLine? j = doc.rawLine? j := by
  have hrows : rows (new ++ carriage row) ++ post ≠ [] :=
    List.append_ne_nil_of_left_ne_nil (rows_ne_nil _) _
  rw [h.before.rawLine?_eq_rawRow?, h.after.rawLine?_eq_rawRow?, h.rows_after,
    h.rows_before, rawRow?_append_left hrows hj, rawRow?_append_left (List.cons_ne_nil _ _) hj]

theorem Replaced.rawLine?_after (h : Replaced pre row post new doc doc') {j : Nat}
    (hj : pre.length < j) : doc'.rawLine? (j + new.count '\n') = doc.rawLine? j := by
  obtain ⟨k, rfl⟩ := Nat.exists_eq_add_of_lt hj
  have hbefore : doc.text.rows = (pre ++ [row]) ++ post := by
    rw [h.rows_before, List.append_assoc, List.singleton_append]
  have hold : pre.length + k + 1 = (pre ++ [row]).length + k := by
    rw [List.length_append, List.length_singleton]
    omega
  have hnew : pre.length + k + 1 + new.count '\n' =
      (pre ++ rows (new ++ carriage row)).length + k := by
    rw [List.length_append, rows_length_carriage]
    omega
  rw [h.before.rawLine?_eq_rawRow?, h.after.rawLine?_eq_rawRow?, h.rows_after, hbefore,
    ← List.append_assoc, hnew, hold, rawRow?_append_right, rawRow?_append_right]

/-- Any text can replace the content of a line that is there, whatever line feeds it holds. The text
around that content stays, first of it the ending of the line. There are as many more lines as the
new text has line feeds. The lines before keep their places, and those after move by that number. -/
theorem replaceLine_linewise (consistent : doc.Consistent) {i : Nat} (inRange : i < doc.lineCount)
    (new : Text) :
    ∃ doc' before line ending after,
      doc.replaceLine i new = (.ok (), doc') ∧
      doc.line? i = some line ∧ doc.ending? i = some ending ∧
      doc.index.contentSpan doc.text i =
        some ⟨before.byteLength, before.byteLength + line.byteLength⟩ ∧
      doc.text = before ++ line ++ ending ++ after ∧
      doc'.text = before ++ new ++ ending ++ after ∧
      doc'.Consistent ∧ doc'.lineCount = doc.lineCount + new.count '\n' ∧
      (∀ j < i, ∃ raw, doc.rawLine? j = some raw ∧ doc'.rawLine? j = some raw) ∧
      ∀ j < doc.lineCount, i < j →
        ∃ raw, doc.rawLine? j = some raw ∧ doc'.rawLine? (j + new.count '\n') = some raw := by
  obtain ⟨row, hrow⟩ := consistent.exists_row inRange
  obtain ⟨pre, post, hsplit, rfl⟩ := exists_split hrow
  obtain ⟨doc', hrun, h⟩ := consistent.exists_replaced hsplit new
  have hindex : doc.index = .ofText doc.text := consistent
  have hline : doc.line? pre.length = some (content row) := by
    rw [consistent.line?_eq, hrow, Option.map_some]
  have hending : doc.ending? pre.length = some (carriage row ++ feed post) := by
    rw [consistent.ending?_eq, hrow, Option.map_some, hsplit, drop_split]
  refine ⟨doc', ended pre, content row, carriage row ++ feed post, join ['\n'] post, hrun, hline,
    hending, ?_, ?_, ?_, h.after, h.lineCount_eq, ?_, ?_⟩
  · rw [hindex, LineIndex.contentSpan_ofText hsplit]
  · have htext := eq_of_rows_eq_content hsplit
    rw [following_eq] at htext
    rw [htext]
    simp only [List.append_assoc]
  · rw [h.text_after, following_eq]
    simp only [List.append_assoc]
  · intro j hj
    obtain ⟨raw, hraw⟩ := consistent.exists_rawLine (Nat.lt_trans hj inRange)
    exact ⟨raw, hraw, (h.rawLine?_before hj).trans hraw⟩
  · intro j hlt hj
    obtain ⟨raw, hraw⟩ := consistent.exists_rawLine hlt
    exact ⟨raw, hraw, (h.rawLine?_after hj).trans hraw⟩

/-- A line that becomes three between others, with a carriage return of its own before the kept ending,
and a last line without a line feed. -/
theorem replaceLine_linewise_breaks :
    (ofText "- a\r\nx\r\n\nend\r".toList).Consistent ∧
    1 < (ofText "- a\r\nx\r\n\nend\r".toList).lineCount ∧
    ∃ doc' before after,
      (ofText "- a\r\nx\r\n\nend\r".toList).replaceLine 1 "é\n\n+ b\r".toList = (.ok (), doc') ∧
      "- a\r\nx\r\n\nend\r".toList = before ++ "x".toList ++ "\r\n".toList ++ after ∧
      doc'.text = before ++ "é\n\n+ b\r".toList ++ "\r\n".toList ++ after ∧
      doc'.lineCount = 6 ∧ doc'.rawLine? 0 = some "- a\r\n".toList ∧
      doc'.rawLine? 5 = some "end\r".toList := by
  have inRange : 1 < (ofText "- a\r\nx\r\n\nend\r".toList).lineCount := by decide
  obtain ⟨doc', before, line, ending, after, hrun, hline, hending, -, hold, hnew, -, hcount, hbefore,
    hafter⟩ := replaceLine_linewise (ofText_consistent _) inRange "é\n\n+ b\r".toList
  cases Option.some.inj (hline.symm.trans (by decide : _ = some "x".toList))
  cases Option.some.inj (hending.symm.trans (by decide : _ = some "\r\n".toList))
  obtain ⟨first, hfirst, hfirst'⟩ := hbefore 0 (by decide)
  obtain ⟨last, hlast, hlast'⟩ := hafter 3 (by decide) (by decide)
  exact ⟨ofText_consistent _, inRange, doc', before, after, hrun, hold, hnew,
    hcount.trans (by decide), hfirst'.trans (hfirst.symm.trans (by decide)),
    hlast'.trans (hlast.symm.trans (by decide))⟩

end Replaced

section Outcome

variable {doc : Document}

theorem replaceLine_of_le {i : Nat} (hi : doc.lineCount ≤ i) (new : Text) :
    doc.replaceLine i new = (.error ⟨i + 1, doc.lineCount⟩, doc) := by
  rw [replaceLine, LineIndex.contentSpan, LineIndex.lineSpan_eq_none_iff.mpr hi]
  rfl

theorem Consistent.replaceLine_ok (h : doc.Consistent) {i : Nat} (hi : i < doc.lineCount)
    (new : Text) :
    ∃ doc', doc.replaceLine i new = (.ok (), doc') ∧ doc'.Consistent ∧
      doc.lineCount ≤ doc'.lineCount := by
  obtain ⟨row, hrow⟩ := h.exists_row hi
  obtain ⟨pre, post, hsplit, rfl⟩ := exists_split hrow
  obtain ⟨doc', hrun, hreplaced⟩ := h.exists_replaced hsplit new
  refine ⟨doc', hrun, hreplaced.after, ?_⟩
  rw [hreplaced.lineCount_eq]
  exact Nat.le_add_right _ _

/-- Replacements take no line away, so that none of them can fail for those before it. -/
theorem Consistent.replaceLines_ok (h : doc.Consistent) {edits : List (Nat × Text)}
    (inRange : ∀ edit ∈ edits, edit.1 < doc.lineCount) :
    ∃ doc', doc.replaceLines edits = (.ok (), doc') ∧ doc'.Consistent ∧
      doc.lineCount ≤ doc'.lineCount := by
  induction edits generalizing doc with
  | nil => exact ⟨doc, rfl, h, Nat.le_refl _⟩
  | cons edit rest ih =>
    obtain ⟨doc₁, hstep, h₁, hle₁⟩ := h.replaceLine_ok (inRange edit List.mem_cons_self) edit.2
    obtain ⟨doc₂, hrun, h₂, hle₂⟩ := ih h₁ fun other ho =>
      Nat.lt_of_lt_of_le (inRange other (List.mem_cons_of_mem _ ho)) hle₁
    refine ⟨doc₂, ?_, h₂, Nat.le_trans hle₁ hle₂⟩
    rw [replaceLines, hstep]
    exact hrun

/-- A search in ascending numbers finds the least. -/
theorem find?_sortDistinct {numbers : List Nat} {p : Nat → Bool} {i : Nat}
    (h : (sortDistinct numbers).find? p = some i) :
    i ∈ numbers ∧ p i = true ∧ ∀ j ∈ numbers, p j = true → i ≤ j := by
  obtain ⟨hi, before, after, hsplit, hbefore⟩ := List.find?_eq_some_iff_append.mp h
  have hsorted := sortDistinct_pairwise numbers
  rw [hsplit] at hsorted
  obtain ⟨-, hafter, -⟩ := List.pairwise_append.mp hsorted
  refine ⟨mem_sortDistinct.mp (List.mem_of_find?_eq_some h), hi, ?_⟩
  intro j hj hp
  rw [← mem_sortDistinct, hsplit, List.mem_append, List.mem_cons] at hj
  rcases hj with hj | rfl | hj
  · have hno := hbefore j hj
    rw [hp] at hno
    cases hno
  · exact Nat.le_refl _
  · exact Nat.le_of_lt ((List.pairwise_cons.mp hafter).1 j hj)

/-- An advance ends with the least listed line that is not there, before anything is replaced, or all
its replacements succeed. -/
theorem Consistent.advanceLines_cases (h : doc.Consistent) (set : TokenSet) (lines : List Nat) :
    (∃ i ∈ lines, doc.lineCount ≤ i ∧ (∀ j ∈ lines, doc.lineCount ≤ j → i ≤ j) ∧
      doc.advanceLines set lines = (.error ⟨i + 1, doc.lineCount⟩, doc)) ∨
    ((∀ i ∈ lines, i < doc.lineCount) ∧ ∃ edits doc',
      doc.advancedLines set (sortDistinct lines) = .ok edits ∧
      (∀ edit ∈ edits, edit.1 < doc.lineCount) ∧ edits.length = lines.toFinset.card ∧
      doc.advanceLines set lines = (.ok edits.length, doc')) := by
  cases hfind : (sortDistinct lines).find? fun i => doc.lineCount ≤ i with
  | some i =>
    obtain ⟨hmem, hout, hleast⟩ := find?_sortDistinct hfind
    refine .inl ⟨i, hmem, of_decide_eq_true hout,
      fun j hj hle => hleast j hj (decide_eq_true hle), ?_⟩
    rw [advanceLines, advancedLines_eq, hfind]
  | none =>
    have hsorted : ∀ i ∈ sortDistinct lines, i < doc.lineCount := by
      intro i hi
      have hin := List.find?_eq_none.mp hfind i hi
      rw [decide_eq_true_eq] at hin
      exact Nat.lt_of_not_le hin
    have hcomputed := advancedLines_of_lt set hsorted
    have inRange : ∀ edit ∈ (sortDistinct lines).map fun i =>
        (i, set.advance ((doc.line? i).getD [])), edit.1 < doc.lineCount := by
      intro edit hedit
      obtain ⟨i, hi, rfl⟩ := List.mem_map.mp hedit
      exact hsorted i hi
    obtain ⟨doc', hrun, -⟩ := h.replaceLines_ok fun edit hedit =>
      inRange edit (List.mem_reverse.mp hedit)
    refine .inr ⟨fun i hi => hsorted i (mem_sortDistinct.mpr hi), _, doc', hcomputed, inRange, ?_, ?_⟩
    · rw [List.length_map, sortDistinct_length]
    · simp only [advanceLines, hcomputed, hrun]

/-- Lines that are not there are told by the least of them, and the document stays as it is. If all are
there, an advance succeeds, because each replacement does whatever others were made before it. -/
theorem advanceLines_outcome (consistent : doc.Consistent) (set : TokenSet) :
    (∀ i new, doc.lineCount ≤ i →
      doc.replaceLine i new = (.error ⟨i + 1, doc.lineCount⟩, doc)) ∧
    (∀ lines : List Nat, (∃ i ∈ lines, doc.lineCount ≤ i) →
      ∃ i ∈ lines, doc.lineCount ≤ i ∧ (∀ j ∈ lines, doc.lineCount ≤ j → i ≤ j) ∧
        doc.advanceLines set lines = (.error ⟨i + 1, doc.lineCount⟩, doc)) ∧
    ∀ lines : List Nat, (∀ i ∈ lines, i < doc.lineCount) →
      ∃ edits doc', doc.advancedLines set (sortDistinct lines) = .ok edits ∧
        doc.advanceLines set lines = (.ok lines.toFinset.card, doc') ∧
        ∀ made edit rest, edits.reverse = made ++ edit :: rest →
          ∃ doc₁ doc₂, doc.replaceLines made = (.ok (), doc₁) ∧
            doc₁.replaceLine edit.1 edit.2 = (.ok (), doc₂) := by
  refine ⟨fun i new hi => replaceLine_of_le hi new, ?_, ?_⟩
  · intro lines hout
    rcases consistent.advanceLines_cases set lines with hfail | ⟨inRange, -⟩
    · exact hfail
    · obtain ⟨i, hi, hle⟩ := hout
      exact absurd (inRange i hi) (Nat.not_lt_of_le hle)
  · intro lines inRange
    rcases consistent.advanceLines_cases set lines with
      ⟨i, hi, hle, -⟩ | ⟨-, edits, doc', hcomputed, hedits, hlength, hrun⟩
    · exact absurd (inRange i hi) (Nat.not_lt_of_le hle)
    · refine ⟨edits, doc', hcomputed, hlength ▸ hrun, ?_⟩
      intro made edit rest hsplit
      have hmem : ∀ other ∈ made ++ edit :: rest, other.1 < doc.lineCount :=
        fun other ho => hedits other (List.mem_reverse.mp (hsplit ▸ ho))
      obtain ⟨doc₁, hmade, h₁, hle⟩ := consistent.replaceLines_ok fun other ho =>
        hmem other (List.mem_append_left _ ho)
      have hlt : edit.1 < doc₁.lineCount :=
        Nat.lt_of_lt_of_le (hmem edit (List.mem_append_right _ List.mem_cons_self)) hle
      obtain ⟨doc₂, hstep, -⟩ := h₁.replaceLine_ok hlt edit.2
      exact ⟨doc₁, doc₂, hmade, hstep⟩

/-- Of two lines that are not there the nearer is told, though it is listed last. -/
theorem advanceLines_outcome_standard :
    (ofText "- a\n+ b".toList).Consistent ∧
    (ofText "- a\n+ b".toList).advanceLines .standard [9, 0, 4] =
      (.error ⟨5, 2⟩, ofText "- a\n+ b".toList) ∧
    ∃ doc', (ofText "- a\n+ b".toList).advanceLines .standard [1, 0, 1] = (.ok 2, doc') := by
  have hcount : (ofText "- a\n+ b".toList).lineCount = 2 := by decide
  obtain ⟨-, hfail, hsucceed⟩ :=
    advanceLines_outcome (ofText_consistent "- a\n+ b".toList) .standard
  rw [hcount] at hfail hsucceed
  refine ⟨ofText_consistent _, ?_, ?_⟩
  · obtain ⟨i, hi, hle, hleast, hrun⟩ := hfail [9, 0, 4] ⟨9, by decide, by decide⟩
    have hfour := hleast 4 (by decide) (by decide)
    have he : i = 4 := by
      simp only [List.mem_cons, List.not_mem_nil, or_false] at hi
      omega
    rw [hrun, he]
  · obtain ⟨_, doc', -, hrun, -⟩ := hsucceed [1, 0, 1] (by decide)
    exact ⟨doc', hrun⟩

end Outcome

end Checklist.Document
