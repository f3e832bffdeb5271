import Checklist.Proofs.Editing
import Checklist.Proofs.Period
import Checklist.Proofs.Regions

namespace Checklist
open Text

namespace Text

theorem feed_drop_of_lt {rows : List Text} {i : Nat} (h : i + 1 < rows.length) :
    feed (rows.drop (i + 1)) = ['\n'] :=
  if_neg fun hnil => Nat.not_le_of_lt h (List.drop_eq_nil_iff.mp hnil)

theorem feed_drop_of_last {rows : List Text} {i : Nat} (h : i + 1 = rows.length) :
    feed (rows.drop (i + 1)) = [] :=
  if_pos (List.drop_eq_nil_iff.mpr (Nat.le_of_eq h.symm))

end Text

namespace Document

section Ending

variable {doc : Document}

/-- A line with its ending is its content and the ending after it. The ending of a line before the
last one is its line feed and the carriage return before that, if there is one. The last line has no
line feed, and still a carriage return at its end is its ending and not content. -/
theorem line_append_ending (consistent : doc.Consistent) {i : Nat} (inRange : i < doc.lineCount) :
    ∃ raw line ending, doc.rawLine? i = some raw ∧ doc.line? i = some line ∧
      doc.ending? i = some ending ∧ raw = line ++ ending ∧
      (i + 1 < doc.lineCount → ∃ front, '\n' ∉ front ∧ raw = front ++ ['\n'] ∧
        ending = if front.getLast? = some '\r' then ['\r', '\n'] else ['\n']) ∧
      (i + 1 = doc.lineCount → '\n' ∉ raw ∧
        ending = if raw.getLast? = some '\r' then ['\r'] else []) := by
  obtain ⟨row, hrow⟩ := consistent.exists_row inRange
  have hfree : '\n' ∉ row := no_feed_of_mem_rows (List.mem_of_getElem? hrow)
  have hraw : doc.rawLine? i = some (row ++ feed (doc.text.rows.drop (i + 1))) := by
    rw [consistent.rawLine?_eq_rawRow?, rawRow?, hrow, Option.map_some]
  have hline : doc.line? i = some (content row) := by
    rw [consistent.line?_eq, hrow, Option.map_some]
  have hending : doc.ending? i = some (carriage row ++ feed (doc.text.rows.drop (i + 1))) := by
    rw [consistent.ending?_eq, hrow, Option.map_some]
  refine ⟨_, _, _, hraw, hline, hending, ?_, ?_, ?_⟩
  · rw [← List.append_assoc, content_append_carriage]
  · intro hlt
    rw [consistent.lineCount_eq] at hlt
    rw [feed_drop_of_lt hlt]
    refine ⟨row, hfree, rfl, ?_⟩
    rw [carriage]
    split
    · rfl
    · rfl
  · intro hlast
    rw [consistent.lineCount_eq] at hlast
    rw [feed_drop_of_last hlast, List.append_nil, List.append_nil]
    exact ⟨hfree, rfl⟩

/-- Two carriage returns before a line feed, of which one is content, and one on the last line. -/
theorem line_append_ending_returns :
    (ofText "é\r\r\n\r".toList).Consistent ∧
    (∀ i ∈ [0, 1], i < (ofText "é\r\r\n\r".toList).lineCount) ∧
    (∃ raw, (ofText "é\r\r\n\r".toList).rawLine? 0 = some raw ∧
      raw = "é\r".toList ++ "\r\n".toList) ∧
    ∃ ending, (ofText "é\r\r\n\r".toList).rawLine? 1 = some ([] ++ ending) ∧ ending = ['\r'] := by
  have inRange : ∀ i ∈ [0, 1], i < (ofText "é\r\r\n\r".toList).lineCount := by decide
  refine ⟨ofText_consistent _, inRange, ?_, ?_⟩
  · obtain ⟨raw, line, ending, hraw, hline, hending, hsplit, -, -⟩ :=
      line_append_ending (ofText_consistent _) (inRange 0 (by decide))
    cases Option.some.inj (hline.symm.trans (by decide : _ = some "é\r".toList))
    cases Option.some.inj (hending.symm.trans (by decide : _ = some "\r\n".toList))
    exact ⟨raw, hraw, hsplit⟩
  · obtain ⟨raw, line, ending, hraw, hline, -, hsplit, -, hlast⟩ :=
      line_append_ending (ofText_consistent _) (inRange 1 (by decide))
    cases Option.some.inj (hline.symm.trans (by decide : _ = some []))
    obtain ⟨-, hending⟩ := hlast (by decide)
    cases Option.some.inj (hraw.symm.trans (by decide : _ = some ['\r']))
    exact ⟨ending, hsplit ▸ hraw, hending⟩

/-- Not every last line is all content: a carriage return that ends the text is dropped from it, and
no line feed comes after it. -/
theorem not_line_append_ending :
    ¬ ∀ (t : Text) (i : Nat), i < (ofText t).lineCount →
      ∃ raw line ending, (ofText t).rawLine? i = some raw ∧ (ofText t).line? i = some line ∧
        raw = line ++ ending ∧
        (i + 1 < (ofText t).lineCount → ∃ front, '\n' ∉ front ∧ raw = front ++ ['\n'] ∧
          ending = if front.getLast? = some '\r' then ['\r', '\n'] else ['\n']) ∧
        (i + 1 = (ofText t).lineCount → ending = []) := by
  intro h
  obtain ⟨raw, line, ending, hraw, hline, hsplit, -, hlast⟩ := h "- a\r".toList 0 (by decide)
  rw [hlast (by decide), List.append_nil] at hsplit
  subst hsplit
  exact absurd (hraw.trans hline.symm) (by decide)

end Ending

end Document

namespace Text

/-- A text with every line feed replaced by a carriage return and a line feed. -/
def crlf (t : Text) : Text :=
  t.flatMap fun c => if c = '\n' then ['\r', '\n'] else [c]

section Crlf

theorem crlf_append (t u : Text) : crlf (t ++ u) = crlf t ++ crlf u :=
  List.flatMap_append

theorem crlf_of_no_feed {row : Text} (h : '\n' ∉ row) : crlf row = row := by
  induction row with
  | nil => rfl
  | cons c row ih =>
    rw [List.mem_cons, not_or] at h
    rw [crlf, List.flatMap_cons, if_neg (Ne.symm h.1)]
    exact congrArg (c :: ·) (ih h.2)

theorem crlf_append_feed {row : Text} (h : '\n' ∉ row) (t : Text) :
    crlf (row ++ '\n' :: t) = (row ++ ['\r']) ++ '\n' :: crlf t := by
  rw [crlf_append, crlf_of_no_feed h, List.append_assoc]
  rfl

/-- A row with a carriage return more at its end, unless it is the last of `count` rows. -/
def returned (count i : Nat) (row : Text) : Text :=
  if i + 1 < count then row ++ ['\r'] else row

theorem rows_crlf (t : Text) : (crlf t).rows = t.rows.mapIdx (returned t.rows.length) := by
  induction t using rows_induction with
  | last row h =>
    rw [crlf_of_no_feed h, rows_of_not_mem h]
    rfl
  | more row t h ih =>
    have hfree : '\n' ∉ row ++ ['\r'] := by simp [h]
    have hpos := List.length_pos_iff.mpr (rows_ne_nil t)
    have hfirst : returned ((rows t).length + 1) 0 row = row ++ ['\r'] :=
      if_pos (Nat.succ_lt_succ hpos)
    have hlater (i : Nat) :
        returned ((rows t).length + 1) (i + 1) = returned (rows t).length i := by
      funext row
      simp only [returned, Nat.add_lt_add_iff_right]
    rw [crlf_append_feed h, rows_append_feed hfree, rows_append_feed h, ih, List.length_cons,
      List.mapIdx_cons, hfirst]
    simp only [hlater]

end Crlf

end Text

namespace TokenSet

variable {set : TokenSet}

section Returned

/-- What no entry holds may follow a line and stays behind it when the line is advanced. -/
theorem Accepted.advance_append_cons (h : set.Accepted) {c : Char} (hblank : isBlank c = false)
    (hc : ∀ place, c ∉ set.entry place) (line t : Text) :
    set.advance (line ++ c :: t) = set.advance line ++ c :: t := by
  rcases advance_cases set line with ⟨place, rest, -, hrest, hadvance⟩ | ⟨hnone, hadvance⟩
  · have hline : line ++ c :: t = indent line ++ set.entry place ++ (rest ++ c :: t) := by
      conv => lhs; rw [← indent_append_body line, hrest]
      simp only [List.append_assoc]
    rw [hline, h.advance_entry (blank_indent line), hadvance]
    simp only [List.append_assoc]
  · have hbody := body_append_cons hblank line t
    have hnone' : ∀ entry ∈ set.rotation, ¬ entry <+: body (line ++ c :: t) := by
      intro entry hentry
      obtain ⟨place, hplace⟩ := List.mem_iff_getElem?.mp hentry
      rw [hbody, ← entry_of_getElem? hplace, prefix_append_cons_iff (hc place),
        entry_of_getElem? hplace]
      exact hnone entry hentry
    rw [advance_of_no_entry hnone', hadvance, hbody, indent_append_cons hblank]
    simp only [List.append_assoc]

theorem Accepted.advance_append_return (h : set.Accepted) (line : Text) :
    set.advance (line ++ ['\r']) = set.advance line ++ ['\r'] :=
  h.advance_append_cons rfl (fun place => (h.visible_entry place).no_return) line []

/-- It makes no difference to a row whether a carriage return at its end is content. -/
theorem Accepted.advanceRow_eq_advance (h : set.Accepted) (row : Text) :
    set.advanceRow row = set.advance row := by
  conv => rhs; rw [← content_append_carriage row]
  rw [advanceRow]
  unfold carriage
  split
  · exact (h.advance_append_return _).symm
  · rw [List.append_nil, List.append_nil]

theorem Accepted.advanceRow_returned (h : set.Accepted) (count i : Nat) (row : Text) :
    set.advanceRow (returned count i row) = returned count i (set.advanceRow row) := by
  rw [h.advanceRow_eq_advance, h.advanceRow_eq_advance]
  unfold returned
  split
  · exact h.advance_append_return row
  · rfl

theorem Accepted.kind_returned (h : set.Accepted) (count i : Nat) (row : Text) :
    set.kind (returned count i row) = set.kind row := by
  unfold returned
  split
  · exact h.kind_append_cons rfl (fun _ hm => (h.visible _ hm).no_return) row []
  · rfl

theorem Accepted.kinds_crlf (h : set.Accepted) (t : Text) :
    set.kinds (crlf t) = set.kinds t := by
  apply List.ext_getElem?
  intro i
  rw [kinds, kinds, rows_crlf, List.getElem?_map, List.getElem?_map, List.getElem?_mapIdx,
    Option.map_map]
  congr 1
  funext row
  exact h.kind_returned _ _ row

end Returned

end TokenSet

namespace Document
open TokenSet

variable {doc doc' twin twin' : Document} {set : TokenSet}

theorem Advanced.text_crlf (hset : set.Accepted) {lines : List Nat}
    (h : Advanced set lines doc doc') (h' : Advanced set lines twin twin')
    (text : twin.text = crlf doc.text) : twin'.text = crlf doc'.text := by
  apply eq_of_rows
  rw [h'.rows, text, rows_crlf, rows_crlf, h.rows, List.mapIdx_mapIdx, List.mapIdx_mapIdx,
    List.length_mapIdx]
  congr 1
  funext i row
  simp only [Function.comp_apply]
  split
  · exact hset.advanceRow_returned _ _ _
  · rfl

/-- A carriage return more before each line feed makes no difference, also where one was before. The
regions are the same, and an advance of the same lines counts as many and leaves the text that it
leaves without, with a carriage return more before each line feed. -/
theorem advanceLines_crlf {engine : Engine} {states : List State} {comment : Text}
    (accepted : ofStates engine states comment = .ok set) (consistent : doc.Consistent)
    (consistent' : twin.Consistent) (text : twin.text = crlf doc.text) {lines : List Nat}
    (inRange : ∀ i ∈ lines, i < doc.lineCount) :
    twin.regions set = doc.regions set ∧ twin.lineCount = doc.lineCount ∧
    ∃ count doc' twin', doc.advanceLines set lines = (.ok count, doc') ∧
      twin.advanceLines set lines = (.ok count, twin') ∧ twin'.text = crlf doc'.text := by
  have hset := accepted_of_ofStates accepted
  have hcount : twin.lineCount = doc.lineCount := by
    rw [consistent'.lineCount_eq, consistent.lineCount_eq, text, rows_crlf, List.length_mapIdx]
  obtain ⟨doc', hrun, h⟩ := consistent.advanceLines_eq hset inRange
  obtain ⟨twin', hrun', h'⟩ := consistent'.advanceLines_eq hset fun i hi => hcount ▸ inRange i hi
  refine ⟨?_, hcount, _, doc', twin', hrun, hrun', h.text_crlf hset h' text⟩
  rw [regions, regions, Region.ofText_eq_ofKinds hset, Region.ofText_eq_ofKinds hset, text,
    hset.kinds_crlf]

/-- A line that had a carriage return already, a blank one, and one on the last line. -/
theorem advanceLines_crlf_mixed :
    ofStates .usual defaultStates defaultComment = .ok standard ∧
    (ofText "- a\r\n+ b\n\nx\r".toList).Consistent ∧
    (ofText "- a\r\r\n+ b\r\n\r\nx\r".toList).Consistent ∧
    (ofText "- a\r\r\n+ b\r\n\r\nx\r".toList).text =
      crlf (ofText "- a\r\n+ b\n\nx\r".toList).text ∧
    (∀ i ∈ [3, 0, 2], i < (ofText "- a\r\n+ b\n\nx\r".toList).lineCount) ∧
    ∃ count doc' twin',
      (ofText "- a\r\n+ b\n\nx\r".toList).advanceLines standard [3, 0, 2] = (.ok count, doc') ∧
      (ofText "- a\r\r\n+ b\r\n\r\nx\r".toList).advanceLines standard [3, 0, 2] =
        (.ok count, twin') ∧
      count = 3 ∧ doc'.text = "+ a\r\n+ b\n- \n- x\r".toList ∧
      twin'.text = "+ a\r\r\n+ b\r\n- \r\n- x\r".toList := by
  have text : (ofText "- a\r\r\n+ b\r\n\r\nx\r".toList).text =
      crlf (ofText "- a\r\n+ b\n\nx\r".toList).text := by decide
  have inRange : ∀ i ∈ [3, 0, 2], i < (ofText "- a\r\n+ b\n\nx\r".toList).lineCount := by decide
  obtain ⟨-, -, count, doc', twin', hrun, hrun', htext⟩ := advanceLines_crlf ofStates_default
    (ofText_consistent _) (ofText_consistent _) text inRange
  have hcount :
      ((ofText "- a\r\n+ b\n\nx\r".toList).advanceLines standard [3, 0, 2]).1 = .ok 3 := by
    rfl
  have hdoc : ((ofText "- a\r\n+ b\n\nx\r".toList).advanceLines standard [3, 0, 2]).2.text =
      "+ a\r\n+ b\n- \n- x\r".toList := by decide
  rw [hrun] at hcount hdoc
  refine ⟨ofStates_default, ofText_consistent _, ofText_consistent _, text, inRange, count, doc',
    twin', hrun, hrun', Except.ok.inj hcount, hdoc, ?_⟩
  rw [htext, hdoc]
  decide

end Document

end Checklist
