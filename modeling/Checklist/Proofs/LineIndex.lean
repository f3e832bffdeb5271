import Checklist.Proofs.Rows

namespace Checklist

namespace Text

/-- The line feed of a row, where rows follow it. -/
def feed (post : List Text) : Text :=
  if post = [] then [] else ['\n']

theorem following_eq (post : List Text) : following post = feed post ++ join ['\n'] post := by
  cases post with
  | nil => rfl
  | cons row post =>
    have h := join_append_cons [] row post
    rw [List.nil_append, ended_nil, List.nil_append] at h
    simp [following, feed, h]

theorem feed_eq_of_length {post post' : List Text} (h : post.length = post'.length) :
    feed post = feed post' := by
  simp only [feed, ← List.length_eq_zero_iff, h]

/-- The place of a row and its line feed in its text. -/
theorem eq_of_rows_eq_raw {t row : Text} {pre post : List Text} (h : t.rows = pre ++ row :: post) :
    t = ended pre ++ (row ++ feed post) ++ join ['\n'] post := by
  rw [eq_of_rows_eq h, following_eq]
  simp only [List.append_assoc]

/-- A row with its line feed, if rows follow it. -/
def rawRow? (rows : List Text) (i : Nat) : Option Text :=
  rows[i]?.map fun row => row ++ feed (rows.drop (i + 1))

theorem rawRow?_append_left {pre post : List Text} (hpost : post ≠ []) {i : Nat}
    (hi : i < pre.length) : rawRow? (pre ++ post) i = pre[i]?.map (· ++ ['\n']) := by
  have hdrop : (pre ++ post).drop (i + 1) ≠ [] := by
    rw [List.drop_append_of_le_length hi]
    exact List.append_ne_nil_of_right_ne_nil _ hpost
  rw [rawRow?, List.getElem?_append_left hi, feed, if_neg hdrop]

theorem rawRow?_append_right (pre post : List Text) (i : Nat) :
    rawRow? (pre ++ post) (pre.length + i) = rawRow? post i := by
  rw [rawRow?, rawRow?, List.getElem?_append_right (Nat.le_add_right _ _), Nat.add_sub_cancel_left,
    Nat.add_assoc, List.drop_length_add_append]

/-- The row of a place, and the rows on both sides of it. -/
theorem exists_split {rows : List Text} {i : Nat} {row : Text} (h : rows[i]? = some row) :
    ∃ pre post, rows = pre ++ row :: post ∧ pre.length = i := by
  obtain ⟨hi, rfl⟩ := List.getElem?_eq_some_iff.mp h
  refine ⟨rows.take i, rows.drop (i + 1), ?_, List.length_take_of_le (Nat.le_of_lt hi)⟩
  rw [← List.drop_eq_getElem_cons hi, List.take_append_drop]

theorem drop_split (pre : List Text) (row : Text) (post : List Text) :
    (pre ++ row :: post).drop (pre.length + 1) = post := by
  rw [List.drop_append, Nat.add_sub_cancel_left]
  simp

end Text

namespace LineIndex
open Text

/-- Where rows begin whose first begins at `offset`. -/
def rowStarts (offset : Nat) : List Text → List Nat
  | [] => []
  | row :: rest => offset :: rowStarts (offset + row.byteLength + 1) rest

theorem cons_startsAfter (offset : Nat) (t : Text) :
    offset :: startsAfter offset t = rowStarts offset t.rows := by
  induction t generalizing offset with
  | nil => rfl
  | cons c t ih =>
    by_cases hc : c = '\n'
    · subst c
      simp only [startsAfter, ↓reduceIte, rows, splitAll_separator_cons]
      rw [ih]
      rfl
    · obtain ⟨row, rest, hr⟩ := List.exists_cons_of_ne_nil (splitAll_ne_nil '\n' t)
      have hstart := ih (offset + c.utf8Size)
      rw [rows, hr, rowStarts, List.cons.injEq] at hstart
      rw [rows, splitAll_cons_of_ne hc hr]
      simp only [startsAfter, hc, ↓reduceIte, rowStarts, hstart.2, byteLength_cons, Nat.add_assoc]

theorem starts_ofText (t : Text) : (ofText t).starts = rowStarts 0 t.rows :=
  cons_startsAfter 0 t

theorem rowStarts_length (offset : Nat) (rows : List Text) :
    (rowStarts offset rows).length = rows.length := by
  induction rows generalizing offset with
  | nil => rfl
  | cons row rest ih => simp [rowStarts, ih]

theorem rowStarts_append (offset : Nat) (pre post : List Text) :
    rowStarts offset (pre ++ post) =
      rowStarts offset pre ++ rowStarts (offset + (ended pre).byteLength) post := by
  induction pre generalizing offset with
  | nil => simp [rowStarts]
  | cons row pre ih =>
    simp [rowStarts, ih, Nat.add_assoc]

@[simp] theorem lineCount_ofText (t : Text) : (ofText t).lineCount = t.rows.length := by
  rw [lineCount, starts_ofText, rowStarts_length]

theorem lineSpan_eq_none_iff {index : LineIndex} {i : Nat} :
    index.lineSpan i = none ↔ index.lineCount ≤ i := by
  rw [lineSpan, Option.map_eq_none_iff, List.getElem?_eq_none_iff]
  rfl

/-- A line is one of the rows, or it is not there. -/
theorem line_cases (t : Text) (i : Nat) :
    (t.rows[i]? = none ∧ (ofText t).lineSpan i = none) ∨
    ∃ pre row post, t.rows = pre ++ row :: post ∧ pre.length = i ∧ t.rows[i]? = some row ∧
      t.rows.drop (i + 1) = post := by
  cases hrow : t.rows[i]? with
  | none =>
    refine .inl ⟨rfl, ?_⟩
    rw [lineSpan_eq_none_iff, lineCount_ofText]
    exact List.getElem?_eq_none_iff.mp hrow
  | some row =>
    obtain ⟨pre, post, hsplit, rfl⟩ := exists_split hrow
    exact .inr ⟨pre, row, post, hsplit, rfl, rfl, by rw [hsplit, drop_split]⟩

section Place

variable {t row : Text} {pre post : List Text}

theorem starts_split (h : t.rows = pre ++ row :: post) :
    (ofText t).starts = rowStarts 0 pre ++ (ended pre).byteLength ::
      rowStarts ((ended pre).byteLength + row.byteLength + 1) post := by
  rw [starts_ofText, h, rowStarts_append, Nat.zero_add, rowStarts]

/-- A line is a row with the line feed after it. -/
theorem lineSpan_ofText (h : t.rows = pre ++ row :: post) :
    (ofText t).lineSpan pre.length = some ⟨(ended pre).byteLength,
      (ended pre).byteLength + (row ++ feed post).byteLength⟩ := by
  have hlen : (rowStarts 0 pre).length = pre.length := rowStarts_length 0 pre
  have hstart : (ofText t).starts[pre.length]? = some (ended pre).byteLength := by
    rw [starts_split h, List.getElem?_append_right (Nat.le_of_eq hlen), hlen]
    simp
  have hnext : ((ofText t).starts[pre.length + 1]?).getD (ofText t).length =
      (ended pre).byteLength + (row ++ feed post).byteLength := by
    rw [starts_split h, List.getElem?_append_right (by omega), hlen]
    cases post with
    | nil =>
      have ht := congrArg byteLength (eq_of_rows_eq h)
      simpa [rowStarts, feed, following, ofText] using ht
    | cons next post => simp [rowStarts, feed, Nat.add_assoc]
  rw [lineSpan, hstart, Option.map_some, hnext]

theorem slice_row (h : t.rows = pre ++ row :: post) :
    t.slice ⟨(ended pre).byteLength, (ended pre).byteLength + (row ++ feed post).byteLength⟩ =
      row ++ feed post := by
  rw [eq_of_rows_eq_raw h]
  exact slice_append _ _ _

/-- The ending of a line is its carriage return and its line feed, where it has them. -/
theorem slice_ending (h : t.rows = pre ++ row :: post) :
    t.slice ⟨(ended pre).byteLength + (content row).byteLength,
      (ended pre).byteLength + (row ++ feed post).byteLength⟩ = carriage row ++ feed post := by
  have ht := eq_of_rows_eq h
  have hc := content_append_carriage row
  generalize content row = line, carriage row = ending at hc ⊢
  subst hc
  have hsplit : t = (ended pre ++ line) ++ (ending ++ feed post) ++ join ['\n'] post := by
    rw [ht, following_eq]
    simp only [List.append_assoc]
  have hstop : (ended pre).byteLength + (line ++ ending ++ feed post).byteLength =
      (ended pre ++ line).byteLength + (ending ++ feed post).byteLength := by
    simp only [byteLength_append, Nat.add_assoc]
  rw [hstop, ← byteLength_append, hsplit]
  exact slice_append _ _ _

theorem stripEnding_row (h : t.rows = pre ++ row :: post) :
    (row ++ feed post).stripEnding = content row := by
  unfold feed
  split
  · have hrow : '\n' ∉ row := no_feed_of_mem_rows (t := t) (by simp [h])
    rw [List.append_nil, stripEnding_of_no_feed hrow]
  · exact stripEnding_append_feed row

theorem contentSpan_ofText (h : t.rows = pre ++ row :: post) :
    (ofText t).contentSpan t pre.length = some ⟨(ended pre).byteLength,
      (ended pre).byteLength + (content row).byteLength⟩ := by
  rw [contentSpan, lineSpan_ofText h, Option.map_some, slice_row h, stripEnding_row h]

end Place

section Lines

variable {t row : Text} {pre post : List Text}

theorem lineOf_succ (t : Text) (offset : Nat) :
    (ofText t).lineOf offset + 1 = (ofText t).starts.countP (· ≤ offset) := by
  simp [lineOf, ofText]

theorem le_of_mem_rowStarts {offset start : Nat} {rows : List Text}
    (h : start ∈ rowStarts offset rows) : offset ≤ start := by
  induction rows generalizing offset with
  | nil => simp [rowStarts] at h
  | cons row rest ih =>
    rcases List.mem_cons.mp h with rfl | h
    · exact Nat.le_refl _
    · have := ih h
      omega

theorem lt_of_mem_rowStarts {offset start : Nat} {rows : List Text}
    (h : start ∈ rowStarts offset rows) : start < offset + (ended rows).byteLength := by
  induction rows generalizing offset with
  | nil => simp [rowStarts] at h
  | cons row rest ih =>
    simp only [ended_cons, byteLength_append, byteLength_cons, utf8Size_feed]
    rcases List.mem_cons.mp h with rfl | h
    · omega
    · have := ih h
      omega

/-- The line of an offset is the row that reaches from before it to its line feed. -/
theorem lineOf_ofText (h : t.rows = pre ++ row :: post) {offset : Nat}
    (hlow : (ended pre).byteLength ≤ offset)
    (hhigh : post = [] ∨ offset ≤ (ended pre).byteLength + row.byteLength) :
    (ofText t).lineOf offset = pre.length := by
  have hbefore : (rowStarts 0 pre).countP (· ≤ offset) = pre.length := by
    rw [← rowStarts_length 0 pre]
    apply List.countP_eq_length.mpr
    intro start hs
    have := lt_of_mem_rowStarts hs
    simp only [decide_eq_true_eq]
    omega
  have hafter : (rowStarts ((ended pre).byteLength + row.byteLength + 1) post).countP
      (· ≤ offset) = 0 := by
    apply List.countP_eq_zero.mpr
    intro start hs
    have hs' := le_of_mem_rowStarts hs
    rcases hhigh with rfl | hhigh
    · simp [rowStarts] at hs
    · simp only [decide_eq_true_eq]
      omega
  have hcount := lineOf_succ t offset
  rw [starts_split h, List.countP_append, List.countP_cons_of_pos (by simpa using hlow),
    hbefore, hafter] at hcount
  omega

/-- A row begins on its own line. -/
theorem lineOf_ended (h : t.rows = pre ++ row :: post) :
    (ofText t).lineOf (ended pre).byteLength = pre.length :=
  lineOf_ofText h (Nat.le_refl _) (.inr (Nat.le_add_right _ _))

end Lines

end LineIndex

end Checklist
