import Checklist.LineIndex

namespace Checklist.Text

/-- The lines of a text as line feeds divide them. A carriage return at the end of one still
belongs to it. -/
def rows (t : Text) : List Text :=
  splitAll '\n' t

/-- Rows that more rows follow, each with its line feed. -/
def ended (rows : List Text) : Text :=
  rows.flatMap (· ++ ['\n'])

/-- How many bytes come before the line at a place. -/
def lineStart (t : Text) (i : Nat) : Nat :=
  (ended (t.rows.take i)).byteLength

/-- Rows that follow another one, each after a line feed. -/
def following (rows : List Text) : Text :=
  rows.flatMap ('\n' :: ·)

/-- A row without the carriage return that ends it. -/
def content (row : Text) : Text :=
  dropFinal '\r' row

/-- The carriage return that ends a row, if one does. -/
def carriage (row : Text) : Text :=
  if row.getLast? = some '\r' then ['\r'] else []

section Splitting

variable {c : Char} {t u : Text}

theorem splitAll_ne_nil (c : Char) (t : Text) : splitAll c t ≠ [] := by
  cases t with
  | nil => simp [splitAll]
  | cons d t =>
    simp only [splitAll]
    split
    · simp
    · split <;> simp

@[simp] theorem splitAll_separator_cons (c : Char) (t : Text) :
    splitAll c (c :: t) = [] :: splitAll c t := by
  obtain ⟨piece, pieces, h⟩ := List.exists_cons_of_ne_nil (splitAll_ne_nil c t)
  simp [splitAll, h]

theorem splitAll_cons_of_ne {d : Char} (hd : d ≠ c) {piece : Text} {pieces : List Text}
    (h : splitAll c t = piece :: pieces) : splitAll c (d :: t) = (d :: piece) :: pieces := by
  simp [splitAll, h, hd]

theorem splitAll_of_not_mem (h : c ∉ t) : splitAll c t = [t] := by
  induction t with
  | nil => rfl
  | cons d t ih =>
    rw [List.mem_cons, not_or] at h
    exact splitAll_cons_of_ne (Ne.symm h.1) (ih h.2)

theorem splitAll_append_separator (h : c ∉ t) (u : Text) :
    splitAll c (t ++ c :: u) = t :: splitAll c u := by
  induction t with
  | nil => simp
  | cons d t ih =>
    rw [List.mem_cons, not_or] at h
    exact splitAll_cons_of_ne (Ne.symm h.1) (ih h.2)

theorem not_mem_of_mem_splitAll {piece : Text} (h : piece ∈ splitAll c t) : c ∉ piece := by
  induction t generalizing piece with
  | nil =>
    rw [splitAll, List.mem_singleton] at h
    simp [h]
  | cons d t ih =>
    obtain ⟨first, pieces, hs⟩ := List.exists_cons_of_ne_nil (splitAll_ne_nil c t)
    by_cases hd : d = c
    · subst d
      rw [splitAll_separator_cons, List.mem_cons] at h
      rcases h with rfl | h
      · simp
      · exact ih h
    · rw [splitAll_cons_of_ne hd hs, List.mem_cons] at h
      rcases h with rfl | h
      · have hfirst : c ∉ first := ih (hs ▸ List.mem_cons_self)
        simp [hfirst, Ne.symm hd]
      · exact ih (hs ▸ List.mem_cons_of_mem _ h)

theorem join_cons (separator piece : Text) {pieces : List Text} (h : pieces ≠ []) :
    join separator (piece :: pieces) = piece ++ separator ++ join separator pieces := by
  cases pieces with
  | nil => exact absurd rfl h
  | cons => rfl

/-- Each piece is followed by a separator, but for the last one. -/
theorem join_append_separator {separator : Text} {pieces : List Text} (h : pieces ≠ []) :
    join separator pieces ++ separator = pieces.flatMap (· ++ separator) := by
  induction pieces with
  | nil => exact absurd rfl h
  | cons piece rest ih =>
    rw [List.flatMap_cons]
    by_cases hr : rest = []
    · subst hr
      exact (List.append_nil _).symm
    · rw [join_cons _ _ hr, ← ih hr, List.append_assoc, List.append_assoc]

theorem mem_join {d : Char} {separator : Text} {pieces : List Text}
    (h : d ∈ join separator pieces) : d ∈ separator ∨ ∃ piece ∈ pieces, d ∈ piece := by
  induction pieces with
  | nil => cases h
  | cons piece rest ih =>
    by_cases hr : rest = []
    · subst hr
      exact .inr ⟨piece, List.mem_cons_self, h⟩
    · rw [join_cons _ _ hr, List.append_assoc, List.mem_append, List.mem_append] at h
      rcases h with h | h | h
      · exact .inr ⟨piece, List.mem_cons_self, h⟩
      · exact .inl h
      · rcases ih h with h | ⟨other, hother, hd⟩
        · exact .inl h
        · exact .inr ⟨other, List.mem_cons_of_mem _ hother, hd⟩

theorem join_splitAll (c : Char) (t : Text) : join [c] (splitAll c t) = t := by
  induction t with
  | nil => rfl
  | cons d t ih =>
    by_cases hd : d = c
    · subst d
      rw [splitAll_separator_cons, join_cons _ _ (splitAll_ne_nil _ t), ih]
      rfl
    · obtain ⟨first, pieces, hs⟩ := List.exists_cons_of_ne_nil (splitAll_ne_nil c t)
      rw [splitAll_cons_of_ne hd hs]
      rw [hs] at ih
      cases pieces with
      | nil => exact congrArg (d :: ·) ih
      | cons => exact congrArg (d :: ·) ih

theorem splitAll_join {pieces : List Text} (hne : pieces ≠ []) (h : ∀ piece ∈ pieces, c ∉ piece) :
    splitAll c (join [c] pieces) = pieces := by
  induction pieces with
  | nil => exact absurd rfl hne
  | cons piece pieces ih =>
    have hpiece := h piece List.mem_cons_self
    by_cases hp : pieces = []
    · subst hp
      exact splitAll_of_not_mem hpiece
    · rw [join_cons _ _ hp, List.append_assoc, List.singleton_append,
        splitAll_append_separator hpiece,
        ih hp (fun p hp => h p (List.mem_cons_of_mem _ hp))]

end Splitting

section Rows

variable {t row : Text} {pre post : List Text}

theorem rows_ne_nil (t : Text) : rows t ≠ [] :=
  splitAll_ne_nil '\n' t

theorem rows_of_not_mem (h : '\n' ∉ row) : rows row = [row] :=
  splitAll_of_not_mem h

theorem rows_append_feed (h : '\n' ∉ row) (t : Text) : rows (row ++ '\n' :: t) = row :: rows t :=
  splitAll_append_separator h t

theorem no_feed_of_mem_rows (h : row ∈ rows t) : '\n' ∉ row :=
  not_mem_of_mem_splitAll h

theorem join_rows (t : Text) : join ['\n'] (rows t) = t :=
  join_splitAll '\n' t

theorem eq_of_rows {u : Text} (h : rows t = rows u) : t = u := by
  rw [← join_rows t, h, join_rows]

theorem rows_join {rows : List Text} (hne : rows ≠ []) (h : ∀ row ∈ rows, '\n' ∉ row) :
    Text.rows (join ['\n'] rows) = rows :=
  splitAll_join hne h

@[simp] theorem ended_nil : ended [] = [] := rfl

@[simp] theorem ended_cons (row : Text) (rows : List Text) :
    ended (row :: rows) = row ++ '\n' :: ended rows := by
  simp [ended]

@[simp] theorem ended_append (pre post : List Text) :
    ended (pre ++ post) = ended pre ++ ended post :=
  List.flatMap_append

/-- A text is a last row, or a row with a line feed before a text. -/
@[elab_as_elim]
theorem rows_induction {motive : Text → Prop} (last : ∀ row, '\n' ∉ row → motive row)
    (more : ∀ row t, '\n' ∉ row → motive t → motive (row ++ '\n' :: t)) (t : Text) : motive t := by
  have key : ∀ rows : List Text, rows ≠ [] → (∀ row ∈ rows, '\n' ∉ row) →
      motive (join ['\n'] rows) := by
    intro rows
    induction rows with
    | nil => intro h _; exact absurd rfl h
    | cons row rest ih =>
      intro _ h
      have hrow := h row List.mem_cons_self
      by_cases hr : rest = []
      · subst hr
        exact last row hrow
      · rw [join_cons _ _ hr, List.append_assoc]
        exact more row _ hrow (ih hr (fun r hm => h r (List.mem_cons_of_mem _ hm)))
  rw [← join_rows t]
  exact key _ (rows_ne_nil t) (fun _ h => no_feed_of_mem_rows h)

/-- A line feed divides the rows before it from those after it. -/
theorem rows_append_cons_feed (t u : Text) : rows (t ++ '\n' :: u) = rows t ++ rows u := by
  induction t using rows_induction with
  | last row h =>
    rw [rows_append_feed h, rows_of_not_mem h]
    rfl
  | more row t h ih =>
    rw [List.append_assoc, List.cons_append, rows_append_feed h, rows_append_feed h, ih]
    rfl

theorem rows_length (t : Text) : (rows t).length = t.count '\n' + 1 := by
  induction t using rows_induction with
  | last row h => rw [rows_of_not_mem h, List.count_eq_zero.mpr h, List.length_singleton]
  | more row t h ih =>
    rw [rows_append_feed h, List.length_cons, ih, List.count_append, List.count_eq_zero.mpr h,
      List.count_cons_self, Nat.zero_add]

theorem rows_ended_append (h : ∀ row ∈ pre, '\n' ∉ row) (t : Text) :
    rows (ended pre ++ t) = pre ++ rows t := by
  induction pre with
  | nil => rfl
  | cons row pre ih =>
    rw [ended_cons, List.append_assoc, List.cons_append, rows_append_feed (h row List.mem_cons_self),
      ih (fun r hr => h r (List.mem_cons_of_mem _ hr)), List.cons_append]

theorem rows_append_following (h : ∀ row ∈ post, '\n' ∉ row) (t : Text) :
    rows (t ++ following post) = rows t ++ post := by
  induction post generalizing t with
  | nil => rw [following, List.flatMap_nil, List.append_nil, List.append_nil]
  | cons row post ih =>
    have hrow := h row List.mem_cons_self
    have hfollowing : following (row :: post) = '\n' :: (row ++ following post) := by
      simp [following]
    rw [hfollowing, rows_append_cons_feed, ih (fun r hr => h r (List.mem_cons_of_mem _ hr)),
      rows_of_not_mem hrow]
    rfl

theorem join_append_cons (pre : List Text) (row : Text) (post : List Text) :
    join ['\n'] (pre ++ row :: post) = ended pre ++ row ++ following post := by
  induction pre with
  | nil =>
    induction post generalizing row with
    | nil => simp [join, following]
    | cons next post ih =>
      rw [List.nil_append, join_cons _ _ (by simp)]
      have hnext := ih next
      simp only [List.nil_append, ended_nil] at hnext
      simp [hnext, following]
  | cons first pre ih =>
    rw [List.cons_append, join_cons _ _ (by simp), ih]
    simp

theorem lineStart_eq (h : rows t = pre ++ post) :
    lineStart t pre.length = (ended pre).byteLength := by
  rw [lineStart, h, List.take_left]

/-- The place of a row in its text. -/
theorem eq_of_rows_eq (h : rows t = pre ++ row :: post) :
    t = ended pre ++ row ++ following post := by
  rw [← join_append_cons, ← h, join_rows]

end Rows

section Carriage

theorem content_append_carriage (row : Text) : content row ++ carriage row = row := by
  unfold content carriage dropFinal
  split
  · rename_i h
    obtain ⟨front, rfl⟩ := List.getLast?_eq_some_iff.mp h
    simp
  · exact List.append_nil row

/-- The place of the content of a row in its text. -/
theorem eq_of_rows_eq_content {t row : Text} {pre post : List Text}
    (h : rows t = pre ++ row :: post) :
    t = ended pre ++ content row ++ (carriage row ++ following post) := by
  rw [← List.append_assoc, List.append_assoc (ended pre), content_append_carriage]
  exact eq_of_rows_eq h

theorem no_feed_content {row : Text} (h : '\n' ∉ row) : '\n' ∉ content row := by
  rw [← content_append_carriage row, List.mem_append, not_or] at h
  exact h.1

theorem no_feed_carriage (row : Text) : '\n' ∉ carriage row := by
  unfold carriage
  split
  · decide
  · exact List.not_mem_nil

/-- A line takes over the carriage return of a row as its own, unless it ends with one that the row
had in its content. -/
theorem content_append_carriage_eq {line row : Text}
    (h : line.getLast? = some '\r' → (content row).getLast? = some '\r') :
    content (line ++ carriage row) = line ∧ carriage (line ++ carriage row) = carriage row := by
  by_cases hr : row.getLast? = some '\r'
  · simp [carriage, hr, content, dropFinal]
  · have hrow : content row = row := by simp [content, dropFinal, hr]
    rw [hrow] at h
    have hline : line.getLast? ≠ some '\r' := fun hl => hr (h hl)
    simp [carriage, hr, content, dropFinal, hline]

theorem stripEnding_of_no_feed {row : Text} (h : '\n' ∉ row) : stripEnding row = content row := by
  have hl : row.getLast? ≠ some '\n' := fun he => h (List.mem_of_getLast? he)
  simp [stripEnding, content, dropFinal, hl]

theorem stripEnding_append_feed (row : Text) : stripEnding (row ++ ['\n']) = content row := by
  simp [stripEnding, content, dropFinal]

end Carriage

section Bytes

@[simp] theorem utf8Size_feed : '\n'.utf8Size = 1 := rfl

theorem byteLength_ended_concat (pre : List Text) (row : Text) :
    (ended (pre ++ [row])).byteLength = (ended pre).byteLength + row.byteLength + 1 := by
  simp [Nat.add_assoc]

@[simp] theorem takeBytes_byteLength_append (a b : Text) : (a ++ b).takeBytes a.byteLength = a := by
  induction a with
  | nil =>
    cases b with
    | nil => rfl
    | cons c b =>
      have := c.utf8Size_pos
      simp [takeBytes]
      omega
  | cons c a ih => simp [takeBytes, ih]

@[simp] theorem dropBytes_byteLength_append (a b : Text) : (a ++ b).dropBytes a.byteLength = b := by
  have h := takeBytes_append_dropBytes a.byteLength (a ++ b)
  rw [takeBytes_byteLength_append] at h
  exact List.append_cancel_left h

theorem slice_append (a b c : Text) :
    (a ++ b ++ c).slice ⟨a.byteLength, a.byteLength + b.byteLength⟩ = b := by
  simp only [slice]
  rw [List.append_assoc, dropBytes_byteLength_append, Nat.add_sub_cancel_left,
    takeBytes_byteLength_append]

theorem splice_append (a b c new : Text) :
    (a ++ b ++ c).splice ⟨a.byteLength, a.byteLength + b.byteLength⟩ new = a ++ new ++ c := by
  simp only [splice]
  rw [← byteLength_append, dropBytes_byteLength_append, List.append_assoc a b c,
    takeBytes_byteLength_append]

end Bytes

end Checklist.Text
