import Mathlib.Data.Finset.Dedup
import Mathlib.Data.Finset.Range
import Mathlib.Data.Finset.Card
import Checklist.Document
import Checklist.Proofs.Advance
import Checklist.Proofs.LineIndex

namespace Checklist.Document
open Text

/-- The index tells where the lines of the text are. Every document starts so, and edits keep it. -/
def Consistent (doc : Document) : Prop :=
  doc.index = .ofText doc.text

/-- A line with its ending. -/
def rawLine? (doc : Document) (i : Nat) : Option Text :=
  (doc.index.lineSpan i).map doc.text.slice

/-- The bytes of a line that are not its content. -/
def ending? (doc : Document) (i : Nat) : Option Text :=
  (doc.index.lineSpan i).bind fun span =>
    (doc.index.contentSpan doc.text i).map fun content => doc.text.slice ⟨content.stop, span.stop⟩

theorem ofText_consistent (t : Text) : (ofText t).Consistent := rfl

theorem ofFile_consistent (path : Path) (t : Text) : (ofFile path t).Consistent := rfl

section Lines

variable {doc : Document}

theorem Consistent.lineCount_eq (h : doc.Consistent) : doc.lineCount = doc.text.rows.length := by
  rw [lineCount, h, LineIndex.lineCount_ofText]

theorem Consistent.exists_row (h : doc.Consistent) {i : Nat} (hi : i < doc.lineCount) :
    ∃ row, doc.text.rows[i]? = some row := by
  rw [h.lineCount_eq] at hi
  exact ⟨_, List.getElem?_eq_getElem hi⟩

theorem Consistent.line?_eq (h : doc.Consistent) (i : Nat) :
    doc.line? i = doc.text.rows[i]?.map content := by
  rw [line?, h]
  rcases LineIndex.line_cases doc.text i with ⟨hrow, hspan⟩ | ⟨pre, row, post, hsplit, rfl, hrow, -⟩
  · rw [hspan, hrow]
    rfl
  · rw [LineIndex.lineSpan_ofText hsplit, Option.map_some, LineIndex.slice_row hsplit,
      LineIndex.stripEnding_row hsplit, hrow, Option.map_some]

theorem line?_ofText (t : Text) (i : Nat) : (ofText t).line? i = t.rows[i]?.map content :=
  (ofText_consistent t).line?_eq i

theorem Consistent.ending?_eq (h : doc.Consistent) (i : Nat) :
    doc.ending? i =
      doc.text.rows[i]?.map fun row => carriage row ++ feed (doc.text.rows.drop (i + 1)) := by
  rw [ending?, h]
  rcases LineIndex.line_cases doc.text i with
    ⟨hrow, hspan⟩ | ⟨pre, row, post, hsplit, rfl, hrow, hpost⟩
  · rw [hspan, hrow]
    rfl
  · rw [LineIndex.lineSpan_ofText hsplit, LineIndex.contentSpan_ofText hsplit, Option.bind_some,
      Option.map_some, LineIndex.slice_ending hsplit, hrow, Option.map_some, hpost]

theorem Consistent.rawLine?_eq_rawRow? (h : doc.Consistent) (i : Nat) :
    doc.rawLine? i = rawRow? doc.text.rows i := by
  rw [rawLine?, rawRow?, h]
  rcases LineIndex.line_cases doc.text i with
    ⟨hrow, hspan⟩ | ⟨pre, row, post, hsplit, rfl, hrow, hpost⟩
  · rw [hspan, hrow]
    rfl
  · rw [LineIndex.lineSpan_ofText hsplit, Option.map_some, LineIndex.slice_row hsplit, hrow, hpost,
      Option.map_some]

/-- A line and its ending are all there is of it. -/
theorem Consistent.rawLine?_eq (h : doc.Consistent) (i : Nat) :
    doc.rawLine? i = (doc.line? i).bind fun line => (doc.ending? i).map (line ++ ·) := by
  rw [h.rawLine?_eq_rawRow?, h.line?_eq, h.ending?_eq, rawRow?]
  cases doc.text.rows[i]? with
  | none => rfl
  | some row =>
    simp only [Option.map_some, Option.bind_some]
    rw [← List.append_assoc, content_append_carriage]

end Lines

/-- The rows of a document are those of another one, each changed by its place. -/
structure Rowwise (change : Nat → Text → Text) (doc doc' : Document) : Prop where
  before : doc.Consistent
  after : doc'.Consistent
  rows : doc'.text.rows = doc.text.rows.mapIdx change

section Rowwise

variable {change : Nat → Text → Text} {doc doc' : Document}

theorem Rowwise.getElem?_rows (h : Rowwise change doc doc') (i : Nat) :
    doc'.text.rows[i]? = doc.text.rows[i]?.map (change i) := by
  rw [h.rows, List.getElem?_mapIdx]

theorem Rowwise.lineCount_eq (h : Rowwise change doc doc') : doc'.lineCount = doc.lineCount := by
  rw [h.before.lineCount_eq, h.after.lineCount_eq, h.rows, List.length_mapIdx]

theorem Rowwise.line?_eq (h : Rowwise change doc doc') (next : Nat → Text → Text)
    (hcontent : ∀ i row, content (change i row) = next i (content row)) (i : Nat) :
    doc'.line? i = (doc.line? i).map (next i) := by
  rw [h.before.line?_eq, h.after.line?_eq, h.getElem?_rows, Option.map_map, Option.map_map]
  congr 1
  funext row
  exact hcontent i row

/-- No line gains or loses an ending, because the rows stay as many as they were. -/
theorem Rowwise.ending?_eq (h : Rowwise change doc doc')
    (hcarriage : ∀ i row, carriage (change i row) = carriage row) (i : Nat) :
    doc'.ending? i = doc.ending? i := by
  have hfeed : feed (doc'.text.rows.drop (i + 1)) = feed (doc.text.rows.drop (i + 1)) := by
    apply feed_eq_of_length
    rw [h.rows, List.length_drop, List.length_drop, List.length_mapIdx]
  rw [h.before.ending?_eq, h.after.ending?_eq, h.getElem?_rows, Option.map_map, hfeed]
  congr 1
  funext row
  rw [Function.comp_apply, hcarriage]

end Rowwise

section Filename

variable (doc : Document)

theorem filename_replaceLine (i : Nat) (new : Text) :
    (doc.replaceLine i new).2.filename = doc.filename := by
  unfold replaceLine
  split
  · rfl
  · rfl

theorem filename_replaceLines (edits : List (Nat × Text)) :
    (doc.replaceLines edits).2.filename = doc.filename := by
  induction edits generalizing doc with
  | nil => rfl
  | cons edit rest ih =>
    have hfirst := filename_replaceLine doc edit.1 edit.2
    rw [replaceLines]
    split
    · rename_i next hnext
      rw [hnext] at hfirst
      rw [ih, hfirst]
    · exact hfirst

/-- A document stays with its file while it is edited. -/
theorem filename_advanceLines (set : TokenSet) (lines : List Nat) :
    (doc.advanceLines set lines).2.filename = doc.filename := by
  unfold advanceLines
  split
  · rfl
  · rename_i edits _
    have hedits := filename_replaceLines doc edits.reverse
    split
    · rename_i next hnext
      rw [hnext] at hedits
      exact hedits
    · rename_i next hnext
      rw [hnext] at hedits
      exact hedits

end Filename

section Replacing

variable {doc : Document}

/-- A document whose line is `row`, with `pre` before and `post` after it, and the document with `new` in
place of the content of that line. The ending of the line stays, and `new` may bring rows of its
own. -/
structure Replaced (pre : List Text) (row : Text) (post : List Text) (new : Text)
    (doc doc' : Document) : Prop where
  before : doc.Consistent
  after : doc'.Consistent
  rows_before : doc.text.rows = pre ++ row :: post
  text_after : doc'.text = ended pre ++ new ++ (carriage row ++ following post)
  rows_after : doc'.text.rows = pre ++ (rows (new ++ carriage row) ++ post)

theorem Consistent.exists_replaced (h : doc.Consistent) {row : Text} {pre post : List Text}
    (hsplit : doc.text.rows = pre ++ row :: post) (new : Text) :
    ∃ doc', doc.replaceLine pre.length new = (.ok (), doc') ∧ Replaced pre row post new doc doc' := by
  have hindex : doc.index = .ofText doc.text := h
  have hspliced : doc.text.splice ⟨(ended pre).byteLength,
      (ended pre).byteLength + (content row).byteLength⟩ new =
      ended pre ++ new ++ (carriage row ++ following post) := by
    rw [eq_of_rows_eq_content hsplit, splice_append]
  have hfree : ∀ r ∈ pre ++ row :: post, '\n' ∉ r :=
    fun r hr => no_feed_of_mem_rows (t := doc.text) (hsplit ▸ hr)
  have hpre : ∀ r ∈ pre, '\n' ∉ r := fun r hr => hfree r (List.mem_append_left _ hr)
  have hpost : ∀ r ∈ post, '\n' ∉ r :=
    fun r hr => hfree r (List.mem_append_right _ (List.mem_cons_of_mem _ hr))
  simp only [replaceLine, hindex, LineIndex.contentSpan_ofText hsplit, hspliced]
  refine ⟨_, rfl, h, rfl, hsplit, rfl, ?_⟩
  rw [List.append_assoc, ← List.append_assoc new, rows_ended_append hpre,
    rows_append_following hpost]

/-- A replaced line keeps its ending, and all other rows stay. -/
theorem Consistent.replaceLine_rows (h : doc.Consistent) {i : Nat} {row new : Text}
    (hrow : doc.text.rows[i]? = some row) (hnew : '\n' ∉ new) :
    ∃ doc', doc.replaceLine i new = (.ok (), doc') ∧ doc'.Consistent ∧
      doc'.text.rows = doc.text.rows.set i (new ++ carriage row) := by
  obtain ⟨pre, post, hsplit, rfl⟩ := exists_split hrow
  obtain ⟨doc', hrun, hreplaced⟩ := h.exists_replaced hsplit new
  have hfree : '\n' ∉ new ++ carriage row := by
    rw [List.mem_append, not_or]
    exact ⟨hnew, no_feed_carriage row⟩
  refine ⟨doc', hrun, hreplaced.after, ?_⟩
  rw [hreplaced.rows_after, rows_of_not_mem hfree, hsplit, List.set_append_right _ _ (Nat.le_refl _), Nat.sub_self,
    List.set_cons_zero, List.singleton_append]

/-- Replacements of different lines do not disturb one another, whatever their order. -/
theorem Consistent.replaceLines_rows (h : doc.Consistent) (new : Nat → Text) {places : List Nat}
    (distinct : places.Nodup) (inRange : ∀ i ∈ places, i < doc.text.rows.length)
    (no_feed : ∀ i ∈ places, '\n' ∉ new i) :
    ∃ doc', doc.replaceLines (places.map fun i => (i, new i)) = (.ok (), doc') ∧ doc'.Consistent ∧
      doc'.text.rows = doc.text.rows.mapIdx fun i row =>
        if i ∈ places then new i ++ carriage row else row := by
  induction places generalizing doc with
  | nil =>
    refine ⟨doc, rfl, h, ?_⟩
    symm
    rw [List.mapIdx_eq_iff]
    simp
  | cons i rest ih =>
    obtain ⟨hi, hrest⟩ := List.nodup_cons.mp distinct
    have hlt := inRange i List.mem_cons_self
    obtain ⟨doc₁, hstep, h₁, hrows₁⟩ := h.replaceLine_rows (List.getElem?_eq_getElem hlt)
      (no_feed i List.mem_cons_self)
    have hlen : doc₁.text.rows.length = doc.text.rows.length := by rw [hrows₁, List.length_set]
    obtain ⟨doc₂, hrun, h₂, hrows₂⟩ := ih h₁ hrest
      (fun j hj => hlen ▸ inRange j (List.mem_cons_of_mem _ hj))
      (fun j hj => no_feed j (List.mem_cons_of_mem _ hj))
    refine ⟨doc₂, ?_, h₂, ?_⟩
    · simp only [List.map_cons, replaceLines, hstep, hrun]
    · rw [hrows₂, hrows₁]
      symm
      rw [List.mapIdx_eq_iff]
      intro j
      rw [List.getElem?_mapIdx]
      by_cases hij : i = j
      · subst hij
        simp [hi, hlt]
      · have hmem : j ∈ i :: rest ↔ j ∈ rest := by simp [Ne.symm hij]
        simp only [hmem, List.getElem?_set_ne hij]

end Replacing

section Places

theorem mem_insertDistinct {m n : Nat} {l : List Nat} :
    m ∈ insertDistinct n l ↔ m = n ∨ m ∈ l := by
  induction l with
  | nil => simp [insertDistinct]
  | cons k rest ih =>
    rw [insertDistinct]
    split
    · simp
    · split
      · rename_i h
        subst h
        simp
      · rw [List.mem_cons, ih, List.mem_cons]
        exact or_left_comm

theorem insertDistinct_pairwise {n : Nat} {l : List Nat} (h : l.Pairwise (· < ·)) :
    (insertDistinct n l).Pairwise (· < ·) := by
  induction l with
  | nil => exact List.pairwise_singleton _ n
  | cons k rest ih =>
    obtain ⟨hk, hrest⟩ := List.pairwise_cons.mp h
    rw [insertDistinct]
    split
    · rename_i hlt
      refine .cons ?_ h
      intro m hm
      rcases List.mem_cons.mp hm with rfl | hm
      · exact hlt
      · exact Nat.lt_trans hlt (hk m hm)
    · split
      · exact h
      · refine .cons ?_ (ih hrest)
        intro m hm
        rcases mem_insertDistinct.mp hm with rfl | hm
        · omega
        · exact hk m hm

theorem mem_sortDistinct {n : Nat} {numbers : List Nat} :
    n ∈ sortDistinct numbers ↔ n ∈ numbers := by
  induction numbers with
  | nil => rfl
  | cons m rest ih =>
    have hcons : sortDistinct (m :: rest) = insertDistinct m (sortDistinct rest) := rfl
    rw [hcons, mem_insertDistinct, ih, List.mem_cons]

theorem sortDistinct_pairwise (numbers : List Nat) : (sortDistinct numbers).Pairwise (· < ·) := by
  induction numbers with
  | nil => exact .nil
  | cons m rest ih => exact insertDistinct_pairwise ih

theorem sortDistinct_nodup (numbers : List Nat) : (sortDistinct numbers).Nodup :=
  (sortDistinct_pairwise numbers).imp Nat.ne_of_lt

theorem sortDistinct_length (numbers : List Nat) :
    (sortDistinct numbers).length = numbers.toFinset.card := by
  rw [← List.toFinset_card_of_nodup (sortDistinct_nodup numbers)]
  congr 1
  ext n
  rw [List.mem_toFinset, List.mem_toFinset, mem_sortDistinct]

end Places

section Advancing

variable {doc : Document} {set : TokenSet}

theorem line?_eq_none_iff {i : Nat} : doc.line? i = none ↔ doc.lineCount ≤ i := by
  rw [line?, Option.map_eq_none_iff]
  exact LineIndex.lineSpan_eq_none_iff

/-- The first listed line that is not there ends the computation of all. -/
theorem advancedLines_eq (doc : Document) (set : TokenSet) (places : List Nat) :
    doc.advancedLines set places =
      match places.find? fun i => doc.lineCount ≤ i with
      | some i => .error ⟨i + 1, doc.lineCount⟩
      | none => .ok (places.map fun i => (i, set.advance ((doc.line? i).getD []))) := by
  induction places with
  | nil => rfl
  | cons i rest ih =>
    rw [advancedLines, List.find?_cons]
    cases hline : doc.line? i with
    | none => simp only [line?_eq_none_iff.mp hline, decide_true]
    | some line =>
      have hlt : ¬ doc.lineCount ≤ i := by
        rw [← line?_eq_none_iff, hline]
        exact Option.some_ne_none line
      simp only [hlt, decide_false, ih]
      cases rest.find? fun i => doc.lineCount ≤ i with
      | some j => rfl
      | none =>
        simp only [List.map_cons, hline, Option.getD_some]
        rfl

theorem advancedLines_of_lt (set : TokenSet) {places : List Nat}
    (inRange : ∀ i ∈ places, i < doc.lineCount) :
    doc.advancedLines set places =
      .ok (places.map fun i => (i, set.advance ((doc.line? i).getD []))) := by
  rw [advancedLines_eq, List.find?_eq_none.mpr]
  intro i hi
  rw [decide_eq_true_eq]
  exact Nat.not_le_of_lt (inRange i hi)

/-- The listed rows of a document are advanced in another one, and the others are the same. -/
structure Advanced (set : TokenSet) (lines : List Nat) (doc doc' : Document) : Prop where
  before : doc.Consistent
  after : doc'.Consistent
  rows : doc'.text.rows = doc.text.rows.mapIdx fun i row =>
    if i ∈ lines then set.advanceRow row else row

/-- Every listed line is advanced once, whatever their order and however often each is listed. -/
theorem Consistent.advanceLines_eq (h : doc.Consistent) (hset : set.Accepted) {lines : List Nat}
    (inRange : ∀ i ∈ lines, i < doc.lineCount) :
    ∃ doc', doc.advanceLines set lines = (.ok lines.toFinset.card, doc') ∧
      Advanced set lines doc doc' := by
  have hsorted : ∀ i ∈ sortDistinct lines, i < doc.lineCount :=
    fun i hi => inRange i (mem_sortDistinct.mp hi)
  have hrange : ∀ i ∈ sortDistinct lines, i < doc.text.rows.length := by
    intro i hi
    rw [← h.lineCount_eq]
    exact hsorted i hi
  have hline : ∀ (i : Nat) (row : Text), doc.text.rows[i]? = some row →
      set.advance ((doc.line? i).getD []) = set.advance (content row) := by
    intro i row hrow
    rw [h.line?_eq, hrow, Option.map_some, Option.getD_some]
  have hfeed : ∀ i ∈ (sortDistinct lines).reverse,
      '\n' ∉ set.advance ((doc.line? i).getD []) := by
    intro i hi
    have hrow := List.getElem?_eq_getElem (hrange i (List.mem_reverse.mp hi))
    rw [hline i _ hrow]
    exact hset.no_feed_advance (no_feed_content (no_feed_of_mem_rows (List.mem_of_getElem? hrow)))
  obtain ⟨doc', hrun, h', hrows⟩ := h.replaceLines_rows
    (fun i => set.advance ((doc.line? i).getD []))
    (List.nodup_reverse.mpr (sortDistinct_nodup lines))
    (fun i hi => hrange i (List.mem_reverse.mp hi)) hfeed
  refine ⟨doc', ?_, h, h', ?_⟩
  · rw [List.map_reverse] at hrun
    simp only [advanceLines, advancedLines_of_lt set hsorted, hrun, List.length_map,
      sortDistinct_length]
  · rw [hrows]
    symm
    rw [List.mapIdx_eq_iff]
    intro i
    rw [List.getElem?_mapIdx]
    cases hrow : doc.text.rows[i]? with
    | none => rfl
    | some row =>
      simp only [Option.map_some, List.mem_reverse, mem_sortDistinct, hline i row hrow,
        TokenSet.advanceRow]

section Advanced

variable {doc' : Document} {lines : List Nat}

theorem Advanced.rowwise (h : Advanced set lines doc doc') :
    Rowwise (fun i row => if i ∈ lines then set.advanceRow row else row) doc doc' :=
  ⟨h.before, h.after, h.rows⟩

theorem Advanced.lineCount_eq (h : Advanced set lines doc doc') :
    doc'.lineCount = doc.lineCount :=
  h.rowwise.lineCount_eq

theorem Advanced.line?_eq (h : Advanced set lines doc doc') (hset : set.Accepted) (i : Nat) :
    doc'.line? i = (doc.line? i).map fun line => if i ∈ lines then set.advance line else line := by
  apply h.rowwise.line?_eq fun i line => if i ∈ lines then set.advance line else line
  intro i row
  split
  · exact (hset.advanceRow_spec row).1
  · rfl

theorem Advanced.ending?_eq (h : Advanced set lines doc doc') (hset : set.Accepted) (i : Nat) :
    doc'.ending? i = doc.ending? i := by
  apply h.rowwise.ending?_eq
  intro i row
  split
  · exact (hset.advanceRow_spec row).2
  · rfl

theorem Advanced.rawLine?_eq (h : Advanced set lines doc doc') (hset : set.Accepted) {i : Nat}
    (hi : i ∉ lines) : doc'.rawLine? i = doc.rawLine? i := by
  rw [h.before.rawLine?_eq, h.after.rawLine?_eq, h.line?_eq hset, h.ending?_eq hset]
  simp [hi]

/-- The lines that differ are the listed ones, since no line is its own successor. -/
theorem Advanced.line?_ne_iff (h : Advanced set lines doc doc') (hset : set.Accepted) {i : Nat}
    (hi : i < doc.lineCount) : doc'.line? i ≠ doc.line? i ↔ i ∈ lines := by
  obtain ⟨row, hrow⟩ := h.before.exists_row hi
  rw [h.line?_eq hset, h.before.line?_eq, hrow]
  by_cases hmem : i ∈ lines
  · simp [hmem, hset.advance_ne (content row)]
  · simp [hmem]

end Advanced

/-- An advance succeeds on lines that are there, whatever their order and however often each is
listed. It counts and changes each of them once, and keeps all other bytes of the text: the other
lines, and the endings of all. -/
theorem advanceLines_linewise {engine : Engine} {states : List State} {comment : Text}
    (accepted : TokenSet.ofStates engine states comment = .ok set) (consistent : doc.Consistent)
    {lines : List Nat} (inRange : ∀ i ∈ lines, i < doc.lineCount) :
    ∃ doc', doc.advanceLines set lines = (.ok lines.toFinset.card, doc') ∧
      lines.toFinset.card =
        ((Finset.range doc.lineCount).filter fun i => doc'.line? i ≠ doc.line? i).card ∧
      doc'.lineCount = doc.lineCount ∧ doc'.Consistent ∧
      (∀ i ∈ lines, ∃ line, doc.line? i = some line ∧ doc'.line? i = some (set.advance line)) ∧
      (∀ i < doc.lineCount, i ∉ lines →
        ∃ raw, doc.rawLine? i = some raw ∧ doc'.rawLine? i = some raw) ∧
      ∀ i < doc.lineCount,
        ∃ ending, doc.ending? i = some ending ∧ doc'.ending? i = some ending := by
  have hset := TokenSet.accepted_of_ofStates accepted
  obtain ⟨doc', hrun, h⟩ := consistent.advanceLines_eq hset inRange
  refine ⟨doc', hrun, ?_, h.lineCount_eq, h.after, ?_, ?_, ?_⟩
  · congr 1
    ext i
    rw [List.mem_toFinset, Finset.mem_filter, Finset.mem_range]
    constructor
    · intro hi
      exact ⟨inRange i hi, (h.line?_ne_iff hset (inRange i hi)).mpr hi⟩
    · intro ⟨hlt, hne⟩
      exact (h.line?_ne_iff hset hlt).mp hne
  · intro i hi
    obtain ⟨row, hrow⟩ := consistent.exists_row (inRange i hi)
    have hline : doc.line? i = some (content row) := by
      rw [consistent.line?_eq, hrow, Option.map_some]
    refine ⟨content row, hline, ?_⟩
    rw [h.line?_eq hset, hline, Option.map_some, if_pos hi]
  · intro i hlt hi
    obtain ⟨row, hrow⟩ := consistent.exists_row hlt
    rw [h.rawLine?_eq hset hi, consistent.rawLine?_eq, consistent.line?_eq, consistent.ending?_eq,
      hrow]
    exact ⟨_, rfl, rfl⟩
  · intro i hlt
    obtain ⟨row, hrow⟩ := consistent.exists_row hlt
    rw [h.ending?_eq hset, consistent.ending?_eq, hrow]
    exact ⟨_, rfl, rfl⟩

/-- Lines listed in no order and twice, with all three endings, one of them empty and one last. -/
theorem advanceLines_linewise_standard :
    TokenSet.ofStates .usual TokenSet.defaultStates TokenSet.defaultComment = .ok .standard ∧
    (ofText "- a\r\n\t--\nx\n\n+ é\r".toList).Consistent ∧
    (∀ i ∈ [4, 0, 0, 3], i < (ofText "- a\r\n\t--\nx\n\n+ é\r".toList).lineCount) ∧
    ∃ doc', (ofText "- a\r\n\t--\nx\n\n+ é\r".toList).advanceLines .standard [4, 0, 0, 3] =
        (.ok 3, doc') ∧
      doc'.lineCount = 5 ∧ doc'.line? 0 = some "+ a".toList ∧
      doc'.rawLine? 1 = some "\t--\n".toList ∧ doc'.ending? 4 = some "\r".toList := by
  have inRange : ∀ i ∈ [4, 0, 0, 3],
      i < (ofText "- a\r\n\t--\nx\n\n+ é\r".toList).lineCount := by decide
  obtain ⟨doc', hrun, -, hcount, -, hlines, hraw, hending⟩ :=
    advanceLines_linewise TokenSet.ofStates_default (ofText_consistent _) inRange
  have hfive := hcount.trans (by decide : _ = 5)
  refine ⟨TokenSet.ofStates_default, rfl, inRange, doc', hrun, hfive, ?_, ?_, ?_⟩
  · obtain ⟨line, hold, hnew⟩ := hlines 0 (by decide)
    cases Option.some.inj (hold.symm.trans (by decide : _ = some "- a".toList))
    exact hnew.trans (by decide)
  · obtain ⟨raw, hold, hnew⟩ := hraw 1 (by decide) (by decide)
    exact hnew.trans (hold.symm.trans (by decide))
  · obtain ⟨ending, hold, hnew⟩ := hending 4 (by decide)
    exact hnew.trans (hold.symm.trans (by decide))

end Advancing

end Checklist.Document
