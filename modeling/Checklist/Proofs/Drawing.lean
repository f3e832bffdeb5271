import Checklist.Proofs.Highlights
import Checklist.Proofs.TabStops
import Checklist.Proofs.Terminal

namespace Checklist

namespace Document

variable {doc : Document} {i : Nat} {line : Text}

theorem lt_of_line? (h : doc.line? i = some line) : i < doc.lineCount := by
  rw [← Nat.not_le, ← line?_eq_none_iff, h]
  exact Option.some_ne_none line

/-- A line has no line feed, and only characters of the text. -/
theorem Consistent.mem_line (h : doc.Consistent) (hline : doc.line? i = some line) :
    '\n' ∉ line ∧ ∀ c ∈ line, c ∈ doc.text := by
  rw [h.line?_eq, Option.map_eq_some_iff] at hline
  obtain ⟨row, hrow, rfl⟩ := hline
  have hmem := List.mem_of_getElem? hrow
  refine ⟨Text.no_feed_content (Text.no_feed_of_mem_rows hmem), ?_⟩
  intro c hc
  obtain ⟨pre, post, hsplit⟩ := List.append_of_mem hmem
  rw [Text.eq_of_rows_eq_content hsplit]
  exact List.mem_append_left _ (List.mem_append_right _ hc)

end Document

namespace Display
open Screen Text

section Fields

variable {display : Display} {lineCount i : Nat}

theorem length_decimal_le {m n : Nat} (h : m ≤ n) : (decimal m).length ≤ (decimal n).length := by
  have hpos : 0 < (decimal n).length := Nat.length_toDigits_pos
  have hn : n < 10 ^ (decimal n).length :=
    (Nat.length_toDigits_le_iff (by decide) hpos).mp (Nat.le_refl _)
  exact (Nat.length_toDigits_le_iff (by decide) hpos).mpr (Nat.lt_of_le_of_lt h hn)

theorem numberField_succ (width i : Nat) : numberField (width + 1) i =
    List.replicate (width - (decimal (i + 1)).length) ' ' ++ decimal (i + 1) ++ [' '] := by
  rw [numberField, if_neg (Nat.succ_ne_zero _), Nat.add_sub_cancel, alignRight]

theorem length_numberField {width : Nat} (h : (decimal (i + 1)).length ≤ width) :
    (numberField (width + 1) i).length = width + 1 := by
  rw [numberField_succ, List.length_append, List.length_append, List.length_replicate,
    Nat.sub_add_cancel h, List.length_singleton]

theorem displayWidth_numberField {width : Nat} (h : (decimal (i + 1)).length ≤ width) :
    displayWidth (numberField (width + 1) i) = width + 1 := by
  have hspace := displayWidth_append_spaces
    (List.replicate (width - (decimal (i + 1)).length) ' ' ++ decimal (i + 1)) 1
  rw [displayWidth_spaces_append, displayWidth_digits (digits_decimal _), Nat.sub_add_cancel h]
    at hspace
  rw [numberField_succ]
  exact hspace

/-- A field as wide for one line of a document as for all others: a number counted from one at its
right end and a space, or nothing where numbers are off. -/
structure Numbered (display : Display) (lineCount i : Nat) (field : Text) : Prop where
  off : display.lineNumbers = false → field = []
  on : display.lineNumbers = true →
    field.length = max 3 (decimal lineCount).length + 1 ∧
      ∃ n, field = List.replicate n ' ' ++ decimal (i + 1) ++ [' ']
  columns : field.displayWidth = display.numberWidth lineCount

/-- The number of the last line is as wide as any, so that no number is wider than its field. -/
theorem numbered_numberField (display : Display) (h : i < lineCount) :
    Numbered display lineCount i (numberField (display.numberWidth lineCount) i) := by
  cases hnumbers : display.lineNumbers with
  | false =>
    have hwidth : display.numberWidth lineCount = 0 := by simp [numberWidth, hnumbers]
    rw [hwidth]
    exact ⟨fun _ => rfl, fun hon => by simp [hnumbers] at hon, by rw [hwidth]; rfl⟩
  | true =>
    have hwidth : display.numberWidth lineCount = max 3 (decimal lineCount).length + 1 := by
      simp [numberWidth, hnumbers]
    have hfits : (decimal (i + 1)).length ≤ max 3 (decimal lineCount).length :=
      Nat.le_trans (length_decimal_le h) (Nat.le_max_right _ _)
    rw [hwidth]
    refine ⟨fun hoff => by simp [hnumbers] at hoff, fun _ => ⟨length_numberField hfits, _,
      numberField_succ _ i⟩, ?_⟩
    rw [hwidth, displayWidth_numberField hfits]

theorem Numbered.not_mem {field : Text} (h : Numbered display lineCount i field) {c : Char}
    (hspace : c ≠ ' ') (hdigit : c.isDigit = false) : c ∉ field := by
  intro hc
  cases hnumbers : display.lineNumbers with
  | false =>
    rw [h.off hnumbers] at hc
    cases hc
  | true =>
    obtain ⟨-, n, rfl⟩ := h.on hnumbers
    simp only [List.mem_append, List.mem_singleton] at hc
    rcases hc with (hc | hc) | hc
    · exact hspace (List.eq_of_mem_replicate hc)
    · rw [digits_decimal _ c hc] at hdigit
      cases hdigit
    · exact hspace hc

end Fields

/-- The pen of the mark before a highlighted line. -/
def markPen (style : Style) : Pen :=
  { foreground := some (style.ruler.onto (.solid 0 0 0)) }

/-- The pen of a highlighted line from its mark on. -/
def linePen (style : Style) : Pen :=
  { markPen style with
    background := some (style.background.onto (.solid 0 0 0))
    dim := style.isDim }

/-- What comes before a highlighted text: a mark in the color of the ruler, and the selection of the
pen for the text. -/
def lead (style : Style) : Text :=
  foreground (style.ruler.onto (.solid 0 0 0)) ++ (['▌'] ++
    (background (style.background.onto (.solid 0 0 0)) ++ intensity style.isDim))

/-- Spaces from the end of a text to the last column. -/
def padding (display : Display) (numberWidth : Nat) (t : Text) : Text :=
  List.replicate (display.columns - (numberWidth + 1 + t.displayWidth)) ' '

/-- What a line is drawn as after its number. -/
def drawnText (display : Display) (numberWidth : Nat) (style : Option Style) (t : Text) : Text :=
  match style with
  | some style => display.highlighted numberWidth style t
  | none => plain t

/-- A drawn line without its line feed. -/
def drawnRow (display : Display) (numberWidth i : Nat) (style : Option Style) (line : Text) : Text :=
  numberField numberWidth i ++ display.drawnText numberWidth style (expandTabs display.tabWidth line)

section Lines

variable {display : Display} {lineCount numberWidth i : Nat} {style : Option Style}
  {field line t : Text}

theorem not_mem_padding {c : Char} (h : c ≠ ' ') : c ∉ display.padding numberWidth t :=
  fun hmem => h (List.eq_of_mem_replicate hmem)

theorem highlighted_eq (display : Display) (numberWidth : Nat) (style : Style) (t : Text) :
    display.highlighted numberWidth style t =
      lead style ++ (t ++ display.padding numberWidth t) ++ reset := by
  simp [highlighted, lead, padding]

/-- The mark is drawn in one color, and what follows in all of them. -/
theorem draws_lead (style : Style) :
    Draws .own (lead style) [⟨'▌', markPen style⟩] (linePen style) := by
  have hmark : Draws .own (foreground (style.ruler.onto (.solid 0 0 0))) [] (markPen style) :=
    draws_foreground _ _
  have hbar : Draws (markPen style) ['▌'] [⟨'▌', markPen style⟩] (markPen style) :=
    draws_plain _ (by decide)
  have hground := draws_background (markPen style) (style.background.onto (.solid 0 0 0))
  have hdim := draws_intensity
    { markPen style with background := some (style.background.onto (.solid 0 0 0)) } style.isDim
  exact hmark.append (hbar.append (hground.append hdim))

/-- All that is set for a highlighted line is reset at its end. -/
theorem draws_highlighted (display : Display) (numberWidth : Nat) (style : Style)
    (h : '\x1b' ∉ t) :
    Draws .own (display.highlighted numberWidth style t)
      (⟨'▌', markPen style⟩ :: (t ++ display.padding numberWidth t).map (⟨·, linePen style⟩))
      .own := by
  have hpadded : '\x1b' ∉ t ++ display.padding numberWidth t := by
    rw [List.mem_append, not_or]
    exact ⟨h, not_mem_padding (by decide)⟩
  have htext := draws_plain (linePen style) hpadded
  rw [highlighted_eq]
  simpa using ((draws_lead style).append htext).append (draws_reset _)

/-- A highlighted line takes all columns of the screen, and more if it is longer. -/
theorem displayWidth_highlighted (h : Numbered display lineCount i field) (t : Text) :
    displayWidth (field ++ '▌' :: (t ++ display.padding (display.numberWidth lineCount) t)) =
      max display.columns (field.displayWidth + 1 + t.displayWidth) := by
  rw [displayWidth_append_cons Width.separate_block, padding, displayWidth_append_spaces,
    h.columns]
  omega

theorem no_feed_drawnText (display : Display) (numberWidth : Nat) (style : Option Style)
    (h : '\n' ∉ t) : '\n' ∉ display.drawnText numberWidth style t := by
  cases style with
  | none => simpa [drawnText, plain] using h
  | some style =>
    rw [drawnText, highlighted_eq]
    simp only [lead, List.mem_append, not_or]
    exact ⟨⟨⟨no_feed_sequence _, by decide, no_feed_sequence _, no_feed_sequence _⟩,
      h, not_mem_padding (by decide)⟩, by decide⟩

/-- A control character is in an expanded text only where it is in the text. -/
theorem not_mem_expandTabs {c : Char} (hspace : c ≠ ' ') (h : c ∉ line) (tabWidth : Nat) :
    c ∉ expandTabs tabWidth line :=
  fun hmem => (mem_of_mem_expandTabs hmem).elim hspace h

theorem no_feed_drawnRow (style : Option Style) (hi : i < lineCount) (h : '\n' ∉ line) :
    '\n' ∉ display.drawnRow (display.numberWidth lineCount) i style line := by
  rw [drawnRow, List.mem_append, not_or]
  exact ⟨(numbered_numberField display hi).not_mem (by decide) (by decide),
    no_feed_drawnText display _ style (not_mem_expandTabs (by decide) h _)⟩

/-- A row leaves the terminal its own pen. -/
theorem draws_drawnRow (style : Option Style) (hi : i < lineCount) (h : '\x1b' ∉ line) :
    ∃ cells, Draws .own (display.drawnRow (display.numberWidth lineCount) i style line) cells .own := by
  have hfield := draws_plain .own
    ((numbered_numberField display hi).not_mem (by decide) (by decide))
  have htext := not_mem_expandTabs (by decide) h display.tabWidth
  cases style with
  | none =>
    have hplain : '\x1b' ∉ plain (expandTabs display.tabWidth line) := by simpa [plain] using htext
    exact ⟨_, hfield.append (draws_plain .own hplain)⟩
  | some style => exact ⟨_, hfield.append (draws_highlighted display _ style htext)⟩

end Lines

section Rows

variable {display : Display} {doc : Document} {styled : Nat → Option Style} {i : Nat}
  {line row : Text}

/-- The rows of a whole document. -/
def drawnRows (display : Display) (doc : Document) (styled : Nat → Option Style) : List Text :=
  doc.lines.mapIdx fun i line => display.drawnRow (display.numberWidth doc.lineCount) i (styled i) line

theorem drawnRows_length : (display.drawnRows doc styled).length = doc.lineCount := by
  rw [drawnRows, List.length_mapIdx, doc.lines_length]

theorem getElem?_drawnRows (i : Nat) : (display.drawnRows doc styled)[i]? =
    (doc.line? i).map (display.drawnRow (display.numberWidth doc.lineCount) i (styled i)) := by
  rw [drawnRows, List.getElem?_mapIdx, doc.getElem?_lines]

theorem exists_of_mem_drawnRows (h : row ∈ display.drawnRows doc styled) :
    ∃ i line, i < doc.lineCount ∧ doc.line? i = some line ∧
      row = display.drawnRow (display.numberWidth doc.lineCount) i (styled i) line := by
  obtain ⟨i, hi, hrow⟩ := List.mem_iff_getElem.mp h
  rw [drawnRows_length] at hi
  obtain ⟨line, hline⟩ := doc.exists_line hi
  rw [← Option.some.injEq, ← List.getElem?_eq_getElem, getElem?_drawnRows, hline] at hrow
  exact ⟨i, line, hi, hline, (Option.some.inj hrow).symm⟩

theorem drawn_eq_ended (display : Display) (doc : Document) (styled : Nat → Option Style) :
    display.drawn doc styled = ended (display.drawnRows doc styled) := by
  rw [drawn, ended, List.flatMap_def]
  congr 1
  apply List.ext_getElem?
  intro i
  rw [List.getElem?_map, getElem?_drawnRows, List.getElem?_mapIdx, doc.getElem?_lines, Option.map_map]
  rfl

/-- Where there is a tab stop, nothing stops the rows from being written. -/
theorem render?_eq {regions : List Region} (stops : 0 < display.tabWidth)
    (ordered : regions.Pairwise fun region next => region.endLine < next.startLine)
    (styles : List Style) : display.render? doc regions styles =
      some (ended (display.drawnRows doc (styled? regions styles))) := by
  rw [render?, if_neg (by simp [Nat.ne_of_gt stops]), render_eq_drawn display doc styles ordered,
    drawn_eq_ended]

end Rows

/-- Where there is a tab stop, a document is drawn as one row for each of its lines. A row has a
number field of one width, one column for a mark, the whole text and nothing else, but for a line
in a region that has a style: that one is padded to the last column, in colors that are reset at its
end. The terminal is left its own pen by each row, and so by all of them. -/
theorem render_rows {display : Display} {doc : Document} {regions : List Region}
    (stops : 0 < display.tabWidth) (consistent : doc.Consistent) (bare : '\x1b' ∉ doc.text)
    (ordered : regions.Pairwise fun region next => region.endLine < next.startLine)
    (styles : List Style) :
    ∃ rows : List Text,
      display.render? doc regions styles = some (ended rows) ∧
      rows.length = doc.lineCount ∧ (∀ row ∈ rows, '\n' ∉ row) ∧
      (∃ cells, Draws .own (ended rows) cells .own) ∧
      ∀ i line, doc.line? i = some line → ∃ field rest,
        rows[i]? = some (field ++ rest) ∧ Numbered display doc.lineCount i field ∧
        (∀ region ∈ regions, region.contains i = true →
          ∀ style, styles[region.state]? = some style → ∃ n,
            Draws .own (field ++ rest) (field.map (⟨·, .own⟩) ++ ⟨'▌', markPen style⟩ ::
              (expandTabs display.tabWidth line ++ List.replicate n ' ').map (⟨·, linePen style⟩))
              .own ∧
            displayWidth
                (field ++ '▌' :: (expandTabs display.tabWidth line ++ List.replicate n ' ')) =
              max display.columns
                (field.displayWidth + 1 + (expandTabs display.tabWidth line).displayWidth)) ∧
        ((∀ region ∈ regions, region.contains i = true → styles.length ≤ region.state) →
          rest = ' ' :: expandTabs display.tabWidth line ∧ '\x1b' ∉ field ++ rest) := by
  refine ⟨_, render?_eq stops ordered styles, drawnRows_length, ?_, draws_ended ?_, ?_⟩
  · intro row hrow
    obtain ⟨i, line, hi, hline, rfl⟩ := exists_of_mem_drawnRows hrow
    exact no_feed_drawnRow _ hi (consistent.mem_line hline).1
  · intro row hrow
    obtain ⟨i, line, hi, hline, rfl⟩ := exists_of_mem_drawnRows hrow
    exact draws_drawnRow _ hi fun h => bare ((consistent.mem_line hline).2 _ h)
  · intro i line hline
    have hi := Document.lt_of_line? hline
    have numbered := numbered_numberField display hi
    have hfield := numbered.not_mem (c := '\x1b') (by decide) (by decide)
    have htext : '\x1b' ∉ expandTabs display.tabWidth line :=
      not_mem_expandTabs (by decide) (fun h => bare ((consistent.mem_line hline).2 _ h)) _
    refine ⟨_, _, by rw [getElem?_drawnRows, hline]; rfl, numbered, ?_, ?_⟩
    · intro region hregion hcontains style hstyle
      have hstyled := (styled?_eq_some_iff ordered).mpr ⟨region, hregion, hcontains, hstyle⟩
      rw [hstyled]
      exact ⟨_, (draws_plain .own hfield).append (draws_highlighted display _ style htext),
        displayWidth_highlighted numbered _⟩
    · intro hplain
      have hstyled : styled? regions styles i = none := by
        rw [Option.eq_none_iff_forall_ne_some]
        intro style hstyle
        obtain ⟨region, hregion, hcontains, hstyle⟩ := (styled?_eq_some_iff ordered).mp hstyle
        have hlt := (List.getElem?_eq_some_iff.mp hstyle).1
        exact absurd (hplain region hregion hcontains) (Nat.not_le_of_lt hlt)
      rw [hstyled]
      refine ⟨rfl, ?_⟩
      simpa [drawnText, plain] using ⟨hfield, htext⟩

/-- A numbered screen of twelve columns with a line on a background, a wide one and an empty one. -/
theorem render_rows_numbered :
    0 < 4 ∧ (Document.ofText "- a\tb\n日本\n".toList).Consistent ∧
    '\x1b' ∉ "- a\tb\n日本\n".toList ∧
    [(⟨0, 0, 0⟩ : Region)].Pairwise (fun region next => region.endLine < next.startLine) ∧
    ∃ rows : List Text,
      render? { lineNumbers := true, tabWidth := 4, columns := 12 } (.ofText "- a\tb\n日本\n".toList)
        [⟨0, 0, 0⟩] [⟨.solid 69 39 39, .solid 230 130 130, .one⟩] = some (ended rows) ∧
      rows.length = 3 ∧
      (∃ field, field.length = 4 ∧ rows[1]? = some (field ++ " 日本".toList)) ∧
      ∃ row field n, field.length = 4 ∧ rows[0]? = some row ∧
        displayWidth (field ++ '▌' :: ("- a b".toList ++ List.replicate n ' ')) = 12 ∧
        Draws .own row (field.map (⟨·, .own⟩) ++ ⟨'▌', ⟨some ⟨230, 130, 130⟩, none, false⟩⟩ ::
          ("- a b".toList ++ List.replicate n ' ').map
            (⟨·, ⟨some ⟨230, 130, 130⟩, some ⟨69, 39, 39⟩, false⟩⟩)) .own := by
  have ordered : [(⟨0, 0, 0⟩ : Region)].Pairwise fun region next => region.endLine < next.startLine :=
    List.pairwise_singleton _ _
  obtain ⟨rows, hrender, hlength, -, -, hrows⟩ :=
    @render_rows { lineNumbers := true, tabWidth := 4, columns := 12 } _ _ (by decide)
      (Document.ofText_consistent "- a\tb\n日本\n".toList) (by decide) ordered
      [⟨.solid 69 39 39, .solid 230 130 130, .one⟩]
  have hfour : max 3 (decimal (Document.ofText "- a\tb\n日本\n".toList).lineCount).length + 1 = 4 := by
    decide +kernel
  refine ⟨by decide, rfl, by decide, ordered, rows, hrender, hlength, ?_, ?_⟩
  · obtain ⟨field, rest, hrow, numbered, -, hplain⟩ := hrows 1 "日本".toList (by decide +kernel)
    obtain ⟨rfl, -⟩ := hplain (by decide)
    exact ⟨field, (numbered.on rfl).1.trans hfour, hrow⟩
  · obtain ⟨field, rest, hrow, numbered, hmarked, -⟩ := hrows 0 "- a\tb".toList (by decide +kernel)
    obtain ⟨n, hdraws, hwidth⟩ := hmarked ⟨0, 0, 0⟩ (by decide) (by decide) _ rfl
    have htext : expandTabs 4 "- a\tb".toList = "- a b".toList := by decide +kernel
    have hmark : markPen ⟨.solid 69 39 39, .solid 230 130 130, .one⟩ =
        ⟨some ⟨230, 130, 130⟩, none, false⟩ := by decide +kernel
    have hline : linePen ⟨.solid 69 39 39, .solid 230 130 130, .one⟩ =
        ⟨some ⟨230, 130, 130⟩, some ⟨69, 39, 39⟩, false⟩ := by decide +kernel
    rw [htext] at hdraws hwidth
    rw [hmark, hline] at hdraws
    rw [numbered.columns] at hwidth
    exact ⟨_, field, n, (numbered.on rfl).1.trans hfour, hrow, hwidth, hdraws⟩

end Display

end Checklist
