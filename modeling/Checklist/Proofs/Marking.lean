import Checklist.Proofs.Drawing

namespace Checklist

namespace Display
open Screen Text

/-- A row of a highlighted line: its number, and behind a mark the text and spaces, in the pens of a
style. Its end takes a terminal from any pen back to its own. -/
def Marked (display : Display) (lineCount i : Nat) (style : Style) (line row : Text) : Prop :=
  ∃ field before after n,
    row = field ++
      (before ++ (expandTabs display.tabWidth line ++ List.replicate n ' ') ++ after) ∧
    Numbered display lineCount i field ∧
    Draws .own before [⟨'▌', markPen style⟩] (linePen style) ∧ ∀ pen, Draws pen after [] .own

/-- A row of any other line: its number, a space and the text. -/
def Unmarked (display : Display) (lineCount i : Nat) (line row : Text) : Prop :=
  ∃ field, row = field ++ ' ' :: expandTabs display.tabWidth line ∧
    Numbered display lineCount i field

section Marked

variable {display : Display} {lineCount i : Nat} {style : Style} {line row : Text}

theorem Numbered.length_eq {field field' : Text} (h : Numbered display lineCount i field)
    (h' : Numbered display lineCount i field') : field.length = field'.length := by
  cases hnumbers : display.lineNumbers with
  | false => rw [h.off hnumbers, h'.off hnumbers]
  | true => rw [(h.on hnumbers).1, (h'.on hnumbers).1]

theorem marked_drawnRow (display : Display) (style : Style) (line : Text) (hi : i < lineCount) :
    Marked display lineCount i style line
      (display.drawnRow (display.numberWidth lineCount) i (some style) line) := by
  refine ⟨_, lead style, reset, display.columns -
    (display.numberWidth lineCount + 1 + (expandTabs display.tabWidth line).displayWidth), ?_,
    numbered_numberField display hi, draws_lead style, draws_reset⟩
  rw [drawnRow, drawnText, highlighted_eq, padding]

theorem unmarked_drawnRow (display : Display) (line : Text) (hi : i < lineCount) :
    Unmarked display lineCount i line
      (display.drawnRow (display.numberWidth lineCount) i none line) :=
  ⟨_, rfl, numbered_numberField display hi⟩

/-- Where the text itself leaves the terminal alone, all that is shown of a marked row is told. -/
theorem Marked.draws (h : Marked display lineCount i style line row) (bare : '\x1b' ∉ line) :
    ∃ field n, Numbered display lineCount i field ∧
      Draws .own row (field.map (⟨·, .own⟩) ++ ⟨'▌', markPen style⟩ ::
        (expandTabs display.tabWidth line ++ List.replicate n ' ').map (⟨·, linePen style⟩))
        .own := by
  obtain ⟨field, before, after, n, rfl, numbered, hbefore, hafter⟩ := h
  have hfield := draws_plain .own (numbered.not_mem (c := '\x1b') (by decide) (by decide))
  have htext : '\x1b' ∉ expandTabs display.tabWidth line ++ List.replicate n ' ' := by
    rw [List.mem_append, not_or]
    exact ⟨not_mem_expandTabs (by decide) bare _, by simp⟩
  refine ⟨field, n, numbered, ?_⟩
  simpa using hfield.append ((hbefore.append (draws_plain _ htext)).append (hafter _))

/-- A row with a mark never looks like one without. -/
theorem Unmarked.not_marked (h : Unmarked display lineCount i line row) :
    ¬ Marked display lineCount i style line row := by
  obtain ⟨field, rfl, numbered⟩ := h
  rintro ⟨field', before, after, n, hrow, numbered', hbefore, -⟩
  obtain ⟨-, hrest⟩ := List.append_inj hrow (numbered.length_eq numbered')
  cases before with
  | nil => cases hbefore.eq_nil_of_nil
  | cons c before =>
    cases (List.cons.inj hrest).1
    obtain ⟨_, hcells⟩ := hbefore.prefix_of_cons (by decide)
    cases hcells

end Marked

section Rows

variable {doc : Document} {regions : List Region}

/-- A row is marked for the region that has its line, and unmarked if none with a style has it. -/
theorem exists_rows (display : Display) (doc : Document) (ordered : Region.Ordered regions)
    (styles : List Style) : ∃ rows : List Text,
      display.render doc regions styles = ended rows ∧ rows.length = doc.lineCount ∧
      ∀ i < doc.lineCount, ∃ line row, doc.line? i = some line ∧ rows[i]? = some row ∧
        (∀ region ∈ regions, region.contains i = true →
          ∀ style, styles[region.state]? = some style →
            Marked display doc.lineCount i style line row) ∧
        ((∃ style, Marked display doc.lineCount i style line row) ↔
          ∃ region ∈ regions, region.contains i = true ∧ region.state < styles.length) ∧
        ((¬ ∃ region ∈ regions, region.contains i = true ∧ region.state < styles.length) →
          Unmarked display doc.lineCount i line row) := by
  refine ⟨display.drawnRows doc (styled? regions styles), ?_, drawnRows_length, ?_⟩
  · rw [render_eq display doc styles ordered, drawn_eq_ended]
  · intro i hi
    obtain ⟨line, hline⟩ := doc.exists_line hi
    refine ⟨line, display.drawnRow (display.numberWidth doc.lineCount) i (styled? regions styles i)
      line, hline, by rw [getElem?_drawnRows, hline, Option.map_some], ?_⟩
    cases hstyled : styled? regions styles i with
    | some shown =>
      have hmarked := marked_drawnRow display shown line hi
      obtain ⟨region, hregion, hcontains, hshown⟩ :=
        (styled?_eq_some_iff ordered.pairwise).mp hstyled
      have hstyle : ∃ region ∈ regions, region.contains i = true ∧ region.state < styles.length :=
        ⟨region, hregion, hcontains, (List.getElem?_eq_some_iff.mp hshown).1⟩
      refine ⟨?_, iff_of_true ⟨shown, hmarked⟩ hstyle, fun hno => absurd hstyle hno⟩
      intro other hother hcontains' style hstyle'
      cases hstyled.symm.trans ((styled?_eq_some_iff ordered.pairwise).mpr
        ⟨other, hother, hcontains', hstyle'⟩)
      exact hmarked
    | none =>
      have hunmarked := unmarked_drawnRow display line hi
      have hno (region : Region) (hregion : region ∈ regions) (hcontains : region.contains i = true)
          (style : Style) : styles[region.state]? ≠ some style := by
        intro hstyle
        cases hstyled.symm.trans ((styled?_eq_some_iff ordered.pairwise).mpr
          ⟨region, hregion, hcontains, hstyle⟩)
      refine ⟨fun region hregion hcontains style hstyle =>
        absurd hstyle (hno region hregion hcontains style), iff_of_false ?_ ?_, fun _ => hunmarked⟩
      · exact fun ⟨_, hmarked⟩ => hunmarked.not_marked hmarked
      · exact fun ⟨region, hregion, hcontains, hlt⟩ =>
          hno region hregion hcontains _ (List.getElem?_eq_getElem hlt)

end Rows

/-- A screen shows a line with a mark, in the pens of a style, if and only if a region that has that
style has the line, and all other lines without. The regions that are scanned all have a name and a
style, so that the marked lines are those that the scan prints, each in the style of the state that
it prints. -/
theorem render_linewise :
    (∀ (display : Display) (doc : Document) (regions : List Region) (styles : List Style),
      Region.Ordered regions → ∃ rows : List Text,
        display.render doc regions styles = ended rows ∧
        (0 < display.tabWidth → display.render? doc regions styles = some (ended rows)) ∧
        rows.length = doc.lineCount ∧
        ∀ i < doc.lineCount, ∃ line row, doc.line? i = some line ∧ rows[i]? = some row ∧
          (∀ region ∈ regions, region.contains i = true →
            ∀ style, styles[region.state]? = some style →
              Marked display doc.lineCount i style line row ∧
              ('\x1b' ∉ line → ∃ field n, Numbered display doc.lineCount i field ∧
                Draws .own row (field.map (⟨·, .own⟩) ++ ⟨'▌', markPen style⟩ ::
                  (expandTabs display.tabWidth line ++ List.replicate n ' ').map
                    (⟨·, linePen style⟩)) .own)) ∧
          ((∃ style, Marked display doc.lineCount i style line row) ↔
            ∃ region ∈ regions, region.contains i = true ∧ region.state < styles.length) ∧
          ((¬ ∃ region ∈ regions, region.contains i = true ∧ region.state < styles.length) →
            Unmarked display doc.lineCount i line row)) ∧
    ∀ (engine : Engine) (config : Config) (set : TokenSet), config.tokenSet engine = .ok set →
      (∀ doc : Document,
        Region.Ordered (doc.regions set) ∧
        (∀ region ∈ doc.regions set, ∃ state,
          config.states[region.state]? = some state ∧
          config.styles[region.state]? = some (config.styleOf state) ∧
          Session.regionLine set region = state.name ++ ' ' ::
            Text.decimal (region.startLine + 1) ++ '-' :: Text.decimal (region.endLine + 1) ++
            ['\n']) ∧
        (doc.Consistent → ∀ region ∈ doc.regions set, region.endLine < doc.lineCount) ∧
        ∀ display : Display, ∃ rows : List Text,
          display.render doc (doc.regions set) config.styles = ended rows ∧
          rows.length = doc.lineCount ∧
          ∀ i < doc.lineCount, ∃ line row, doc.line? i = some line ∧ rows[i]? = some row ∧
            (∀ region ∈ doc.regions set, region.contains i = true →
              ∀ state, config.states[region.state]? = some state →
                Marked display doc.lineCount i (config.styleOf state) line row) ∧
            ((∃ style, Marked display doc.lineCount i style line row) ↔
              ∃ region ∈ doc.regions set, region.contains i = true) ∧
            ((¬ ∃ region ∈ doc.regions set, region.contains i = true) →
              Unmarked display doc.lineCount i line row)) ∧
      ∀ (machine : Machine) (file : Path) (t : Text) (columns : Nat) (lineNumbers : Bool),
        config.covers file = true → machine.files.read machine.directory file = .ok t →
        machine.perform (Session.scan engine config file) = (.ok (), { machine with
          output := machine.output ++
            ((Document.ofFile file t).regions set).flatMap (Session.regionLine set) }) ∧
        machine.perform (Session.draw engine config columns file lineNumbers) =
          (.ok (), { machine with
            output := machine.output ++ render { lineNumbers, columns } (.ofFile file t)
              ((Document.ofFile file t).regions set) config.styles }) := by
  refine ⟨?_, ?_⟩
  · intro display doc regions styles ordered
    obtain ⟨rows, hrender, hlength, hrows⟩ := exists_rows display doc ordered styles
    refine ⟨rows, hrender, ?_, hlength, ?_⟩
    · intro stops
      rw [render?_eq stops ordered.pairwise styles, ← hrender,
        render_eq display doc styles ordered, drawn_eq_ended]
    · intro i hi
      obtain ⟨line, row, hline, hrow, hmarked, hiff, hunmarked⟩ := hrows i hi
      refine ⟨line, row, hline, hrow, ?_, hiff, hunmarked⟩
      intro region hregion hcontains style hstyle
      have h := hmarked region hregion hcontains style hstyle
      exact ⟨h, h.draws⟩
  · intro engine config set tokens
    have hset := TokenSet.accepted_of_ofStates tokens
    have ordered : ∀ doc : Document, Region.Ordered (doc.regions set) :=
      fun doc => Region.ordered_ofText hset doc.text
    have hstate (doc : Document) (region : Region) (hmem : region ∈ doc.regions set) :=
      Config.exists_state tokens (Region.bounds_of_mem_ofText hset hmem).1
    refine ⟨fun doc => ⟨ordered doc, ?_, ?_, ?_⟩, ?_⟩
    · intro region hmem
      obtain ⟨state, hstate, hname, hstyle⟩ := hstate doc region hmem
      refine ⟨state, hstate, hstyle, ?_⟩
      rw [Session.regionLine, hname]
    · intro consistent region hmem
      have hlt := (Region.bounds_of_mem_ofText hset hmem).2.2
      rwa [← consistent] at hlt
    · intro display
      obtain ⟨rows, hrender, hlength, hrows⟩ :=
        exists_rows display doc (ordered doc) config.styles
      refine ⟨rows, hrender, hlength, ?_⟩
      intro i hi
      obtain ⟨line, row, hline, hrow, hmarked, hiff, hunmarked⟩ := hrows i hi
      -- all states that are scanned have a style
      have hstyled : (∃ region ∈ doc.regions set, region.contains i = true ∧
          region.state < config.styles.length) ↔
            ∃ region ∈ doc.regions set, region.contains i = true := by
        refine exists_congr fun region => and_congr_right fun hmem => and_iff_left ?_
        obtain ⟨_, -, -, hstyle⟩ := hstate doc region hmem
        exact (List.getElem?_eq_some_iff.mp hstyle).1
      rw [hstyled] at hiff hunmarked
      refine ⟨line, row, hline, hrow, ?_, hiff, hunmarked⟩
      intro region hregion hcontains state hstate
      exact hmarked region hregion hcontains _
        (Config.styles_getElem?_eq_some_iff.mpr ⟨state, hstate, rfl⟩)
    · intro machine file t columns lineNumbers covered readable
      exact ⟨Session.perform_scan covered tokens readable,
        Session.perform_draw columns lineNumbers covered tokens readable⟩

/-- A gap, a state that has no style and a region that reaches past the last line; and a scan of a
file with a comment in it. -/
theorem render_linewise_standard :
    Region.Ordered [⟨0, 0, 0⟩, ⟨7, 1, 1⟩, ⟨1, 3, 9⟩] ∧
    Config.default.tokenSet .usual = .ok .standard ∧
    (∃ rows : List Text, render { columns := 20 } (.ofText "- a\nb\n\n+ d".toList)
        [⟨0, 0, 0⟩, ⟨7, 1, 1⟩, ⟨1, 3, 9⟩] Config.default.styles = ended rows ∧
      (∃ row style, rows[0]? = some row ∧ Config.default.styles[0]? = some style ∧
        Marked { columns := 20 } 4 0 style "- a".toList row) ∧
      (∃ row, rows[1]? = some row ∧ Unmarked { columns := 20 } 4 1 "b".toList row) ∧
      ∃ row style, rows[3]? = some row ∧ Config.default.styles[1]? = some style ∧
        Marked { columns := 20 } 4 3 style "+ d".toList row) ∧
    (Machine.start (.ofTexts [(["a.todo".toList], "- a\nb\n -- c\n+ d".toList)]) []).perform
        (Session.scan .usual .default "a.todo".toList) =
      (.ok (), { Machine.start
          (.ofTexts [(["a.todo".toList], "- a\nb\n -- c\n+ d".toList)]) [] with
        output := "todo 1-2\ndone 4-4\n".toList }) := by
  obtain ⟨hrender, hconfig⟩ := render_linewise
  have ordered : Region.Ordered [⟨0, 0, 0⟩, ⟨7, 1, 1⟩, ⟨1, 3, 9⟩] := ⟨by decide, by decide⟩
  have tokens : Config.default.tokenSet .usual = .ok .standard := by rfl
  obtain ⟨rows, hdrawn, -, -, hrows⟩ :=
    hrender { columns := 20 } (.ofText "- a\nb\n\n+ d".toList) _ Config.default.styles ordered
  have hscan := ((hconfig .usual .default .standard tokens).2
    (.start (.ofTexts [(["a.todo".toList], "- a\nb\n -- c\n+ d".toList)]) []) "a.todo".toList _ 20
    false (by decide) (FileTree.read_eq_ok_iff.mpr ⟨["a.todo".toList], rfl, rfl, rfl⟩)).1
  have hregions : (Document.ofFile "a.todo".toList "- a\nb\n -- c\n+ d".toList).regions .standard =
      [⟨0, 0, 1⟩, ⟨1, 3, 3⟩] :=
    (Region.ofText_eq_ofKinds (TokenSet.accepted_of_ofStates tokens) _).trans (by decide)
  rw [hregions] at hscan
  obtain ⟨_, -, -, htodo⟩ := Config.exists_state tokens (by decide : 0 < _)
  obtain ⟨_, -, -, hdone⟩ := Config.exists_state tokens (by decide : 1 < _)
  refine ⟨ordered, tokens, ⟨rows, hdrawn, ?_, ?_, ?_⟩, hscan⟩
  · obtain ⟨_, row, hline, hrow, hmarked, -, -⟩ := hrows 0 (by decide)
    cases Option.some.inj (hline.symm.trans (by decide : _ = some "- a".toList))
    exact ⟨row, _, hrow, htodo, (hmarked ⟨0, 0, 0⟩ (by decide) (by decide) _ htodo).1⟩
  · obtain ⟨_, row, hline, hrow, -, -, hunmarked⟩ := hrows 1 (by decide)
    cases Option.some.inj (hline.symm.trans (by decide : _ = some "b".toList))
    exact ⟨row, hrow, hunmarked (by decide)⟩
  · obtain ⟨_, row, hline, hrow, hmarked, -, -⟩ := hrows 3 (by decide)
    cases Option.some.inj (hline.symm.trans (by decide : _ = some "+ d".toList))
    exact ⟨row, _, hrow, hdone, (hmarked ⟨1, 3, 9⟩ (by decide) (by decide) _ hdone).1⟩

end Display

end Checklist
