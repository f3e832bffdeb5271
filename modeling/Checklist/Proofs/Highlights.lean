import Mathlib.Data.List.Chain
import Checklist.Proofs.Editing
import Checklist.Proofs.Files
import Checklist.Proofs.Perform
import Checklist.Proofs.Regions

namespace Checklist
open Machine

namespace Region

/-- Regions in the order of the document, each of a line at least, that do not meet. -/
structure Ordered (regions : List Region) : Prop where
  filled : ∀ region ∈ regions, region.startLine ≤ region.endLine
  apart : regions.IsChain fun region next => region.endLine < next.startLine

section Ordered

variable {regions : List Region} {region : Region} {line : Nat}

/-- A region ends before all that come after it, not only before the next one. -/
theorem Ordered.pairwise (h : Ordered regions) :
    regions.Pairwise fun region next => region.endLine < next.startLine := by
  obtain ⟨filled, apart⟩ := h
  induction regions with
  | nil => exact .nil
  | cons region rest ih =>
    have hrest := ih (fun other ho => filled other (List.mem_cons_of_mem _ ho)) apart.tail
    refine .cons ?_ hrest
    intro later hlater
    cases rest with
    | nil => cases hlater
    | cons next rest =>
      have hnext := (List.isChain_cons_cons.mp apart).1
      rcases List.mem_cons.mp hlater with rfl | hlater
      · exact hnext
      · have hfilled := filled next (List.mem_cons_of_mem _ List.mem_cons_self)
        have hlast := (List.pairwise_cons.mp hrest).1 later hlater
        omega

/-- The first region that has a line is the only one. -/
theorem find?_contains_eq_some_iff
    (h : regions.Pairwise fun region next => region.endLine < next.startLine) :
    regions.find? (·.contains line) = some region ↔
      region ∈ regions ∧ region.contains line = true := by
  induction regions with
  | nil => simp
  | cons first rest ih =>
    obtain ⟨hfirst, hrest⟩ := List.pairwise_cons.mp h
    rw [List.find?_cons, List.mem_cons]
    cases hc : first.contains line with
    | true =>
      constructor
      · rintro ⟨⟩
        exact ⟨.inl rfl, hc⟩
      · rintro ⟨rfl | hmem, hregion⟩
        · rfl
        · have hlt := hfirst region hmem
          rw [contains_iff] at hc hregion
          omega
    | false =>
      rw [ih hrest]
      constructor
      · rintro ⟨hmem, hregion⟩
        exact ⟨.inr hmem, hregion⟩
      · rintro ⟨rfl | hmem, hregion⟩
        · rw [hc] at hregion
          cases hregion
        · exact ⟨hmem, hregion⟩

end Ordered

end Region

namespace Document

theorem exists_line (doc : Document) {i : Nat} (h : i < doc.lineCount) :
    ∃ line, doc.line? i = some line := by
  rw [line?, LineIndex.lineSpan, List.getElem?_eq_getElem h]
  exact ⟨_, rfl⟩

/-- All lines are listed, each at its place. -/
theorem lines_eq (doc : Document) :
    doc.lines = (List.range doc.lineCount).map fun i => (doc.line? i).getD [] := by
  rw [lines, ← List.filterMap_eq_map]
  apply List.filterMap_congr
  intro i hi
  obtain ⟨line, hline⟩ := doc.exists_line (List.mem_range.mp hi)
  rw [Function.comp_apply, hline, Option.getD_some]

theorem lines_length (doc : Document) : doc.lines.length = doc.lineCount := by
  rw [lines_eq, List.length_map, List.length_range]

theorem getElem?_lines (doc : Document) (i : Nat) : doc.lines[i]? = doc.line? i := by
  rw [lines_eq, List.getElem?_map]
  by_cases hi : i < doc.lineCount
  · obtain ⟨line, hline⟩ := doc.exists_line hi
    rw [List.getElem?_range hi, Option.map_some, hline, Option.getD_some]
  · rw [List.getElem?_eq_none (by simpa using hi), line?, LineIndex.lineSpan,
      List.getElem?_eq_none (Nat.le_of_not_lt hi)]
    rfl

end Document

namespace Display

/-- The style of the region that has a line, where its state has one. -/
def styled? (regions : List Region) (styles : List Style) (i : Nat) : Option Style :=
  (regions.find? (·.contains i)).bind fun region => styles[region.state]?

/-- The lines of a document one after another, highlighted where `styled` gives them a style. -/
def drawn (display : Display) (doc : Document) (styled : Nat → Option Style) : Text :=
  (doc.lines.mapIdx fun i line =>
    display.drawLine (display.numberWidth doc.lineCount) i (styled i) line).flatten

section Pointer

variable {regions : List Region} {styles : List Style} {i : Nat}

theorem styled?_eq_some_iff
    (h : regions.Pairwise fun region next => region.endLine < next.startLine) {style : Style} :
    styled? regions styles i = some style ↔
      ∃ region ∈ regions, region.contains i = true ∧ styles[region.state]? = some style := by
  simp only [styled?, Option.bind_eq_some_iff, Region.find?_contains_eq_some_iff h, and_assoc]

/-- Regions that end before a line matter to no line from there on. -/
theorem styled?_dropWhile (regions : List Region) (styles : List Style) {j : Nat} (h : i ≤ j) :
    styled? (regions.dropWhile fun region => region.endLine < i) styles j =
      styled? regions styles j := by
  induction regions with
  | nil => rfl
  | cons region rest ih =>
    rw [List.dropWhile_cons]
    split
    · rename_i hbefore
      have hnot : region.contains j = false := by
        rw [Bool.eq_false_iff, Ne, Region.contains_iff]
        rw [decide_eq_true_eq] at hbefore
        omega
      rw [ih, styled?, styled?, List.find?_cons, hnot]
    · rfl

/-- Where the first region does not end before a line, it is the only one that can have it. -/
theorem styleAt?_eq
    (h : regions.Pairwise fun region next => region.endLine < next.startLine)
    (hfirst : ∀ region, regions.head? = some region → i ≤ region.endLine) :
    styleAt? regions styles i = styled? regions styles i := by
  cases regions with
  | nil => rfl
  | cons region rest =>
    have hend := hfirst region rfl
    rw [styleAt?, styled?, List.find?_cons]
    cases hc : region.contains i with
    | true => rfl
    | false =>
      have hnone : rest.find? (·.contains i) = none := by
        rw [List.find?_eq_none]
        intro later hlater
        have hstart := (List.pairwise_cons.mp h).1 later hlater
        rw [Region.contains_iff]
        omega
      rw [hnone]
      rfl

/-- Moving on over the regions gives each line the style that a search of all regions gives it. -/
theorem drawLines_eq (display : Display) (numberWidth : Nat) (styles : List Style)
    (h : regions.Pairwise fun region next => region.endLine < next.startLine) (lines : List Text) :
    display.drawLines numberWidth styles i regions lines =
      (lines.mapIdx fun k line =>
        display.drawLine numberWidth (i + k) (styled? regions styles (i + k)) line).flatten := by
  induction lines generalizing i regions with
  | nil => rfl
  | cons line rest ih =>
    -- the regions that are dropped end before this line, and so before all lines to come
    have hdropped := h.sublist (List.dropWhile_sublist fun region => region.endLine < i)
    have hhead : styleAt? (regions.dropWhile fun region => region.endLine < i) styles i =
        styled? regions styles i := by
      rw [styleAt?_eq hdropped, styled?_dropWhile regions styles (Nat.le_refl i)]
      intro region hregion
      have hnot := List.head?_dropWhile_not (fun region : Region => region.endLine < i) regions
      rw [hregion] at hnot
      exact Nat.le_of_not_lt (decide_eq_false_iff_not.mp hnot)
    rw [drawLines, hhead, ih hdropped, List.mapIdx_cons, List.flatten_cons]
    congr 3
    funext k line
    rw [styled?_dropWhile regions styles (by omega), Nat.add_right_comm, Nat.add_assoc]

theorem render_eq_drawn (display : Display) (doc : Document) (styles : List Style)
    (h : regions.Pairwise fun region next => region.endLine < next.startLine) :
    display.render doc regions styles = display.drawn doc (styled? regions styles) := by
  rw [render, drawLines_eq display _ styles h, drawn]
  simp only [Nat.zero_add]

theorem render_eq (display : Display) (doc : Document) (styles : List Style)
    (h : Region.Ordered regions) :
    display.render doc regions styles = display.drawn doc (styled? regions styles) :=
  render_eq_drawn display doc styles h.pairwise

end Pointer

end Display

section Scanned

variable {engine : Engine} {config : Config} {set : TokenSet}

theorem TokenSet.lt_of_kind_eq {line : Text} {place : Nat} (h : set.kind line = .state place) :
    place < set.states.length := by
  unfold kind at h
  split at h
  · rename_i found hfound
    cases h
    exact (List.findIdx?_eq_some_iff_getElem.mp hfound).1
  · split at h
    · cases h
    · cases h

/-- A region of a text is of a state that is there, on lines that are there. -/
theorem Region.bounds_of_mem_ofText (h : set.Accepted) {t : Text} {region : Region}
    (hmem : region ∈ Region.ofText set t) :
    region.state < set.states.length ∧ region.startLine ≤ region.endLine ∧
      region.endLine < (LineIndex.ofText t).lineCount := by
  rw [ofText_eq_ofKinds h, mem_ofKinds_iff_kinds] at hmem
  obtain ⟨hkind, hle, hlt, -⟩ := hmem
  rw [TokenSet.kinds, List.getElem?_map, Option.map_eq_some_iff] at hkind
  obtain ⟨row, -, hkind⟩ := hkind
  refine ⟨TokenSet.lt_of_kind_eq hkind, hle, ?_⟩
  rwa [TokenSet.kinds, List.length_map, ← LineIndex.lineCount_ofText] at hlt

theorem Region.ordered_ofText (h : set.Accepted) (t : Text) : Ordered (ofText set t) where
  filled _ hmem := (bounds_of_mem_ofText h hmem).2.1
  apart := by
    rw [ofText_eq_ofKinds h]
    exact (ofKinds_pairwise 0 _).isChain

/-- A state that is configured has its name and its style at one place. -/
theorem Config.exists_state (tokens : config.tokenSet engine = .ok set) {place : Nat}
    (h : place < set.states.length) :
    ∃ state, config.states[place]? = some state ∧
      set.states[place]? = some ⟨state.name, state.token⟩ ∧
      config.styles[place]? = some (config.styleOf state) := by
  obtain ⟨rfl, -⟩ := TokenSet.ofStates_eq_ok_iff.mp tokens
  rw [List.length_map] at h
  have hstate := List.getElem?_eq_getElem h
  refine ⟨config.states[place], hstate, ?_, ?_⟩
  · rw [List.getElem?_map, hstate, Option.map_some]
  · rw [styles, List.getElem?_map, hstate, Option.map_some]

theorem Config.styles_getElem?_eq_some_iff {place : Nat} {style : Style} :
    config.styles[place]? = some style ↔
      ∃ state, config.states[place]? = some state ∧ style = config.styleOf state := by
  rw [styles, List.getElem?_map, Option.map_eq_some_iff]
  exact exists_congr fun state => and_congr_right fun _ => eq_comm

end Scanned

namespace Session

section Commands

variable {engine : Engine} {machine : Machine} {config : Config} {file : Path} {set : TokenSet}
  {t : Text}

theorem perform_scan (covered : config.covers file = true)
    (tokens : config.tokenSet engine = .ok set)
    (readable : machine.files.read machine.directory file = .ok t) :
    machine.perform (scan engine config file) = (.ok (), { machine with
      output := machine.output ++
        ((Document.ofFile file t).regions set).flatMap (regionLine set) }) := by
  unfold scan
  rw [if_pos covered, tokens, perform_bind_of_ok (perform_orStop_ok _ _),
    perform_bind_of_ok (perform_load_of_ok readable), perform_print]

theorem perform_draw (columns : Nat) (lineNumbers : Bool) (covered : config.covers file = true)
    (tokens : config.tokenSet engine = .ok set)
    (readable : machine.files.read machine.directory file = .ok t) :
    machine.perform (draw engine config columns file lineNumbers) = (.ok (), { machine with
      output := machine.output ++ Display.render { lineNumbers, columns } (.ofFile file t)
        ((Document.ofFile file t).regions set) config.styles }) := by
  unfold draw
  rw [perform_bind_of_ok (perform_load_of_ok readable)]
  dsimp only
  rw [if_pos covered, tokens, perform_bind_of_ok (perform_orStop_ok _ _), perform_print]

end Commands

end Session

end Checklist
