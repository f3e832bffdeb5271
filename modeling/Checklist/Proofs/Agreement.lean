import Checklist.Proofs.Editing
import Checklist.Proofs.Regions

namespace Checklist
open Text

namespace TokenSet

/-- What an opening tells of its line. -/
def kindOf (set : TokenSet) (opening : Opening) : LineKind :=
  match set.stateEnding opening.literal with
  | some state => .state state
  | none => .comment

/-- What the scanner finds on a line of a text. -/
def found (set : TokenSet) (t : Text) (line : Nat) : LineKind :=
  match (set.openers.openings t).find? fun opening =>
    (LineIndex.ofText t).lineOf opening.offset = line with
  | some opening => set.kindOf opening
  | none => .plain

section Found

variable {set : TokenSet} {t : Text}

theorem Accepted.kindOf_eq (h : set.Accepted) {place : Nat} {literal : Text}
    (hplace : set.literals[place]? = some literal) (offset : Nat) (w : Text) :
    set.kindOf ⟨offset, w, literal⟩ = set.kindAt place := by
  rw [kindOf, Opening.literal, h.stateEnding_of_suffix hplace (List.suffix_append w literal),
    kindAt]
  by_cases hlt : place < set.states.length
  · rw [if_pos hlt, if_pos hlt]
  · rw [if_neg hlt, if_neg hlt]

/-- Openings of rows are not on lines before them. -/
theorem le_lineOf_of_mem_rowOpenings (pre : List Text) {post : List Text}
    (ht : t.rows = pre ++ post) {opening : Opening}
    (hm : opening ∈ set.openers.rowOpenings (ended pre).byteLength post) :
    pre.length ≤ (LineIndex.ofText t).lineOf opening.offset := by
  induction post generalizing pre with
  | nil => cases hm
  | cons row rest ih =>
    rw [Openers.rowOpenings, List.mem_append] at hm
    rcases hm with hm | hm
    · rw [Option.mem_toList, Openers.opening?, Option.map_eq_some_iff] at hm
      obtain ⟨literal, -, rfl⟩ := hm
      exact Nat.le_of_eq (LineIndex.lineOf_ended ht).symm
    · have hle := ih (pre ++ [row]) (by simp [ht]) (by rwa [byteLength_ended_concat])
      rw [List.length_append, List.length_singleton] at hle
      omega

/-- The first opening on a line is the only one, and it tells the line's kind. -/
theorem Accepted.find?_rowOpenings (h : set.Accepted) (pre : List Text) {post : List Text}
    (ht : t.rows = pre ++ post) (k : Nat) :
    (match (set.openers.rowOpenings (ended pre).byteLength post).find? fun opening =>
        (LineIndex.ofText t).lineOf opening.offset = pre.length + k with
      | some opening => set.kindOf opening
      | none => .plain) = ((post.map set.kind)[k]?).getD .plain := by
  induction post generalizing pre k with
  | nil => rfl
  | cons row rest ih =>
    have hline := LineIndex.lineOf_ended ht
    have hnext : t.rows = (pre ++ [row]) ++ rest := by simp [ht]
    have hlater : ∀ k, pre.length + (k + 1) = (pre ++ [row]).length + k := by
      intro k
      rw [List.length_append, List.length_singleton, Nat.add_assoc, Nat.add_comm 1]
    rcases h.kind_cases row with ⟨hplain, hnone⟩ | ⟨place, literal, hplace, hopens, hkind⟩
    · rw [rowOpenings_cons_of_plain hnone, List.map_cons]
      cases k with
      | zero =>
        have hnot : ∀ opening ∈ set.openers.rowOpenings (ended (pre ++ [row])).byteLength rest,
            ¬ (LineIndex.ofText t).lineOf opening.offset = pre.length + 0 := by
          intro opening hm he
          have hle := le_lineOf_of_mem_rowOpenings _ hnext hm
          rw [List.length_append, List.length_singleton] at hle
          omega
        rw [List.find?_eq_none.mpr (by simpa using hnot), hplain]
        rfl
      | succ k =>
        rw [hlater]
        exact ih _ hnext k
    · rw [h.rowOpenings_cons (List.mem_of_getElem? hplace) hopens, List.map_cons, List.find?_cons]
      cases k with
      | zero =>
        simp only [hline, Nat.add_zero, decide_true, List.getElem?_cons_zero, Option.getD_some,
          hkind]
        exact h.kindOf_eq hplace _ _
      | succ k =>
        have hne : ¬ pre.length = pre.length + (k + 1) := by omega
        simp only [hline, hne, decide_false]
        rw [hlater]
        exact ih _ hnext k

/-- The scanner finds on a line what the line alone tells. -/
theorem Accepted.found_eq (h : set.Accepted) (t : Text) (line : Nat) :
    set.found t line = ((set.kinds t)[line]?).getD .plain := by
  have hrows := h.find?_rowOpenings [] (List.nil_append t.rows).symm line
  rw [List.length_nil, Nat.zero_add] at hrows
  rw [found, h.openings_eq]
  exact hrows

theorem found_state_lt {line state : Nat} (hfound : set.found t line = .state state) :
    state < set.states.length := by
  rw [found] at hfound
  split at hfound
  · rename_i opening _
    rw [kindOf] at hfound
    split at hfound
    · rename_i place hplace
      cases hfound
      exact (List.findIdx?_eq_some_iff_getElem.mp hplace).1
    · cases hfound
  · cases hfound

end Found

end TokenSet

namespace Document
open TokenSet

variable {doc : Document} {set : TokenSet}

theorem Consistent.kinds_eq_map_found (h : doc.Consistent) (hset : set.Accepted) :
    set.kinds doc.text = (List.range doc.lineCount).map (set.found doc.text) := by
  apply List.ext_getElem?
  intro i
  rw [h.lineCount_eq, List.getElem?_map]
  rcases Nat.lt_or_ge i doc.text.rows.length with hlt | hge
  · have hkind : (set.kinds doc.text)[i]? = some (set.kind doc.text.rows[i]) := by
      rw [kinds, List.getElem?_map, List.getElem?_eq_getElem hlt, Option.map_some]
    rw [List.getElem?_range hlt, Option.map_some, hset.found_eq, hkind, Option.getD_some]
  · have hkinds : (set.kinds doc.text)[i]? = none := by
      rw [kinds, List.getElem?_map, List.getElem?_eq_none hge, Option.map_none]
    rw [hkinds, List.getElem?_eq_none (by rwa [List.length_range]), Option.map_none]

/-- What the scanner finds on a line, before and after an advance. -/
theorem Advanced.found_eq {doc' : Document} {lines : List Nat} (h : Advanced set lines doc doc')
    (hset : set.Accepted) {i : Nat} (hi : i < doc.lineCount) :
    set.found doc'.text i =
      if i ∈ lines then (set.found doc.text i).next set.states.length
      else set.found doc.text i := by
  obtain ⟨row, hrow⟩ := h.before.exists_row hi
  rw [hset.found_eq, hset.found_eq, kinds, kinds, List.getElem?_map, List.getElem?_map,
    h.rowwise.getElem?_rows, hrow, Option.map_some, Option.map_some, Option.map_some, Option.getD_some,
    Option.getD_some]
  split
  · exact hset.kind_advanceRow row
  · rfl

/-- The editor finds entries and the scanner finds literals, and they agree: an advance takes every
listed line from what the scanner finds on it to what comes next, and the regions of the new text
follow from that alone. -/
theorem advanceLines_found {engine : Engine} {states : List State} {comment : Text}
    (accepted : ofStates engine states comment = .ok set) (consistent : doc.Consistent)
    {lines : List Nat} (inRange : ∀ i ∈ lines, i < doc.lineCount) :
    ∃ count doc', doc.advanceLines set lines = (.ok count, doc') ∧
      (∀ i state, set.found doc.text i = .state state → state < set.states.length) ∧
      (∀ i ∈ lines, ∀ state, set.found doc.text i = .state state →
        state + 1 < set.states.length → set.found doc'.text i = .state (state + 1)) ∧
      (∀ i ∈ lines, ∀ state, set.found doc.text i = .state state →
        state + 1 = set.states.length → set.found doc'.text i = .comment) ∧
      (∀ i ∈ lines, set.found doc.text i = .comment → set.found doc'.text i = .state 0) ∧
      (∀ i ∈ lines, set.found doc.text i = .plain → set.found doc'.text i = .state 0) ∧
      (∀ i < doc.lineCount, i ∉ lines → set.found doc'.text i = set.found doc.text i) ∧
      Region.ofText set doc'.text = Region.ofKinds 0 ((List.range doc.lineCount).map fun i =>
        if i ∈ lines then (set.found doc.text i).next set.states.length
        else set.found doc.text i) := by
  have hset := accepted_of_ofStates accepted
  obtain ⟨doc', hrun, h⟩ := consistent.advanceLines_eq hset inRange
  have hnext : ∀ i ∈ lines,
      set.found doc'.text i = (set.found doc.text i).next set.states.length := by
    intro i hi
    rw [h.found_eq hset (inRange i hi), if_pos hi]
  refine ⟨_, doc', hrun, fun i state => found_state_lt, ?_, ?_, ?_, ?_, ?_, ?_⟩
  · intro i hi state hstate hlt
    rw [hnext i hi, hstate, LineKind.next, if_pos hlt]
  · intro i hi state hstate hlast
    rw [hnext i hi, hstate, LineKind.next, if_neg (by omega)]
  · intro i hi hcomment
    rw [hnext i hi, hcomment, LineKind.next]
  · intro i hi hplain
    rw [hnext i hi, hplain, LineKind.next]
  · intro i hlt hi
    rw [h.found_eq hset hlt, if_neg hi]
  · rw [Region.ofText_eq_ofKinds hset, h.after.kinds_eq_map_found hset,
      h.lineCount_eq]
    congr 1
    apply List.map_congr_left
    intro i hi
    exact h.found_eq hset (List.mem_range.mp hi)

/-- A state, the last one, a comment marker with and without a space, and lines left alone. -/
theorem advanceLines_found_standard :
    ofStates .usual defaultStates defaultComment = .ok standard ∧
    (ofText "- a\n\t-> b\n-- c\r\n--d\n\n+ e".toList).Consistent ∧
    (∀ i ∈ [3, 0, 1, 2], i < (ofText "- a\n\t-> b\n-- c\r\n--d\n\n+ e".toList).lineCount) ∧
    ∃ count doc', (ofText "- a\n\t-> b\n-- c\r\n--d\n\n+ e".toList).advanceLines standard
        [3, 0, 1, 2] = (.ok count, doc') ∧
      standard.found doc'.text 0 = .state 1 ∧ standard.found doc'.text 1 = .comment ∧
      standard.found doc'.text 2 = .state 0 ∧ standard.found doc'.text 4 = .plain ∧
      Region.ofText standard doc'.text = [⟨1, 0, 0⟩, ⟨0, 2, 2⟩, ⟨0, 3, 4⟩, ⟨1, 5, 5⟩] := by
  have inRange : ∀ i ∈ [3, 0, 1, 2],
      i < (ofText "- a\n\t-> b\n-- c\r\n--d\n\n+ e".toList).lineCount := by decide
  obtain ⟨count, doc', hrun, -, hnext, hlast, hcomment, -, hkept, hregions⟩ :=
    advanceLines_found ofStates_default (ofText_consistent _) inRange
  have hfound := (accepted_of_ofStates ofStates_default).found_eq
  refine ⟨ofStates_default, rfl, inRange, count, doc', hrun, ?_, ?_, ?_, ?_, ?_⟩
  · exact hnext 0 (by decide) 0 ((hfound _ 0).trans (by decide)) (by decide)
  · exact hlast 1 (by decide) 2 ((hfound _ 1).trans (by decide)) (by decide)
  · exact hcomment 2 (by decide) ((hfound _ 2).trans (by decide))
  · exact (hkept 4 (by decide) (by decide)).trans ((hfound _ 4).trans (by decide))
  · simp only [hfound] at hregions
    exact hregions.trans (by decide)

end Document

end Checklist
