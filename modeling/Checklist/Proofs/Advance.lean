import Checklist.Proofs.LineKind
import Checklist.Proofs.Rows

namespace Checklist

/-- The kind of a line once advanced, where there are `count` states. -/
def LineKind.next (count : Nat) : LineKind → LineKind
  | .state place => if place + 1 < count then .state (place + 1) else .comment
  | .comment => .state 0
  | .plain => .state 0

theorem LineKind.next_ne (count : Nat) (kind : LineKind) : kind.next count ≠ kind := by
  cases kind with
  | state place =>
    simp only [next]
    split
    · simp
    · simp
  | comment => simp [next]
  | plain => simp [next]

namespace TokenSet
open Text

/-- A row with its content advanced and its carriage return kept. -/
def advanceRow (set : TokenSet) (row : Text) : Text :=
  set.advance (content row) ++ carriage row

section Entry

variable {set : TokenSet}

theorem rotation_getElem? (set : TokenSet) {place : Nat} (h : place < set.rotation.length) :
    set.rotation[place]? = some (set.entry place) := by
  simp [entry, Nat.mod_eq_of_lt h]

theorem entry_mod (set : TokenSet) (place : Nat) :
    set.entry (place % set.rotation.length) = set.entry place := by
  simp [entry]

/-- An entry of the rotation is the literal at its place, or the comment marker and a space. -/
theorem entry_of_literal {place : Nat} {literal : Text}
    (h : set.literals[place]? = some literal) :
    ∃ gap, set.entry place = literal ++ gap ∧ ∀ c ∈ gap, c = ' ' := by
  have hlt := (List.getElem?_eq_some_iff.mp h).1
  rw [literals_length] at hlt
  have hentry := rotation_getElem? set (by rwa [rotation_length])
  by_cases hs : place < set.states.length
  · refine ⟨[], ?_, by simp⟩
    rw [rotation, List.getElem?_append_left (by simpa using hs)] at hentry
    rw [literals, List.getElem?_append_left (by simpa using hs)] at h
    rw [List.append_nil]
    exact Option.some.inj (hentry.symm.trans h)
  · have he : place = set.states.length := by omega
    subst he
    refine ⟨[' '], ?_, by simp⟩
    rw [literals_getElem?_comment, Option.some.injEq] at h
    subst h
    simpa [rotation] using hentry.symm

theorem exists_literal (set : TokenSet) (place : Nat) :
    ∃ literal, set.literals[place % set.rotation.length]? = some literal := by
  have hlt : place % set.rotation.length < set.literals.length := by
    rw [literals_length, rotation_length]
    exact Nat.mod_lt _ (Nat.succ_pos _)
  exact ⟨_, List.getElem?_eq_getElem hlt⟩

/-- Entries are seen and stay within a line, as literals do. -/
theorem Accepted.visible_entry (h : set.Accepted) (place : Nat) : Visible (set.entry place) := by
  obtain ⟨literal, hliteral⟩ := exists_literal set place
  obtain ⟨gap, hentry, hgap⟩ := entry_of_literal hliteral
  obtain ⟨⟨c, rest, hc, hblank⟩, hfeed, hreturn⟩ :=
    h.visible literal (List.mem_of_getElem? hliteral)
  rw [entry_mod] at hentry
  rw [hentry]
  refine ⟨⟨c, rest ++ gap, by rw [hc, List.cons_append], hblank⟩, ?_, ?_⟩
  · rw [List.mem_append, not_or]
    exact ⟨hfeed, fun hm => absurd (hgap _ hm) (by decide)⟩
  · rw [List.mem_append, not_or]
    exact ⟨hreturn, fun hm => absurd (hgap _ hm) (by decide)⟩

theorem Accepted.indent_entry (h : set.Accepted) {w : Text} (hw : Blank w) (place : Nat)
    (rest : Text) : indent (w ++ set.entry place ++ rest) = w := by
  obtain ⟨c, tail, hc, hblank⟩ := (h.visible_entry place).opens
  rw [List.append_assoc, hc, List.cons_append, indent_append_of_blank hw hblank]

theorem Accepted.body_entry (h : set.Accepted) {w : Text} (hw : Blank w) (place : Nat)
    (rest : Text) : body (w ++ set.entry place ++ rest) = set.entry place ++ rest := by
  obtain ⟨c, tail, hc, hblank⟩ := (h.visible_entry place).opens
  rw [List.append_assoc, hc, List.cons_append, body_append_of_blank hw hblank]

/-- An entry after an indentation makes a line of the kind at its place, whatever follows it. -/
theorem Accepted.kind_entry (h : set.Accepted) {w : Text} (hw : Blank w) (place : Nat)
    (rest : Text) :
    set.kind (w ++ set.entry place ++ rest) = set.kindAt (place % set.rotation.length) := by
  obtain ⟨literal, hliteral⟩ := exists_literal set place
  obtain ⟨gap, hentry, -⟩ := entry_of_literal hliteral
  apply h.kind_of_literal hliteral
  rw [h.body_entry hw, ← entry_mod, hentry, List.append_assoc]
  exact List.prefix_append literal _

theorem Accepted.kindAt_succ_mod (h : set.Accepted) {place : Nat}
    (hp : place < set.rotation.length) :
    set.kindAt ((place + 1) % set.rotation.length) =
      (set.kindAt place).next set.states.length := by
  have hpos := List.length_pos_iff.mpr h.states_ne_nil
  rw [rotation_length] at hp ⊢
  rcases Nat.lt_or_ge place set.states.length with hlt | hge
  · rw [Nat.mod_eq_of_lt (Nat.succ_lt_succ hlt), kindAt, kindAt, if_pos hlt, LineKind.next]
  · have he : place = set.states.length := Nat.le_antisymm (Nat.le_of_lt_succ hp) hge
    rw [he, Nat.mod_self, kindAt, kindAt, if_pos hpos, if_neg (Nat.lt_irrefl _), LineKind.next]

end Entry

section Advance

variable {set : TokenSet}

/-- An advance replaces the entry that opens the body by the next one, or puts the first one before
a body that no entry opens. -/
theorem advance_cases (set : TokenSet) (line : Text) :
    (∃ place rest, place < set.rotation.length ∧ body line = set.entry place ++ rest ∧
      set.advance line = indent line ++ set.entry (place + 1) ++ rest) ∨
    ((∀ entry ∈ set.rotation, ¬ entry <+: body line) ∧
      set.advance line = indent line ++ set.entry 0 ++ body line) := by
  cases hfound : set.rotationPrefix (body line) with
  | some place =>
    left
    obtain ⟨hlt, hopens, -⟩ := List.findIdx?_eq_some_iff_getElem.mp hfound
    have hentry := rotation_getElem? set hlt
    rw [List.getElem?_eq_getElem hlt, Option.some.injEq] at hentry
    rw [hentry, List.isPrefixOf_iff_prefix] at hopens
    obtain ⟨rest, hrest⟩ := hopens
    refine ⟨place, rest, hlt, hrest.symm, ?_⟩
    simp only [advance, hfound]
    rw [← hrest, List.drop_left]
  | none =>
    right
    rw [rotationPrefix, List.findIdx?_eq_none_iff] at hfound
    refine ⟨?_, ?_⟩
    · intro entry he hp
      have hno := hfound entry he
      rw [List.isPrefixOf_iff_prefix.mpr hp] at hno
      cases hno
    · simp only [advance, rotationPrefix, List.findIdx?_eq_none_iff.mpr hfound]

/-- What an advance keeps of the line is its indentation and an end of it. -/
theorem advance_eq (set : TokenSet) (line : Text) :
    ∃ place rest, rest <:+ line ∧ set.advance line = indent line ++ set.entry place ++ rest := by
  have hbody : body line <:+ line := List.dropWhile_suffix _
  rcases advance_cases set line with ⟨place, rest, -, hrest, hadvance⟩ | ⟨-, hadvance⟩
  · have hsuffix : rest <:+ body line := by
      rw [hrest]
      exact List.suffix_append _ rest
    exact ⟨place + 1, rest, hsuffix.trans hbody, hadvance⟩
  · exact ⟨0, body line, hbody, hadvance⟩

/-- The scanner's kinds follow the rotation, whether an entry or a literal alone is found. -/
theorem Accepted.kind_advance (h : set.Accepted) (line : Text) :
    set.kind (set.advance line) = (set.kind line).next set.states.length := by
  rcases advance_cases set line with ⟨place, rest, hlt, hrest, hadvance⟩ | ⟨hnone, hadvance⟩
  · have hkind : set.kind line = set.kindAt place := by
      rw [← indent_append_body line, hrest, ← List.append_assoc,
        h.kind_entry (blank_indent line), Nat.mod_eq_of_lt hlt]
    rw [hadvance, h.kind_entry (blank_indent line), h.kindAt_succ_mod hlt, hkind]
  · have hfirst : set.kindAt 0 = .state 0 := by
      rw [kindAt, if_pos (List.length_pos_iff.mpr h.states_ne_nil)]
    rw [hadvance, h.kind_entry (blank_indent line), Nat.zero_mod, hfirst]
    rcases h.kind_cases line with ⟨hplain, -⟩ | ⟨place, literal, hplace, hopens, hkind⟩
    · rw [hplain, LineKind.next]
    · -- a state token would be an entry, so only a bare comment marker is left
      have hcomment : ¬ place < set.states.length := by
        intro hlt
        obtain ⟨state, hstate, hliteral⟩ := states_getElem?_of_lt hlt
        cases Option.some.inj (hplace.symm.trans hliteral)
        refine hnone state.token (List.mem_append_left _ ?_) hopens
        exact List.mem_map_of_mem (List.mem_of_getElem? hstate)
      rw [hkind, kindAt, if_neg hcomment, LineKind.next]

theorem Accepted.advance_ne (h : set.Accepted) (line : Text) : set.advance line ≠ line := by
  intro he
  have hkind := h.kind_advance line
  rw [he] at hkind
  exact LineKind.next_ne _ _ hkind.symm

theorem Accepted.no_feed_advance (h : set.Accepted) {line : Text} (hline : '\n' ∉ line) :
    '\n' ∉ set.advance line := by
  obtain ⟨place, rest, hrest, hadvance⟩ := advance_eq set line
  rw [hadvance, List.mem_append, List.mem_append, not_or, not_or]
  refine ⟨⟨?_, (h.visible_entry place).no_feed⟩, fun hm => hline (hrest.subset hm)⟩
  exact fun hm => hline ((List.takeWhile_prefix _).subset hm)

/-- A carriage return that ends an advanced line ended it before. -/
theorem Accepted.getLast?_of_advance (h : set.Accepted) {line : Text}
    (hlast : (set.advance line).getLast? = some '\r') : line.getLast? = some '\r' := by
  obtain ⟨place, rest, hrest, hadvance⟩ := advance_eq set line
  rw [hadvance] at hlast
  cases hr : rest.getLast? with
  | some c =>
    obtain ⟨front, rfl⟩ := hrest
    rw [List.getLast?_append, hr, Option.some_or] at hlast ⊢
    exact hlast
  | none =>
    -- the entry comes last, and it holds no carriage return
    rw [List.getLast?_eq_none_iff] at hr
    subst hr
    obtain ⟨c, tail, hc, -⟩ := (h.visible_entry place).opens
    rw [List.append_nil, List.getLast?_append, Option.or_eq_some_iff] at hlast
    rcases hlast with hlast | ⟨hempty, -⟩
    · exact absurd (List.mem_of_getLast? hlast) (h.visible_entry place).no_return
    · rw [hc, List.getLast?_eq_none_iff] at hempty
      cases hempty

end Advance

section Row

variable {set : TokenSet}

theorem Accepted.advanceRow_spec (h : set.Accepted) (row : Text) :
    content (set.advanceRow row) = set.advance (content row) ∧
      carriage (set.advanceRow row) = carriage row :=
  content_append_carriage_eq h.getLast?_of_advance

/-- The scanner sees the carriage return of a line and the editor does not, and it makes no
difference. -/
theorem Accepted.kind_append_carriage (h : set.Accepted) (line row : Text) :
    set.kind (line ++ carriage row) = set.kind line := by
  unfold carriage
  split
  · exact h.kind_append_cons (by decide) (fun _ hm => (h.visible _ hm).no_return) line []
  · rw [List.append_nil]

theorem Accepted.kind_advanceRow (h : set.Accepted) (row : Text) :
    set.kind (set.advanceRow row) = (set.kind row).next set.states.length := by
  have hrow := h.kind_append_carriage (content row) row
  rw [content_append_carriage] at hrow
  rw [advanceRow, h.kind_append_carriage, h.kind_advance, hrow]

end Row

end TokenSet

end Checklist
