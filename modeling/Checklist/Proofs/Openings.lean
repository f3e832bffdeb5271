import Mathlib.Data.List.Forall2
import Checklist.Region
import Checklist.Proofs.LineIndex
import Checklist.Proofs.LineKind

namespace Checklist
open Text TokenSet

namespace Openers

/-- No alternative is empty, reaches over a line or could be part of an indentation. -/
def AllVisible (openers : Openers) : Prop :=
  ∀ literal ∈ openers.alternatives, Visible literal

/-- The first alternative that a text starts with. -/
def alternative? (openers : Openers) (t : Text) : Option Text :=
  openers.alternatives.find? (·.isPrefixOf t)

/-- The opening of a line that begins at `offset`, by the line alone. -/
def opening? (openers : Openers) (offset : Nat) (line : Text) : Option Opening :=
  (openers.alternative? (body line)).map (⟨offset, indent line, ·⟩)

/-- The openings of rows one by one, of which the first begins at `offset`. -/
def rowOpenings (openers : Openers) (offset : Nat) : List Text → List Opening
  | [] => []
  | row :: rest =>
    (openers.opening? offset row).toList ++
      openers.rowOpenings (offset + row.byteLength + 1) rest

section Alternative

variable {openers : Openers}

theorem alternative?_eq_some {t literal : Text} (h : openers.alternative? t = some literal) :
    literal ∈ openers.alternatives ∧ literal <+: t := by
  have hp := List.find?_some h
  rw [List.isPrefixOf_iff_prefix] at hp
  exact ⟨List.mem_of_find?_eq_some h, hp⟩

theorem alternative?_eq_none_iff {t : Text} :
    openers.alternative? t = none ↔ ∀ literal ∈ openers.alternatives, ¬ literal <+: t := by
  simp [alternative?]

theorem alternative?_blank_cons (h : openers.AllVisible) {c : Char} (hc : isBlank c = true)
    (t : Text) : openers.alternative? (c :: t) = none := by
  rw [alternative?_eq_none_iff]
  rintro literal hl hp
  obtain ⟨d, rest, rfl, hd⟩ := (h literal hl).opens
  rw [(List.cons_prefix_cons.mp hp).1, hc] at hd
  cases hd

theorem alternative?_nil (h : openers.AllVisible) : openers.alternative? [] = none := by
  rw [alternative?_eq_none_iff]
  rintro literal hl hp
  obtain ⟨d, rest, rfl, -⟩ := (h literal hl).opens
  exact absurd (List.prefix_nil.mp hp) (by simp)

/-- The line feed after a row and all that follows are out of reach. -/
theorem alternative?_append_feed (h : openers.AllVisible) (w t : Text) :
    openers.alternative? (w ++ '\n' :: t) = openers.alternative? w := by
  unfold alternative?
  have hsame : ∀ literal ∈ openers.alternatives,
      literal.isPrefixOf (w ++ '\n' :: t) = literal.isPrefixOf w := by
    intro literal hl
    rw [Bool.eq_iff_iff, List.isPrefixOf_iff_prefix, List.isPrefixOf_iff_prefix]
    exact prefix_append_cons_iff (h literal hl).no_feed w t
  generalize openers.alternatives = literals at hsame
  induction literals with
  | nil => rfl
  | cons literal rest ih =>
    rw [List.find?_cons, List.find?_cons, hsame literal List.mem_cons_self,
      ih (fun l hl => hsame l (List.mem_cons_of_mem _ hl))]

/-- Backtracking never pays: the whole indentation is taken, and the alternatives are tried
once. -/
theorem openingAt_eq (h : openers.AllVisible) (t : Text) :
    openers.openingAt t = (openers.alternative? (body t)).map ((indent t, ·)) := by
  induction t with
  | nil => rfl
  | cons c t ih =>
    rw [body_cons, indent_cons]
    by_cases hc : isBlank c = true
    · have hhere : openers.alternatives.find? (·.isPrefixOf (c :: t)) = none :=
        alternative?_blank_cons h hc t
      simp only [openingAt, hc, ↓reduceIte, ih, hhere, Option.map_none]
      cases openers.alternative? (body t) with
      | none => rfl
      | some literal => rfl
    · simp only [openingAt, hc, Bool.false_eq_true, ↓reduceIte]
      rfl

theorem openingAt_append_feed (h : openers.AllVisible) (row t : Text) :
    openers.openingAt (row ++ '\n' :: t) = openers.openingAt row := by
  rw [openingAt_eq h, openingAt_eq h, body_append_cons rfl, indent_append_cons rfl,
    alternative?_append_feed h]

theorem opening?_eq_openingAt (h : openers.AllVisible) (offset : Nat) (row : Text) :
    openers.opening? offset row =
      (openers.openingAt row).map fun (indent, token) => ⟨offset, indent, token⟩ := by
  rw [openingAt_eq h, Option.map_map]
  rfl

/-- An opening is not empty, and lies within its line. -/
theorem openingAt_reach (h : openers.AllVisible) {row w literal : Text}
    (hf : openers.openingAt row = some (w, literal)) :
    0 < literal.length ∧ w.length + literal.length ≤ row.length := by
  rw [openingAt_eq h, Option.map_eq_some_iff] at hf
  obtain ⟨_, hl, he⟩ := hf
  simp only [Prod.mk.injEq] at he
  obtain ⟨rfl, rfl⟩ := he
  obtain ⟨hmem, hopens⟩ := alternative?_eq_some hl
  obtain ⟨c, rest, rfl, -⟩ := (h _ hmem).opens
  have hlen := congrArg List.length (indent_append_body row)
  have := hopens.length_le
  rw [List.length_append] at hlen
  exact ⟨by simp, by omega⟩

end Alternative

section Step

variable {openers : Openers} {offset : Nat} {covered : Option Nat} {c : Char} {t : Text}

/-- What the last opening still covers, one character on. -/
def uncover : Option Nat → Option Nat
  | some (n + 1) => some n
  | _ => none

theorem uncover_reach (covered : Option Nat) : (uncover covered).getD 0 = covered.getD 0 - 1 := by
  rcases covered with _ | _ | n <;> rfl

theorem uncover_of_reach_zero (h : covered.getD 0 = 0) : uncover covered = none := by
  rcases covered with _ | _ | n
  · rfl
  · rfl
  · cases h

/-- The opening that a search reports at the front of a text: none inside a line, none where the last
one still reaches, and no empty one where it ends. -/
def reported? (openers : Openers) (atStart : Bool) (covered : Option Nat) (t : Text) :
    Option (Text × Text) :=
  if atStart && (covered == none || covered == some 0) then
    (openers.openingAt t).filter fun (indent, token) =>
      covered == none || !(indent ++ token).isEmpty
  else none

theorem reported?_eq_some_iff {atStart : Bool} {w literal : Text} :
    openers.reported? atStart covered t = some (w, literal) ↔
      atStart = true ∧ covered.getD 0 = 0 ∧ openers.openingAt t = some (w, literal) ∧
        (covered = none ∨ w ++ literal ≠ []) := by
  unfold reported?
  rcases atStart with _ | _ <;> rcases covered with _ | _ | n <;>
    simp [Option.filter_eq_some_iff]

theorem openingsFrom_nil {atStart : Bool} : openers.openingsFrom offset atStart covered [] =
    ((openers.reported? atStart covered []).map fun found => ⟨offset, found.1, found.2⟩).toList := by
  conv => lhs; unfold openingsFrom
  cases h : openers.reported? atStart covered [] with
  | none =>
    unfold reported? at h
    simp only [h]
    rfl
  | some found =>
    unfold reported? at h
    simp only [h]
    rfl

theorem openingsFrom_of_none {atStart : Bool}
    (h : openers.reported? atStart covered (c :: t) = none) :
    openers.openingsFrom offset atStart covered (c :: t) =
      openers.openingsFrom (offset + c.utf8Size) (c == '\n') (uncover covered) t := by
  conv => lhs; unfold openingsFrom
  unfold reported? at h
  simp only [h]
  rfl

theorem openingsFrom_of_some {atStart : Bool} {w literal : Text}
    (h : openers.reported? atStart covered (c :: t) = some (w, literal)) :
    openers.openingsFrom offset atStart covered (c :: t) = ⟨offset, w, literal⟩ ::
      openers.openingsFrom (offset + c.utf8Size) (c == '\n')
        (uncover (some (w.length + literal.length))) t := by
  conv => lhs; unfold openingsFrom
  unfold reported? at h
  simp only [h]
  cases w.length + literal.length <;> rfl

theorem openingsFrom_inside : openers.openingsFrom offset false covered (c :: t) =
    openers.openingsFrom (offset + c.utf8Size) (c == '\n') (uncover covered) t :=
  openingsFrom_of_none rfl

theorem openingsFrom_inside_nil : openers.openingsFrom offset false covered [] = [] :=
  openingsFrom_nil

theorem openingsFrom_unopened (h : openers.openingAt (c :: t) = none) :
    openers.openingsFrom offset true none (c :: t) =
      openers.openingsFrom (offset + c.utf8Size) (c == '\n') none t := by
  apply openingsFrom_of_none
  rw [reported?, h]
  rfl

theorem openingsFrom_opened {w literal : Text}
    (h : openers.openingAt (c :: t) = some (w, literal)) :
    openers.openingsFrom offset true none (c :: t) = ⟨offset, w, literal⟩ ::
      openers.openingsFrom (offset + c.utf8Size) (c == '\n')
        (uncover (some (w.length + literal.length))) t :=
  openingsFrom_of_some (reported?_eq_some_iff.mpr ⟨rfl, rfl, h, .inl rfl⟩)

theorem openingsFrom_unopened_nil (h : openers.openingAt [] = none) :
    openers.openingsFrom offset true none [] = [] := by
  rw [openingsFrom_nil, reported?, h]
  rfl

end Step

section Run

variable {openers : Openers} {offset : Nat} {covered : Option Nat} {row : Text}

/-- Inside a line nothing opens, and its own opening is left behind before the next line. -/
theorem openingsFrom_rest (hrow : '\n' ∉ row) (hreach : covered.getD 0 ≤ row.length) (t : Text) :
    openers.openingsFrom offset false covered (row ++ '\n' :: t) =
      openers.openingsFrom (offset + row.byteLength + 1) true none t := by
  induction row generalizing offset covered with
  | nil =>
    rw [List.nil_append, openingsFrom_inside, uncover_of_reach_zero (Nat.le_zero.mp hreach)]
    rfl
  | cons c row ih =>
    rw [List.mem_cons, not_or] at hrow
    have hc : (c == '\n') = false := by simpa using Ne.symm hrow.1
    have hleft : (uncover covered).getD 0 ≤ row.length := by
      rw [uncover_reach]
      simp only [List.length_cons] at hreach
      omega
    rw [List.cons_append, openingsFrom_inside, hc, ih hrow.2 hleft, byteLength_cons,
      Nat.add_assoc offset]

theorem openingsFrom_rest_last (hrow : '\n' ∉ row) :
    openers.openingsFrom offset false covered row = [] := by
  induction row generalizing offset covered with
  | nil => exact openingsFrom_inside_nil
  | cons c row ih =>
    rw [List.mem_cons, not_or] at hrow
    have hc : (c == '\n') = false := by simpa using Ne.symm hrow.1
    rw [openingsFrom_inside, hc]
    exact ih hrow.2

/-- One line of a run: its own opening, if it has one, then those of the lines after it. -/
theorem openingsFrom_row (h : openers.AllVisible) (hrow : '\n' ∉ row) (t : Text) :
    openers.openingsFrom offset true none (row ++ '\n' :: t) =
      (openers.opening? offset row).toList ++
        openers.openingsFrom (offset + row.byteLength + 1) true none t := by
  have hfound := openingAt_append_feed h row t
  rw [opening?_eq_openingAt h]
  cases row with
  | nil =>
    have hnone : openers.openingAt [] = none := by
      rw [openingAt_eq h]
      exact congrArg (Option.map _) (alternative?_nil h)
    rw [hnone] at hfound ⊢
    exact openingsFrom_unopened hfound
  | cons c row =>
    rw [List.mem_cons, not_or] at hrow
    have hc : (c == '\n') = false := by simpa using Ne.symm hrow.1
    cases hopening : openers.openingAt (c :: row) with
    | none =>
      rw [hopening, List.cons_append] at hfound
      rw [List.cons_append, openingsFrom_unopened hfound, hc,
        openingsFrom_rest hrow.2 (Nat.zero_le _), byteLength_cons, Nat.add_assoc offset]
      rfl
    | some found =>
      obtain ⟨w, literal⟩ := found
      obtain ⟨hpos, hlen⟩ := openingAt_reach h hopening
      have hreach : (uncover (some (w.length + literal.length))).getD 0 ≤ row.length := by
        rw [uncover_reach, Option.getD_some]
        simp only [List.length_cons] at hlen
        omega
      rw [hopening, List.cons_append] at hfound
      rw [List.cons_append, openingsFrom_opened hfound, hc, openingsFrom_rest hrow.2 hreach,
        byteLength_cons, Nat.add_assoc offset]
      rfl

theorem openingsFrom_row_last (h : openers.AllVisible) (hrow : '\n' ∉ row) :
    openers.openingsFrom offset true none row = (openers.opening? offset row).toList := by
  rw [opening?_eq_openingAt h]
  cases row with
  | nil =>
    have hnone : openers.openingAt [] = none := by
      rw [openingAt_eq h]
      exact congrArg (Option.map _) (alternative?_nil h)
    rw [openingsFrom_unopened_nil hnone, hnone]
    rfl
  | cons c row =>
    rw [List.mem_cons, not_or] at hrow
    have hc : (c == '\n') = false := by simpa using Ne.symm hrow.1
    cases hopening : openers.openingAt (c :: row) with
    | none =>
      rw [openingsFrom_unopened hopening, hc, openingsFrom_rest_last hrow.2]
      rfl
    | some found =>
      rw [openingsFrom_opened hopening, hc, openingsFrom_rest_last hrow.2]
      rfl

/-- A run over a text looks at each of its lines alone. -/
theorem openingsFrom_eq (h : openers.AllVisible) (t : Text) :
    openers.openingsFrom offset true none t = openers.rowOpenings offset t.rows := by
  induction t using rows_induction generalizing offset with
  | last row hrow =>
    rw [openingsFrom_row_last h hrow, rows_of_not_mem hrow, rowOpenings, rowOpenings,
      List.append_nil]
  | more row t hrow ih =>
    rw [openingsFrom_row h hrow, rows_append_feed hrow, rowOpenings, ih]

end Run

section Alternatives

theorem insertByLength_perm (t : Text) (l : List Text) : (insertByLength t l).Perm (t :: l) := by
  induction l with
  | nil => exact .refl _
  | cons u rest ih =>
    unfold insertByLength
    split
    · exact .refl _
    · exact (ih.cons u).trans (.swap t u rest)

theorem longestFirst_perm (l : List Text) : (longestFirst l).Perm l := by
  induction l with
  | nil => exact .refl _
  | cons t rest ih => exact (insertByLength_perm t _).trans (ih.cons t)

end Alternatives

section Source
open Engine

theorem namedBytes_escape_append (t u : Text) :
    namedBytes (escape t ++ u) = t.byteLength + namedBytes u := by
  induction t with
  | nil => simp [escape]
  | cons c t ih =>
    have hescape : escape (c :: t) = (if isMeta c then ['\\', c] else [c]) ++ escape t :=
      List.flatMap_cons
    rw [hescape, List.append_assoc, byteLength_cons, Nat.add_assoc, ← ih]
    split
    · rfl
    · rename_i hplain
      have hc : c ≠ '\\' := by
        rintro rfl
        exact hplain (by decide)
      simp [namedBytes, hc]

theorem namedBytes_join_append (pieces : List Text) (u : Text) :
    namedBytes (join ['|'] (pieces.map escape) ++ u) =
      (join ['|'] pieces).byteLength + namedBytes u := by
  induction pieces with
  | nil => simp [join]
  | cons piece rest ih =>
    by_cases hr : rest = []
    · subst hr
      exact namedBytes_escape_append piece u
    · have hr' : rest.map escape ≠ [] := fun h => hr (List.map_eq_nil_iff.mp h)
      rw [List.map_cons, join_cons _ _ hr', join_cons _ _ hr, List.append_assoc, List.append_assoc,
        namedBytes_escape_append]
      simp [namedBytes, ih, Nat.add_assoc]

/-- The expression names its literals, the bars between them and a frame. -/
theorem namedBytes_source (openers : Openers) :
    namedBytes openers.source = 14 + (join ['|'] openers.alternatives).byteLength := by
  have hframe (u : Text) : namedBytes ("(?m)^([\\t ]*)(".toList ++ u) = 13 + namedBytes u := by
    have hchars : "(?m)^([\\t ]*)(".toList =
        ['(', '?', 'm', ')', '^', '(', '[', '\\', 't', ' ', ']', '*', ')', '('] := rfl
    rw [hchars]
    simp [namedBytes, Char.utf8Size, UInt32.le_iff_toNat_le, ← Nat.add_assoc]
  have hclose : namedBytes [')'] = 1 := rfl
  have hsource : openers.source = "(?m)^([\\t ]*)(".toList ++
      (join ['|'] (openers.alternatives.map escape) ++ [')']) := List.append_assoc _ _ _
  rw [hsource, hframe, namedBytes_join_append, hclose]
  omega

end Source

end Openers

namespace TokenSet
open Openers

variable {set : TokenSet}

theorem alternatives_perm (set : TokenSet) : set.openers.alternatives.Perm set.literals :=
  (longestFirst_perm _).trans (List.perm_append_singleton _ _).symm

theorem mem_alternatives {set : TokenSet} {literal : Text} :
    literal ∈ set.openers.alternatives ↔ literal ∈ set.literals :=
  set.alternatives_perm.mem_iff

theorem Accepted.allVisible (h : set.Accepted) : set.openers.AllVisible :=
  fun literal hl => h.visible literal (mem_alternatives.mp hl)

/-- The order of the alternatives does not matter, since one at most can be found. -/
theorem Accepted.alternative?_eq_some_iff (h : set.Accepted) {t literal : Text} :
    set.openers.alternative? t = some literal ↔ literal ∈ set.literals ∧ literal <+: t := by
  constructor
  · intro hf
    obtain ⟨hmem, hopens⟩ := alternative?_eq_some hf
    exact ⟨mem_alternatives.mp hmem, hopens⟩
  · intro ⟨hmem, hopens⟩
    cases hf : set.openers.alternative? t with
    | none => exact absurd hopens (alternative?_eq_none_iff.mp hf _ (mem_alternatives.mpr hmem))
    | some other =>
      obtain ⟨hother, hopens'⟩ := alternative?_eq_some hf
      rw [h.eq_of_prefix (mem_alternatives.mp hother) hmem hopens' hopens]

theorem Accepted.openings_eq (h : set.Accepted) (t : Text) :
    set.openers.openings t = set.openers.rowOpenings 0 t.rows :=
  openingsFrom_eq h.allVisible t

/-- A row that a literal opens, after the rows before it. -/
theorem Accepted.rowOpenings_cons (h : set.Accepted) {row literal : Text}
    (hmem : literal ∈ set.literals) (hopens : literal <+: body row) (pre rest : List Text) :
    set.openers.rowOpenings (ended pre).byteLength (row :: rest) =
      ⟨(ended pre).byteLength, indent row, literal⟩ ::
        set.openers.rowOpenings (ended (pre ++ [row])).byteLength rest := by
  rw [rowOpenings, opening?, h.alternative?_eq_some_iff.mpr ⟨hmem, hopens⟩,
    byteLength_ended_concat]
  rfl

theorem rowOpenings_cons_of_plain {row : Text}
    (hplain : ∀ literal ∈ set.literals, ¬ literal <+: body row) (pre rest : List Text) :
    set.openers.rowOpenings (ended pre).byteLength (row :: rest) =
      set.openers.rowOpenings (ended (pre ++ [row])).byteLength rest := by
  have hnone : set.openers.alternative? (body row) = none :=
    alternative?_eq_none_iff.mpr fun literal hl => hplain literal (mem_alternatives.mp hl)
  rw [rowOpenings, opening?, hnone, byteLength_ended_concat]
  rfl

/-- The openings of the last rows of a text, one for each row that a literal opens. -/
theorem Accepted.rowOpenings_linewise (h : set.Accepted) {t : Text} (pre : List Text)
    {post : List Text} (ht : t.rows = pre ++ post) :
    List.Forall₂
      (fun (opening : Opening) (line : Text × Nat) =>
        opening.offset = lineStart t line.2 ∧ opening.indent = indent line.1 ∧
          ∀ literal, literal ∈ set.literals ∧ literal <+: body line.1 ↔ literal = opening.token)
      (set.openers.rowOpenings (ended pre).byteLength post)
      ((post.zipIdx pre.length).filter fun line =>
        ∃ literal ∈ set.literals, literal <+: body line.1) := by
  induction post generalizing pre with
  | nil => exact .nil
  | cons row rest ih =>
    have hrest := ih (pre ++ [row]) (by simp [ht])
    rw [List.length_append, List.length_singleton] at hrest
    rw [List.zipIdx_cons, List.filter_cons]
    split
    · rename_i hopener
      obtain ⟨literal, hmem, hopens⟩ := of_decide_eq_true hopener
      rw [h.rowOpenings_cons hmem hopens]
      refine .cons ⟨(lineStart_eq ht).symm, rfl, ?_⟩ hrest
      intro other
      constructor
      · exact fun ho => h.eq_of_prefix ho.1 hmem ho.2 hopens
      · rintro rfl
        exact ⟨hmem, hopens⟩
    · rename_i hplain
      rw [decide_eq_true_eq] at hplain
      rw [rowOpenings_cons_of_plain fun literal hm hp => hplain ⟨literal, hm, hp⟩]
      exact hrest

/-- The openings of a text are those of its lines: one for each line whose text after the
indentation starts with a literal, where the line starts, with the whole indentation and the only
literal there is. -/
theorem openings_linewise {engine : Engine} {states : List State} {comment : Text}
    (accepted : ofStates engine states comment = .ok set) (t : Text) :
    List.Forall₂
      (fun (opening : Opening) (line : Text × Nat) =>
        opening.offset = lineStart t line.2 ∧ opening.indent = indent line.1 ∧
          ∀ literal, literal ∈ set.literals ∧ literal <+: body line.1 ↔ literal = opening.token)
      (set.openers.openings t)
      (t.rows.zipIdx.filter fun line => ∃ literal ∈ set.literals, literal <+: body line.1) := by
  have h := accepted_of_ofStates accepted
  rw [h.openings_eq]
  exact h.rowOpenings_linewise [] (List.nil_append t.rows).symm

/-- Four lines, of which the second one's indentation hides nothing and the third one is plain. -/
theorem openings_linewise_standard :
    ofStates .usual defaultStates defaultComment = .ok standard ∧
    List.Forall₂
      (fun (opening : Opening) (line : Text × Nat) =>
        opening.offset = lineStart "- é\r\n \t--\n +\n-> c".toList line.2 ∧
          opening.indent = indent line.1 ∧
          ∀ literal, literal ∈ standard.literals ∧ literal <+: body line.1 ↔
            literal = opening.token)
      (standard.openers.openings "- é\r\n \t--\n +\n-> c".toList)
      [("- é\r".toList, 0), (" \t--".toList, 1), ("-> c".toList, 3)] :=
  ⟨ofStates_default, openings_linewise ofStates_default "- é\r\n \t--\n +\n-> c".toList⟩

end TokenSet

end Checklist
