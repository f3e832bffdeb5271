import Checklist.Proofs.Openings

namespace Checklist
open Text TokenSet

namespace Region

theorem contains_iff {region : Region} {line : Nat} :
    region.contains line = true ↔ region.startLine ≤ line ∧ line ≤ region.endLine := by
  rw [contains, Bool.and_eq_true, decide_eq_true_eq, decide_eq_true_eq]

/-- How many plain lines come first. -/
def plainRun (kinds : List LineKind) : Nat :=
  (kinds.takeWhile (· = .plain)).length

/-- The regions of lines by their kinds alone, where the first line is counted as `line`: a state
opens one, and the plain lines after it belong to it. -/
def ofKinds (line : Nat) : List LineKind → List Region
  | [] => []
  | .state state :: rest => ⟨state, line, line + plainRun rest⟩ :: ofKinds (line + 1) rest
  | .comment :: rest => ofKinds (line + 1) rest
  | .plain :: rest => ofKinds (line + 1) rest

section Kinds

variable {kinds : List LineKind} {line : Nat}

theorem plainRun_cons_plain (rest : List LineKind) :
    plainRun (.plain :: rest) = plainRun rest + 1 := by
  simp [plainRun]

theorem plainRun_cons_of_ne {kind : LineKind} (h : kind ≠ .plain) (rest : List LineKind) :
    plainRun (kind :: rest) = 0 := by
  simp [plainRun, h]

/-- A run is as long as its plain lines, and what ends it is no plain line. -/
theorem plainRun_eq_iff {n : Nat} : plainRun kinds = n ↔
    (∀ k < n, kinds[k]? = some .plain) ∧ kinds[n]? ≠ some .plain := by
  induction kinds generalizing n with
  | nil =>
    simp only [plainRun, List.takeWhile_nil, List.length_nil, List.getElem?_nil, reduceCtorEq,
      ne_eq, not_false_eq_true, and_true]
    constructor
    · rintro rfl k hk
      omega
    · intro h
      cases n with
      | zero => rfl
      | succ n => exact (h 0 (Nat.zero_lt_succ n)).elim
  | cons kind rest ih =>
    by_cases hk : kind = .plain
    · subst hk
      rw [plainRun_cons_plain]
      cases n with
      | zero => simp
      | succ n =>
        rw [Nat.add_right_cancel_iff, ih]
        refine and_congr ?_ (by simp)
        constructor
        · intro h k hk
          cases k with
          | zero => rfl
          | succ k => simpa using h k (Nat.lt_of_succ_lt_succ hk)
        · intro h k hk
          simpa using h (k + 1) (Nat.succ_lt_succ hk)
    · rw [plainRun_cons_of_ne hk]
      constructor
      · rintro rfl
        exact ⟨fun k hk => absurd hk (Nat.not_lt_zero k), by simpa using hk⟩
      · intro h
        cases n with
        | zero => rfl
        | succ n => exact absurd (by simpa using h.1 0 (Nat.zero_lt_succ n)) hk

theorem plainRun_spec (kinds : List LineKind) :
    (∀ k < plainRun kinds, kinds[k]? = some .plain) ∧ kinds[plainRun kinds]? ≠ some .plain :=
  plainRun_eq_iff.mp rfl

theorem plainRun_le (kinds : List LineKind) : plainRun kinds ≤ kinds.length :=
  (List.takeWhile_sublist _).length_le

/-- A state opens a region on its line, and the plain lines after it belong to the region. -/
theorem mem_ofKinds_iff {region : Region} : region ∈ ofKinds line kinds ↔
    ∃ i, kinds[i]? = some (.state region.state) ∧ region.startLine = line + i ∧
      region.endLine = line + i + plainRun (kinds.drop (i + 1)) := by
  induction kinds generalizing line with
  | nil => simp [ofKinds]
  | cons kind rest ih =>
    rw [← Nat.or_exists_add_one]
    simp only [List.getElem?_cons_succ, List.getElem?_cons_zero, List.drop_succ_cons,
      Option.some.injEq, Nat.add_zero, List.drop_zero]
    have hlater : region ∈ ofKinds (line + 1) rest ↔
        ∃ i, rest[i]? = some (.state region.state) ∧ region.startLine = line + (i + 1) ∧
          region.endLine = line + (i + 1) + plainRun (rest.drop (i + 1)) := by
      rw [ih]
      simp only [Nat.add_comm 1, Nat.add_assoc]
    rw [← hlater]
    cases kind with
    | state state =>
      rw [ofKinds, List.mem_cons]
      refine or_congr ?_ Iff.rfl
      cases region
      simp [eq_comm]
    | comment => simp [ofKinds]
    | plain => simp [ofKinds]

theorem ofKinds_pairwise (line : Nat) (kinds : List LineKind) :
    (ofKinds line kinds).Pairwise (fun region next => region.endLine < next.startLine) := by
  induction kinds generalizing line with
  | nil => exact .nil
  | cons kind rest ih =>
    cases kind with
    | state state =>
      refine .cons ?_ (ih (line + 1))
      intro next hn
      obtain ⟨i, hi, hstart, -⟩ := mem_ofKinds_iff.mp hn
      have hrun : plainRun rest ≤ i := by
        rcases Nat.lt_or_ge i (plainRun rest) with hlt | hle
        · rw [(plainRun_spec rest).1 i hlt] at hi
          cases hi
        · exact hle
      dsimp only
      omega
    | comment => exact ih (line + 1)
    | plain => exact ih (line + 1)

/-- A region ends before the next opener, or on the last line where there is none. -/
theorem mem_ofKinds_iff_kinds {region : Region} : region ∈ ofKinds 0 kinds ↔
    kinds[region.startLine]? = some (.state region.state) ∧
    region.startLine ≤ region.endLine ∧ region.endLine < kinds.length ∧
    (∀ i, region.startLine < i → i ≤ region.endLine → kinds[i]? = some .plain) ∧
    kinds[region.endLine + 1]? ≠ some .plain := by
  rw [mem_ofKinds_iff]
  simp only [Nat.zero_add]
  constructor
  · rintro ⟨i, hi, hstart, hend⟩
    subst hstart
    obtain ⟨hplain, hstop⟩ := plainRun_spec (kinds.drop (region.startLine + 1))
    have hlen := plainRun_le (kinds.drop (region.startLine + 1))
    have hlt := (List.getElem?_eq_some_iff.mp hi).1
    rw [List.length_drop] at hlen
    refine ⟨hi, by omega, by omega, ?_, ?_⟩
    · intro i hlow hhigh
      have := hplain (i - (region.startLine + 1)) (by omega)
      rwa [List.getElem?_drop, Nat.add_sub_cancel' hlow] at this
    · rw [List.getElem?_drop] at hstop
      rwa [hend, Nat.add_right_comm]
  · rintro ⟨hi, hle, -, hplain, hstop⟩
    refine ⟨region.startLine, hi, rfl, ?_⟩
    have hrun :
        plainRun (kinds.drop (region.startLine + 1)) = region.endLine - region.startLine := by
      rw [plainRun_eq_iff]
      constructor
      · intro k hk
        rw [List.getElem?_drop]
        exact hplain _ (by omega) (by omega)
      · rw [List.getElem?_drop]
        rwa [show region.startLine + 1 + (region.endLine - region.startLine) = region.endLine + 1 by
          omega]
    omega

/-- A line belongs to the region of the nearest opener at or above it. -/
theorem exists_contains_iff {line state : Nat} :
    (∃ region ∈ ofKinds 0 kinds, region.state = state ∧ region.contains line = true) ↔
    ∃ opener ≤ line, kinds[opener]? = some (.state state) ∧
      ∀ i, opener < i → i ≤ line → kinds[i]? = some .plain := by
  constructor
  · rintro ⟨region, hm, rfl, hc⟩
    obtain ⟨hi, -, -, hplain, -⟩ := mem_ofKinds_iff_kinds.mp hm
    rw [contains_iff] at hc
    exact ⟨region.startLine, hc.1, hi, fun i hlow hhigh => hplain i hlow (by omega)⟩
  · rintro ⟨opener, hle, hi, hplain⟩
    refine ⟨⟨state, opener, opener + plainRun (kinds.drop (opener + 1))⟩, ?_, rfl, ?_⟩
    · exact mem_ofKinds_iff.mpr ⟨opener, hi, (Nat.zero_add _).symm, by rw [Nat.zero_add]⟩
    · have hrun : line - opener ≤ plainRun (kinds.drop (opener + 1)) := by
        rcases Nat.lt_or_ge (plainRun (kinds.drop (opener + 1))) (line - opener) with hlt | hge
        · have hstop := (plainRun_spec (kinds.drop (opener + 1))).2
          rw [List.getElem?_drop] at hstop
          exact absurd (hplain _ (by omega) (by omega)) hstop
        · exact hge
      rw [contains_iff]
      dsimp only
      omega

end Kinds

end Region

namespace Stretch

/-- Where a stretch ends that these openings follow. -/
def stopBefore (length : Nat) : List Opening → Nat
  | [] => length
  | next :: _ => next.offset - 1

theorem between_cons (length : Nat) (opening : Opening) (rest : List Opening) :
    between length (opening :: rest) =
      (opening, ⟨opening.offset, stopBefore length rest⟩) :: between length rest := by
  cases rest <;> rfl

end Stretch

namespace TokenSet

/-- The kinds of the lines of a text. -/
def kinds (set : TokenSet) (t : Text) : List LineKind :=
  t.rows.map set.kind

end TokenSet

namespace Region

variable {set : TokenSet} {t : Text}

/-- The regions of openings, in a text that has no others after them. -/
def ofOpenings (set : TokenSet) (t : Text) (openings : List Opening) : List Region :=
  ((Stretch.between t.byteLength openings).filterMap fun (opening, span) =>
    (set.stateEnding opening.literal).map fun state => (⟨span, state⟩ : Stretch)).map fun stretch =>
      ⟨stretch.state, (LineIndex.ofText t).lineOf stretch.start,
        (LineIndex.ofText t).lineOf stretch.stop⟩

theorem ofText_eq_ofOpenings (set : TokenSet) (t : Text) :
    ofText set t = ofOpenings set t (set.openers.openings t) := rfl

theorem ofOpenings_cons (opening : Opening) (rest : List Opening) :
    ofOpenings set t (opening :: rest) =
      ((set.stateEnding opening.literal).map fun state =>
        (⟨state, (LineIndex.ofText t).lineOf opening.offset,
          (LineIndex.ofText t).lineOf (Stretch.stopBefore t.byteLength rest)⟩ : Region)).toList ++
        ofOpenings set t rest := by
  cases hs : set.stateEnding opening.literal with
  | none =>
    simp only [ofOpenings, Stretch.between_cons, List.filterMap_cons, hs, Option.map_none]
    rfl
  | some state =>
    simp only [ofOpenings, Stretch.between_cons, List.filterMap_cons, hs, Option.map_some]
    rfl

/-- A stretch stops on the line before the next opener, or on the last line. -/
theorem lineOf_stopBefore (h : set.Accepted) (pre : List Text) (row : Text) {post : List Text}
    (ht : t.rows = pre ++ row :: post) :
    (LineIndex.ofText t).lineOf (Stretch.stopBefore t.byteLength
      (set.openers.rowOpenings (ended (pre ++ [row])).byteLength post)) =
      pre.length + plainRun (post.map set.kind) := by
  induction post generalizing pre row with
  | nil =>
    have hle : (ended pre).byteLength ≤ t.byteLength := by
      rw [eq_of_rows_eq ht]
      simp
    exact LineIndex.lineOf_ofText ht hle (.inl rfl)
  | cons next post ih =>
    rw [List.map_cons]
    rcases h.kind_cases next with ⟨hplain, hnone⟩ | ⟨place, literal, hplace, hopens, hkind⟩
    · have hnext := ih (pre ++ [row]) next (by simp [ht])
      rw [rowOpenings_cons_of_plain hnone, hplain, plainRun_cons_plain, hnext, List.length_append,
        List.length_singleton, Nat.add_assoc, Nat.add_comm 1]
    · have hne : set.kind next ≠ .plain := by
        rw [hkind, kindAt]
        split <;> simp
      rw [h.rowOpenings_cons (List.mem_of_getElem? hplace) hopens, plainRun_cons_of_ne hne,
        Stretch.stopBefore, byteLength_ended_concat, Nat.add_sub_cancel]
      exact LineIndex.lineOf_ofText ht (Nat.le_add_right _ _) (.inr (Nat.le_refl _))

theorem ofOpenings_rows (h : set.Accepted) (pre : List Text) {post : List Text}
    (ht : t.rows = pre ++ post) :
    ofOpenings set t (set.openers.rowOpenings (ended pre).byteLength post) =
      ofKinds pre.length (post.map set.kind) := by
  induction post generalizing pre with
  | nil => rfl
  | cons row post ih =>
    have hrest := ih (pre ++ [row]) (by simp [ht])
    rw [List.length_append, List.length_singleton] at hrest
    rw [List.map_cons]
    rcases h.kind_cases row with ⟨hplain, hnone⟩ | ⟨place, literal, hplace, hopens, hkind⟩
    · rw [rowOpenings_cons_of_plain hnone, hrest, hplain, ofKinds]
    · have hline := LineIndex.lineOf_ended ht
      rw [h.rowOpenings_cons (List.mem_of_getElem? hplace) hopens, ofOpenings_cons, hrest, hline,
        lineOf_stopBefore h pre row ht, Opening.literal,
        h.stateEnding_of_suffix hplace (List.suffix_append _ _), hkind, kindAt]
      split <;> rfl

/-- Scanning by bytes finds what the kinds of the lines tell. -/
theorem ofText_eq_ofKinds (h : set.Accepted) (t : Text) :
    ofText set t = ofKinds 0 (set.kinds t) := by
  rw [ofText_eq_ofOpenings, h.openings_eq]
  exact ofOpenings_rows h [] (List.nil_append t.rows).symm

/-- The regions of a text are one for each line that a state opens, in order and apart: from that
line to the line before the next opener, or to the last line. A line is in a region of a state if
the nearest opener at or above it is of that state. -/
theorem ofText_linewise {engine : Engine} {states : List State} {comment : Text}
    (accepted : ofStates engine states comment = .ok set) (t : Text) :
    ofText set t = ofKinds 0 (set.kinds t) ∧
    (ofText set t).Pairwise (fun region next => region.endLine < next.startLine) ∧
    (∀ region, region ∈ ofText set t ↔
      (set.kinds t)[region.startLine]? = some (.state region.state) ∧
      region.startLine ≤ region.endLine ∧ region.endLine < (LineIndex.ofText t).lineCount ∧
      (∀ line, region.startLine < line → line ≤ region.endLine →
        (set.kinds t)[line]? = some .plain) ∧
      (set.kinds t)[region.endLine + 1]? ≠ some .plain) ∧
    ∀ line state, (∃ region ∈ ofText set t, region.state = state ∧ region.contains line = true) ↔
      ∃ opener ≤ line, (set.kinds t)[opener]? = some (.state state) ∧
        ∀ i, opener < i → i ≤ line → (set.kinds t)[i]? = some .plain := by
  have h := accepted_of_ofStates accepted
  have hcount : (LineIndex.ofText t).lineCount = (set.kinds t).length := by
    rw [LineIndex.lineCount_ofText, kinds, List.length_map]
  rw [ofText_eq_ofKinds h, hcount]
  exact ⟨rfl, ofKinds_pairwise 0 _, fun _ => mem_ofKinds_iff_kinds, fun _ _ => exists_contains_iff⟩

/-- A plain line before the first opener, one inside a region, a comment that is no region, and an
empty last line. -/
theorem ofText_linewise_standard :
    ofStates .usual defaultStates defaultComment = .ok standard ∧
    ofText standard "x\n- é\r\n more\n --c\n+\n\t-> d\n".toList = [⟨0, 1, 2⟩, ⟨2, 5, 6⟩] :=
  ⟨ofStates_default, (ofText_linewise ofStates_default _).1.trans (by decide)⟩

end Region

end Checklist
