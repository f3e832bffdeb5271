import Checklist.Text.Width
import Checklist.Proofs.Digits

namespace Checklist.Text

namespace Width

/-- The columns that the next character to the left may take back, since some letters and flags
take fewer columns together than one by one. -/
def owed : Follower → Int
  | .coengLetter | .tifinaghBelowJoiner | .joinedFlagHalf => 1
  | .joinedFlags even => if even then 0 else 1
  | _ => 0

/-- The columns of a text in front of what stands to its right, and what the text is to the
character on its left. -/
def columns (right : Right) : Text → Int × Right
  | [] => (0, right)
  | c :: t =>
    let behind := columns right t
    (behind.1 + (add c behind.2).1, (add c behind.2).2)

section Owed

theorem owed_bounds (f : Follower) : 0 ≤ owed f ∧ owed f ≤ 1 := by
  unfold owed
  split
  · decide
  · decide
  · decide
  · split <;> decide
  · decide

theorem owed_join (f : Follower) : owed f.join ≤ owed f := by
  cases f <;> exact Int.le_refl _

theorem owed_withLook (f : Follower) (look : Look) : owed (f.withLook look).follower ≤ owed f := by
  unfold Follower.withLook
  split
  · exact Int.le_refl _
  · exact (owed_bounds f).1

theorem owed_dropLook (right : Right) : owed right.dropLook ≤ owed right.follower := by
  unfold Right.dropLook
  split
  · exact (owed_bounds right.follower).1
  · exact Int.le_refl _

/-- Letters with a subscript form take a column. -/
theorem ofChar_of_coengLetter {c : Char} (h : coengLetters.covers c = true) : ofChar c = 1 := by
  have key : ∀ n < 0x30, coengLetters.covers (Char.ofNat (0x1780 + n)) = true →
      ofChar (Char.ofNat (0x1780 + n)) = 1 := by decide +kernel
  have hrange : 0x1780 ≤ c.toNat ∧ c.toNat < 0x1780 + 0x30 := by
    simp only [CodeRanges.covers, coengLetters, List.any_cons, List.any_nil, Bool.or_false,
      Bool.or_eq_true, Bool.and_eq_true, decide_eq_true_eq] at h
    omega
  have hc := key (c.toNat - 0x1780) (by omega)
  rw [Nat.add_sub_cancel' hrange.1, Char.ofNat_toNat] at hc
  exact hc h

theorem owed_asFollower (c : Char) : owed (asFollower c).follower ≤ ofChar c := by
  by_cases hc : coengLetters.covers c = true
  · rw [ofChar_of_coengLetter hc]
    exact (owed_bounds _).2
  · have hzero : owed (asFollower c).follower = 0 := by
      simp only [asFollower, hc, Bool.false_eq_true, ↓reduceIte, apply_ite Right.follower,
        apply_ite owed, Follower.alone]
      simp only [owed, ite_self]
    rw [hzero]
    exact Int.natCast_nonneg _

/-- What a character takes back was owed. -/
theorem owed_merged {c : Char} {f : Follower} {width : Int} {right : Right}
    (h : merged c f = some (width, right)) : owed right.follower ≤ owed f + width := by
  have hnonneg := (owed_bounds f).1
  unfold merged at h
  -- one goal for each way in which two characters are one
  split at h <;> repeat' split at h
  all_goals first
    | cases h
      simp_all [owed, Follower.alone]
    | cases h

theorem owed_beside (c : Char) (f : Follower) :
    owed (beside c f).2.follower ≤ owed f + (beside c f).1 := by
  have hnonneg := (owed_bounds f).1
  unfold beside
  split
  · exact Int.add_nonneg hnonneg (Int.le_refl 0)
  split
  · exact Int.add_nonneg hnonneg (Int.le_refl 0)
  split
  · exact Int.add_nonneg hnonneg (by decide)
  split
  · rw [Int.add_zero]
    exact owed_withLook f .emoji
  split
  · rw [Int.add_zero]
    exact owed_withLook f .text
  split
  · rw [Int.add_zero]
    show owed (if c == '\u200d' then f.join else f) ≤ owed f
    split
    · exact owed_join f
    · exact Int.le_refl _
  cases hm : merged c f with
  | some unit => exact owed_merged hm
  | none =>
    have := owed_asFollower c
    show owed (asFollower c).follower ≤ owed f + ofChar c
    omega

/-- One character more to the left keeps the width at least as large as what is owed. -/
theorem owed_add (c : Char) (right : Right) :
    owed (add c right).2.follower ≤ owed right.follower + (add c right).1 := by
  have hnonneg := (owed_bounds right.follower).1
  unfold add
  split
  · refine Int.add_nonneg hnonneg ?_
    dsimp only
    split <;> decide
  split
  · exact Int.add_nonneg hnonneg (by decide)
  · have hbeside := owed_beside c right.dropLook
    have hdrop := owed_dropLook right
    omega

end Owed

section Columns

theorem displayWidth_eq (t : Text) : t.displayWidth = (columns Follower.plain.alone t).1.toNat := by
  rw [displayWidth]
  refine congrArg (fun read : Int × Right => read.1.toNat) ?_
  induction t with
  | nil => rfl
  | cons c t ih => rw [List.foldr_cons, ih, columns]

theorem columns_append (right : Right) (t u : Text) :
    columns right (t ++ u) =
      ((columns (columns right u).2 t).1 + (columns right u).1, (columns (columns right u).2 t).2) := by
  induction t with
  | nil => simp [columns]
  | cons c t ih =>
    simp only [List.cons_append, columns, ih, Prod.mk.injEq, and_true]
    omega

theorem owed_columns (right : Right) (t : Text) :
    owed (columns right t).2.follower ≤ owed right.follower + (columns right t).1 := by
  induction t with
  | nil => simp [columns]
  | cons c t ih =>
    have hstep := owed_add c (columns right t).2
    simp only [columns]
    omega

/-- What is taken back is never more than what was counted. -/
theorem columns_nonneg (t : Text) : 0 ≤ (columns Follower.plain.alone t).1 := by
  have h := owed_columns Follower.plain.alone t
  have hnonneg := (owed_bounds (columns Follower.plain.alone t).2.follower).1
  have hplain : owed Follower.plain.alone.follower = 0 := rfl
  omega

theorem displayWidth_cast (t : Text) :
    (t.displayWidth : Int) = (columns Follower.plain.alone t).1 := by
  rw [displayWidth_eq, Int.toNat_of_nonneg (columns_nonneg t)]

end Columns

section Separate

/-- A character of one column that forms no unit with what stands beside it. -/
def Separate (c : Char) : Prop :=
  ∀ right, add c right = (1, Follower.plain.alone)

theorem separate_space : Separate ' ' := by
  intro right
  have hemoji : emojiBases.covers ' ' = false := by decide +kernel
  have htext : textBases.covers ' ' = false := by decide +kernel
  simp only [add, hemoji, htext, Bool.and_false, Bool.false_eq_true, ↓reduceIte]
  rfl

theorem merged_block (f : Follower) : merged '▌' f = none := by
  cases f with
  | lamed joined | ya joined | tifinagh joined | orkhonI joined => cases joined <;> decide +kernel
  | joinedFlags | joinedTags => rfl
  | _ => decide +kernel

theorem separate_block : Separate '▌' := by
  intro right
  have hemoji : emojiBases.covers '▌' = false := by decide +kernel
  have htext : textBases.covers '▌' = false := by decide +kernel
  have hligature : ligatureTransparent.covers '▌' = false := by decide +kernel
  have halone : (((ofChar '▌' : Nat) : Int), asFollower '▌') = (1, Follower.plain.alone) := by
    decide +kernel
  simp only [add, hemoji, htext, Bool.and_false, Bool.false_eq_true, ↓reduceIte, beside,
    hligature, merged_block, Option.getD_none, halone]
  rfl

/-- A digit forms a unit with a mark after it, but with nothing else. -/
theorem columns_digits {t : Text} (h : Digits t) :
    columns Follower.plain.alone t = ((t.length : Int), Follower.plain.alone) := by
  induction t with
  | nil => rfl
  | cons c t ih =>
    have hrest := ih fun d hd => h d (List.mem_cons_of_mem _ hd)
    have hc := h c List.mem_cons_self
    simp only [Char.isDigit, Bool.and_eq_true, decide_eq_true_eq] at hc
    have hcode : c.toNat ≤ 0xa0 :=
      Nat.le_trans (UInt32.le_iff_toNat_le.mp hc.2) (by decide)
    have hfeed : (c == '\n') = false := by
      rw [beq_eq_false_iff_ne]
      rintro rfl
      exact absurd hc.1 (by decide)
    have hadd : add c Follower.plain.alone = (1, Follower.plain.alone) := by
      show beside c .plain = _
      simp [beside, hfeed, hcode]
    simp only [columns, hrest, hadd, List.length_cons, Int.natCast_succ]

end Separate

end Width

open Width

/-- The widths of two texts add up with a separate character between them. -/
theorem displayWidth_append_cons {c : Char} (hc : Separate c) (t u : Text) :
    displayWidth (t ++ c :: u) = displayWidth t + 1 + displayWidth u := by
  have h := displayWidth_cast (t ++ c :: u)
  rw [columns_append] at h
  simp only [columns, hc (columns _ u).2, ← displayWidth_cast] at h
  omega

theorem displayWidth_spaces_append (n : Nat) (t : Text) :
    displayWidth (List.replicate n ' ' ++ t) = n + displayWidth t := by
  induction n with
  | zero => simp
  | succ n ih =>
    have h := displayWidth_append_cons separate_space [] (List.replicate n ' ' ++ t)
    have hnil : displayWidth [] = 0 := rfl
    rw [List.nil_append, ih, hnil] at h
    rw [List.replicate_succ, List.cons_append, h]
    omega

/-- Spaces after a text take a column each, whatever the text ends with. -/
theorem displayWidth_append_spaces (t : Text) (n : Nat) :
    displayWidth (t ++ List.replicate n ' ') = displayWidth t + n := by
  cases n with
  | zero => simp
  | succ n =>
    have hspaces := displayWidth_spaces_append n []
    have hnil : displayWidth [] = 0 := rfl
    rw [List.append_nil, hnil] at hspaces
    rw [List.replicate_succ, displayWidth_append_cons separate_space, hspaces]
    omega

theorem displayWidth_digits {t : Text} (h : Digits t) : displayWidth t = t.length := by
  rw [displayWidth_eq, columns_digits h, Int.toNat_natCast]

end Checklist.Text
