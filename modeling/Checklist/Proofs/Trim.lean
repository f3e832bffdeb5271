import Checklist.Text.Trim

namespace Checklist.Text

def White (t : Text) : Prop :=
  ∀ c ∈ t, isWhite c = true

/-- No white space at either end. -/
structure Trimmed (t : Text) : Prop where
  first : ∀ c ∈ t.head?, isWhite c = false
  last : ∀ c ∈ t.getLast?, isWhite c = false

section Trim

variable {before after t : Text}

theorem isWhite_of_isDigit {c : Char} (h : c.isDigit = true) : isWhite c = false := by
  simp only [Char.isDigit, Bool.and_eq_true, decide_eq_true_eq] at h
  have hlow : 48 ≤ c.toNat := h.1
  have hhigh : c.toNat ≤ 57 := h.2
  simp only [isWhite, whiteSpace, CodeRanges.covers, List.any_cons, List.any_nil]
  simp only [Bool.or_eq_false_iff, Bool.and_eq_false_iff, decide_eq_false_iff_not, and_true]
  omega

theorem trimStart_cons {c : Char} {t : Text} (h : isWhite c = false) :
    trimStart (c :: t) = c :: t := by
  simp [trimStart, h]

theorem trimStart_of_head (h : ∀ c ∈ t.head?, isWhite c = false) : trimStart t = t := by
  cases t with
  | nil => rfl
  | cons c t => exact trimStart_cons (h c rfl)

theorem trimStart_append (h : White before) (t : Text) : trimStart (before ++ t) = trimStart t :=
  List.dropWhile_append_of_pos h

theorem exists_trimStart (t : Text) : ∃ before, White before ∧ t = before ++ trimStart t := by
  refine ⟨t.takeWhile isWhite, ?_, List.takeWhile_append_dropWhile.symm⟩
  exact List.all_eq_true.mp List.all_takeWhile

theorem White.reverse (h : White t) : White t.reverse :=
  fun c hc => h c (List.mem_reverse.mp hc)

/-- Trimming takes white space off both ends and nothing else. -/
theorem exists_trim (t : Text) :
    ∃ before after, White before ∧ White after ∧ t = before ++ trim t ++ after := by
  obtain ⟨before, hbefore, hstart⟩ := exists_trimStart t
  obtain ⟨after, hafter, hend⟩ := exists_trimStart (trimStart t).reverse
  refine ⟨before, after.reverse, hbefore, hafter.reverse, ?_⟩
  have hreverse := congrArg List.reverse hend
  rw [List.reverse_reverse, List.reverse_append] at hreverse
  rw [trim, List.append_assoc, ← hreverse, ← hstart]

theorem trim_append (hbefore : White before) (hafter : White after) (ht : Trimmed t) :
    trim (before ++ t ++ after) = t := by
  have hlast : trimStart (after.reverse ++ t.reverse) = t.reverse := by
    rw [trimStart_append hafter.reverse, trimStart_of_head]
    rw [List.head?_reverse]
    exact ht.last
  rw [trim, List.append_assoc, trimStart_append hbefore]
  cases t with
  | nil =>
    have hnil : trimStart after = [] := by
      rw [← List.append_nil after, trimStart_append hafter]
      rfl
    rw [List.nil_append, hnil]
    rfl
  | cons c t =>
    rw [List.cons_append, trimStart_cons (ht.first c rfl), ← List.cons_append,
      List.reverse_append, hlast, List.reverse_reverse]

theorem Trimmed.trim_eq (h : Trimmed t) : trim t = t := by
  have hnil : White [] := fun _ hc => nomatch hc
  have happend := trim_append hnil hnil h
  rwa [List.nil_append, List.append_nil] at happend

end Trim

end Checklist.Text
