import Checklist.Text.Digits
import Mathlib.Algebra.Group.Nat.Defs

namespace Checklist.Text

section Runs

variable {p : Char → Bool} {t u : Text}

theorem takeWhile_append_of_head (ht : ∀ c ∈ t, p c = true) (hu : ∀ c ∈ u.head?, p c = false) :
    (t ++ u).takeWhile p = t := by
  rw [List.takeWhile_append_of_pos ht]
  cases u with
  | nil => simp
  | cons c u => simp [hu c rfl]

theorem dropWhile_append_of_head (ht : ∀ c ∈ t, p c = true) (hu : ∀ c ∈ u.head?, p c = false) :
    (t ++ u).dropWhile p = u := by
  rw [List.dropWhile_append_of_pos ht]
  cases u with
  | nil => simp
  | cons c u => simp [hu c rfl]

end Runs

def Digits (t : Text) : Prop :=
  ∀ c ∈ t, c.isDigit = true

/-- A whole number without idle zeros before it. -/
structure Plain (t : Text) : Prop where
  digits : Digits t
  ne_nil : t ≠ []
  bare : t.head? = some '0' → t = ['0']

theorem Digits.append {t u : Text} (ht : Digits t) (hu : Digits u) : Digits (t ++ u) :=
  fun c hc => (List.mem_append.mp hc).elim (ht c) (hu c)

theorem digits_replicate_zero (n : Nat) : Digits (List.replicate n '0') := by
  intro c hc
  rw [List.eq_of_mem_replicate hc]
  rfl

theorem decimalValue_eq (t : Text) : decimalValue t = Nat.ofDigitChars 10 t 0 := rfl

theorem decimalValue_append (t u : Text) :
    decimalValue (t ++ u) = 10 ^ u.length * decimalValue t + decimalValue u := by
  simp only [decimalValue_eq]
  rw [Nat.ofDigitChars_append, Nat.ofDigitChars_eq_ofDigitChars_zero]

@[simp] theorem decimalValue_replicate_zero (n : Nat) :
    decimalValue (List.replicate n '0') = 0 := by
  simp [decimalValue_eq]

@[simp] theorem decimalValue_decimal (n : Nat) : decimalValue (decimal n) = n := by
  simp [decimalValue_eq, decimal]

theorem digits_decimal (n : Nat) : Digits (decimal n) :=
  fun _ hc => Nat.isDigit_of_mem_toDigits (by decide) (by decide) hc

theorem decimal_ne_nil (n : Nat) : decimal n ≠ [] :=
  Nat.toDigits_ne_nil

theorem decimal_eq_zero_iff {n : Nat} : decimal n = ['0'] ↔ n = 0 := by
  constructor
  · intro h
    have hvalue := decimalValue_decimal n
    rw [h] at hvalue
    exact hvalue.symm
  · rintro rfl
    rfl

/-- The first digit of a number is that of its tenth, down to a single digit. -/
theorem plain_decimal (n : Nat) : Plain (decimal n) := by
  refine ⟨digits_decimal n, decimal_ne_nil n, ?_⟩
  induction n using Nat.strongRecOn with
  | ind n ih =>
    intro h
    rcases Nat.lt_or_ge n 10 with hlt | hge
    · rw [decimal, Nat.toDigits_of_lt_base hlt] at h ⊢
      simpa using h
    · rw [decimal, Nat.toDigits_of_base_le (by decide) hge] at h
      have hfirst : (Nat.toDigits 10 (n / 10)).head? = some '0' := by
        cases hd : Nat.toDigits 10 (n / 10) with
        | nil => exact absurd hd Nat.toDigits_ne_nil
        | cons c t => simpa [hd] using h
      have hzero := decimal_eq_zero_iff.mp (ih (n / 10) (by omega) hfirst)
      omega

theorem Plain.take {t : Text} (ht : Plain t) {n : Nat} (hn : 0 < n) : Plain (t.take n) := by
  refine ⟨fun c hc => ht.digits c (List.mem_of_mem_take hc), ?_, ?_⟩
  · intro h
    rcases List.take_eq_nil_iff.mp h with h | h
    · omega
    · exact ht.ne_nil h
  · intro h
    rw [List.head?_take, if_neg (by omega)] at h
    rw [ht.bare h, List.take_of_length_le hn]

theorem Plain.append_ne_cons {t : Text} (ht : Plain t) {c : Char} (hc : c.isDigit = false)
    (rest u : Text) : t ++ rest ≠ c :: u := by
  intro h
  cases t with
  | nil => exact ht.ne_nil rfl
  | cons d t =>
    have hdigit := ht.digits d List.mem_cons_self
    rw [(List.cons.inj h).1, hc] at hdigit
    cases hdigit

theorem plain_zero : Plain ['0'] :=
  plain_decimal 0

end Checklist.Text
