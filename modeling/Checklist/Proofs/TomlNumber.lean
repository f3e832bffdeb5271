import Checklist.Toml.Number
import Checklist.Toml.Printer
import Checklist.Proofs.Widening
import Checklist.Proofs.Shortest

namespace Checklist.Toml
open Text

section Runs

/-- A text that ends a run of digits. -/
def EndsRun (t : Text) : Prop :=
  ∀ c ∈ t.head?, c.isDigit = false ∧ c ≠ '_'

theorem ne_underscore_of_isDigit {c : Char} (h : c.isDigit = true) : c ≠ '_' := by
  rintro rfl
  exact absurd h (by decide)

theorem digitRun_append {digits rest : Text} (h : Digits digits) (hrest : EndsRun rest) :
    digitRun Char.isDigit (digits ++ rest) = (digits, rest) := by
  induction digits with
  | nil =>
    cases rest with
    | nil => rfl
    | cons c rest =>
      obtain ⟨hdigit, hunderscore⟩ := hrest c rfl
      rw [List.nil_append, digitRun]
      · simp [hdigit]
      · simp_all
  | cons c digits ih =>
    have hdigit := h c List.mem_cons_self
    rw [List.cons_append, digitRun, ih fun d hd => h d (List.mem_cons_of_mem c hd)]
    · simp [hdigit]
    · intro d u hc
      exact absurd hc (ne_underscore_of_isDigit hdigit)

theorem digits?_append {digits rest : Text} (h : Digits digits) (hne : digits ≠ [])
    (hrest : EndsRun rest) : digits? Char.isDigit (digits ++ rest) = some (digits, rest) := by
  rw [← digitRun_append h hrest]
  cases digits with
  | nil => exact absurd rfl hne
  | cons c digits => simp [digits?, h c List.mem_cons_self]

theorem wholeDigits?_append {whole rest : Text} (h : Plain whole) (hrest : EndsRun rest) :
    wholeDigits? (whole ++ rest) = some (whole, rest) := by
  rw [← digits?_append h.digits h.ne_nil hrest]
  by_cases hzero : whole.head? = some '0'
  · rw [h.bare hzero, digits?_append plain_zero.digits plain_zero.ne_nil hrest]
    rfl
  · cases whole with
    | nil => exact absurd rfl h.ne_nil
    | cons c whole =>
      rw [List.cons_append, wholeDigits?]
      simpa using hzero

end Runs

section Dates

theorem fixed?_eq_some {count low high value : Nat} {t rest : Text}
    (h : fixed? count low high t = some (value, rest)) :
    Digits (t.take count) ∧ (t.take count).length = count ∧ rest = t.drop count := by
  simp only [fixed?] at h
  split at h
  · rename_i hcheck
    simp only [Bool.and_eq_true, decide_eq_true_eq, List.all_eq_true] at hcheck
    cases h
    exact ⟨hcheck.1.1.2, hcheck.1.1.1, rfl⟩
  · cases h

/-- Digits before a point are not the start of a date: a date goes on with neither a digit nor a
point. -/
theorem expect?_of_fixed? {count low high value : Nat} {c : Char} {whole fraction rest : Text}
    (hwhole : Digits whole) (hc : c.isDigit = false) (hpoint : c ≠ '.')
    (h : fixed? count low high (whole ++ '.' :: fraction) = some (value, rest)) :
    expect? c rest = none := by
  obtain ⟨hdigits, -, rfl⟩ := fixed?_eq_some h
  have hle : count ≤ whole.length := by
    apply Nat.le_of_not_lt
    intro hlt
    obtain ⟨k, hk⟩ : ∃ k, count - whole.length = k + 1 := ⟨count - whole.length - 1, by omega⟩
    have hmem : '.' ∈ (whole ++ '.' :: fraction).take count := by
      rw [List.take_append, hk]
      simp
    exact absurd (hdigits '.' hmem) (by decide)
  rw [List.drop_append_of_le_length hle]
  cases hd : whole.drop count with
  | nil => simp [expect?, hpoint.symm]
  | cons d digits =>
    have hdigit := hwhole d (List.mem_of_mem_drop (hd ▸ List.mem_cons_self))
    have hne : d ≠ c := by
      rintro rfl
      simp [hdigit] at hc
    simp [expect?, hne]

theorem date?_whole {whole : Text} (h : Digits whole) (fraction : Text) :
    date? (whole ++ '.' :: fraction) = none := by
  have hday : day? (whole ++ '.' :: fraction) = none := by
    cases hyear : fixed? 4 0 9999 (whole ++ '.' :: fraction) with
    | none => simp [day?, hyear]
    | some read =>
      simp [day?, hyear, expect?_of_fixed? (c := '-') h (by decide) (by decide) hyear]
  have htime : time? (whole ++ '.' :: fraction) = none := by
    cases hhour : fixed? 2 0 23 (whole ++ '.' :: fraction) with
    | none => simp [time?, hhour]
    | some read =>
      simp [time?, hhour, expect?_of_fixed? (c := ':') h (by decide) (by decide) hhour]
  rw [date?, hday, htime]

theorem fixed?_eq_none {count low high : Nat} {c : Char} (hcount : 0 < count)
    (hc : c.isDigit = false) (t : Text) : fixed? count low high (c :: t) = none := by
  rw [Option.eq_none_iff_forall_ne_some]
  rintro ⟨value, rest⟩ h
  obtain ⟨hdigits, -, -⟩ := fixed?_eq_some h
  obtain ⟨k, rfl⟩ := Nat.exists_eq_succ_of_ne_zero (Nat.ne_of_gt hcount)
  have hdigit := hdigits c (by simp)
  rw [hc] at hdigit
  cases hdigit

theorem date?_eq_none {c : Char} (hc : c.isDigit = false) (t : Text) : date? (c :: t) = none := by
  simp [date?, day?, time?, fixed?_eq_none _ hc]

end Dates

section Floats

theorem sign_eq {t : Text} (hminus : ∀ u, t ≠ '-' :: u) (hplus : ∀ u, t ≠ '+' :: u) :
    sign t = (false, t) := by
  rw [sign]
  all_goals simp_all

theorem special?_eq_none {t : Text} (hi : ∀ u, t ≠ 'i' :: u) (hn : ∀ u, t ≠ 'n' :: u)
    (negative : Bool) : special? negative t = none := by
  rw [special?]
  all_goals simp_all

theorem boundedExponent_fraction (whole fraction : Text) :
    boundedExponent (whole ++ fraction) (0 - fraction.length) = -fraction.length := by
  simp only [boundedExponent, List.length_append]
  omega

theorem float?_signed {rank : Nat} {whole fraction : Text}
    (h : Spelling .binary64 rank whole fraction) (hfraction : fraction ≠ [])
    (hrank : rank < BinaryFormat.top .binary64) (negative : Bool) {t rest : Text}
    (ht : sign t = (negative, whole ++ '.' :: (fraction ++ '\n' :: rest))) :
    float? t = some (.number negative rank, '\n' :: rest) := by
  have hspecial : special? negative (whole ++ '.' :: (fraction ++ '\n' :: rest)) = none :=
    special?_eq_none (h.plain.append_ne_cons (by decide) _) (h.plain.append_ne_cons (by decide) _) _
  have hpoint : EndsRun ('.' :: (fraction ++ '\n' :: rest)) := by simp [EndsRun]
  have hbreak : EndsRun ('\n' :: rest) := by simp [EndsRun]
  have hexponent : exponent? ('\n' :: rest) = none := rfl
  have hfinite : (Binary.number negative rank : Binary64) ≠ .infinity false := by
    intro heq
    cases heq
    exact Nat.lt_irrefl _ hrank
  simp only [float?, ht, hspecial, wholeDigits?_append h.plain hpoint, Option.bind_eq_bind,
    Option.bind_some, digits?_append h.digits hfraction hbreak, hexponent,
    boundedExponent_fraction, h.reads]
  rw [if_neg hfinite]
  rfl

end Floats

/-- A finite number keeps a point and digits behind it. -/
theorem exists_pointed_eq {rank : Nat} (hrank : rank < BinaryFormat.top .binary64)
    (negative : Bool) : ∃ whole fraction, Spelling .binary64 rank whole fraction ∧ fraction ≠ [] ∧
      pointed (.number negative rank) =
        (if negative then ['-'] else []) ++ (whole ++ '.' :: fraction) := by
  obtain ⟨whole, fraction, htext, hspelling⟩ :=
    exists_spelling (f := .binary64) (by decide) (Nat.le_of_lt hrank)
  have hne : rank ≠ BinaryFormat.top .binary64 := Nat.ne_of_lt hrank
  have hnumber : (Binary.number negative rank : Binary64).text =
      (if negative then ['-'] else []) ++ spelled whole fraction := by
    cases negative <;> simp [Binary.text, hne, htext]
  have hnopoint : '.' ∉ whole := fun hc => absurd (hspelling.plain.digits '.' hc) (by decide)
  cases hf : fraction with
  | nil =>
    subst hf
    -- a whole number is written without a point, which is put behind it with a zero
    refine ⟨whole, ['0'], hspelling.withZero (by decide), by simp, ?_⟩
    simp only [pointed, hnumber, hne]
    cases negative <;> simp [spelled, hnopoint]
  | cons c fraction' =>
    subst hf
    refine ⟨whole, c :: fraction', hspelling, by simp, ?_⟩
    simp only [pointed, hnumber, hne]
    cases negative <;> simp [spelled]

theorem word?_of_float? {t rest : Text} {x : Binary64} (htrue : ∀ u, t ≠ 't' :: u)
    (hfalse : ∀ u, t ≠ 'f' :: u) (hdate : date? t = none) (h : float? t = some (x, rest)) :
    word? t = some (.float x, rest) := by
  rw [word?, hdate, h]
  · rfl
  · intro u hu
    exact htrue _ hu
  · intro u hu
    exact hfalse _ hu

theorem word?_infinity (negative : Bool) (rest : Text) :
    word? (number (.infinity negative) ++ '\n' :: rest) =
      some (.float (.infinity negative), '\n' :: rest) := by
  have hnumber : number (.infinity negative) =
      (if negative then ['-'] else []) ++ ['i', 'n', 'f'] := by
    cases negative <;> simp [number, pointed, Binary.infinity, Binary.text]
  rw [hnumber]
  cases negative with
  | false =>
    apply word?_of_float? (by simp) (by simp) (date?_eq_none (by decide) _)
    simp [float?, sign, special?]
  | true =>
    apply word?_of_float? (by simp) (by simp) (date?_eq_none (by decide) _)
    simp [float?, sign, special?]

/-- Every number but NaN reads back. -/
theorem word?_number {x : Binary64} (h : x.Canonical) (rest : Text) :
    word? (number x ++ '\n' :: rest) = some (.float x, '\n' :: rest) := by
  cases x with
  | nan => exact h.elim
  | number negative rank =>
    rcases Nat.eq_or_lt_of_le h with rfl | hlt
    · exact word?_infinity negative rest
    · obtain ⟨whole, fraction, hspelling, hfraction, htext⟩ := exists_pointed_eq hlt negative
      have hplain := hspelling.plain
      rw [number, htext]
      · cases negative with
        | true =>
          apply word?_of_float? (by simp) (by simp) (date?_eq_none (by decide) _)
          exact float?_signed hspelling hfraction hlt true (by simp [sign])
        | false =>
          have hunsigned : (if false then ['-'] else []) ++ (whole ++ '.' :: fraction) ++
              '\n' :: rest = whole ++ '.' :: (fraction ++ '\n' :: rest) := by simp
          have hsign : sign (whole ++ '.' :: (fraction ++ '\n' :: rest)) = (false, _) :=
            sign_eq (hplain.append_ne_cons (by decide) _) (hplain.append_ne_cons (by decide) _)
          rw [hunsigned]
          apply word?_of_float? (hplain.append_ne_cons (by decide) _)
            (hplain.append_ne_cons (by decide) _) (date?_whole hplain.digits _)
          exact float?_signed hspelling hfraction hlt false hsign
      · intro hnan
        cases hnan

end Checklist.Toml
