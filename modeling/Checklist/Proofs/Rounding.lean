import Checklist.Binary.Basic
import Mathlib.Order.Monotone.Basic
import Mathlib.Tactic.Ring

namespace Checklist

/-- The quotient is at most a half away, and an odd one is nearer than that. -/
theorem roundHalfEven_bounds (n : Nat) {d : Nat} (hd : 0 < d) :
    2 * (roundHalfEven n d * d) ≤ 2 * n + d ∧ 2 * n ≤ 2 * (roundHalfEven n d * d) + d ∧
      (roundHalfEven n d % 2 = 1 →
        2 * (roundHalfEven n d * d) < 2 * n + d ∧ 2 * n < 2 * (roundHalfEven n d * d) + d) := by
  have hdiv := Nat.div_add_mod' n d
  have hmod := Nat.mod_lt n hd
  have hup := Nat.add_one_mul (n / d) d
  simp only [roundHalfEven]
  split
  · omega
  · split
    · omega
    · rcases Nat.mod_two_eq_zero_or_one (n / d) with h | h
      · rw [h, Nat.add_zero]
        omega
      · rw [h]
        omega

theorem le_roundHalfEven {k n d : Nat} (hd : 0 < d) (h : k * d ≤ n) : k ≤ roundHalfEven n d := by
  have hk : k ≤ n / d := (Nat.le_div_iff_mul_le hd).mpr h
  simp only [roundHalfEven]
  split
  · exact hk
  · split <;> omega

theorem roundHalfEven_le {k n d : Nat} (h : n < k * d) : roundHalfEven n d ≤ k := by
  have hk : n / d < k := Nat.div_lt_of_lt_mul (by rwa [Nat.mul_comm] at h)
  simp only [roundHalfEven]
  split
  · omega
  · split <;> omega

namespace BinaryFormat

variable {f : BinaryFormat}

theorem binade_pos (f : BinaryFormat) : 0 < f.binade :=
  Nat.pow_pos (by decide)

/-- A rank is a significand in the step of its exponent; the end of a step is the start of the
next. -/
theorem units_step {step m : Nat} (hm : m ≤ 2 * f.binade) (hs : step = 0 ∨ f.binade ≤ m) :
    f.units (step * f.binade + m) = m * 2 ^ step := by
  have hpos := f.binade_pos
  have hquot : (step * f.binade + m) / f.binade = step + m / f.binade := by
    rw [Nat.add_comm, Nat.add_mul_div_right _ _ hpos, Nat.add_comm]
  simp only [units, hquot]
  rcases Nat.lt_or_ge m f.binade with hlt | hge
  · have hz : step = 0 := by omega
    subst hz
    simp [Nat.div_eq_of_lt hlt]
  · rcases Nat.eq_or_lt_of_le hm with rfl | hlt
    · rw [Nat.mul_div_cancel _ hpos]
      have hstep : step + 2 - 1 = step + 1 := by omega
      have hrest : step * f.binade + 2 * f.binade - (step + 1) * f.binade = f.binade := by
        rw [← Nat.add_mul, ← Nat.sub_mul]
        simp
      rw [hstep, hrest, Nat.pow_eq, Nat.pow_succ]
      ring
    · have hone : m / f.binade = 1 := Nat.div_eq_of_lt_le (by omega) (by omega)
      simp [hone]

theorem exists_step (f : BinaryFormat) (rank : Nat) : ∃ step m, rank = step * f.binade + m ∧
    m < 2 * f.binade ∧ (step = 0 ∨ f.binade ≤ m) := by
  have hpos := f.binade_pos
  have hmod := Nat.mod_lt rank hpos
  have hdiv := Nat.div_add_mod' rank f.binade
  cases hq : rank / f.binade with
  | zero =>
    rw [hq] at hdiv
    exact ⟨0, rank, by omega, by omega, .inl rfl⟩
  | succ q =>
    rw [hq, Nat.succ_mul] at hdiv
    exact ⟨q, f.binade + rank % f.binade, by omega, by omega, .inr (by omega)⟩

theorem units_lt_units_succ (f : BinaryFormat) (rank : Nat) : f.units rank < f.units (rank + 1) := by
  obtain ⟨step, m, rfl, hm, hs⟩ := f.exists_step rank
  rw [units_step (by omega) hs, Nat.add_assoc, units_step (by omega) (by omega)]
  exact Nat.mul_lt_mul_of_pos_right (by omega) (Nat.two_pow_pos step)

/-- Beyond the end of a step the magnitudes lie further apart. -/
theorem le_units_succ {step m : Nat} (hm : m ≤ 2 * f.binade) (hs : step = 0 ∨ f.binade ≤ m) :
    (m + 1) * 2 ^ step ≤ f.units (step * f.binade + m + 1) := by
  rcases Nat.eq_or_lt_of_le hm with rfl | hlt
  · have hrank : step * f.binade + 2 * f.binade + 1 = (step + 1) * f.binade + (f.binade + 1) := by
      ring
    have hpos := f.binade_pos
    rw [hrank, units_step (by omega) (by omega), Nat.pow_succ']
    calc (2 * f.binade + 1) * 2 ^ step ≤ (2 * f.binade + 2) * 2 ^ step :=
          Nat.mul_le_mul_right _ (by omega)
      _ = (f.binade + 1) * (2 * 2 ^ step) := by ring
  · rw [Nat.add_assoc, units_step (by omega) (by omega)]

theorem units_before {step m : Nat} (hm : m < 2 * f.binade) (hs : step = 0 ∨ f.binade ≤ m) :
    f.units (step * f.binade + (m + 1) - 1) + 2 ^ step = (m + 1) * 2 ^ step := by
  rw [← Nat.add_assoc, Nat.add_sub_cancel, units_step (Nat.le_of_lt hm) hs, Nat.add_one_mul]

theorem units_strictMono (f : BinaryFormat) : StrictMono f.units :=
  strictMono_nat_of_lt_succ f.units_lt_units_succ

@[simp] theorem units_zero (f : BinaryFormat) : f.units 0 = 0 := by
  simp [units]

theorem units_pos {rank : Nat} (h : 0 < rank) : 0 < f.units rank := by
  have := f.units_strictMono h
  simpa using this

/-- The fraction `n / d` of units lies between the points halfway from the magnitude of `rank` to
the magnitudes beside it, and only an even rank takes such a point. -/
structure Owned (f : BinaryFormat) (rank n d : Nat) : Prop where
  low : (f.units (rank - 1) + f.units rank) * d ≤ 2 * n
  high : 2 * n ≤ (f.units rank + f.units (rank + 1)) * d
  strict : rank % 2 = 1 →
    (f.units (rank - 1) + f.units rank) * d < 2 * n ∧
      2 * n < (f.units rank + f.units (rank + 1)) * d

theorem owned_iff {rank n d : Nat} : f.Owned rank n d ↔
    f.units (rank - 1) * d + f.units rank * d ≤ 2 * n ∧
      2 * n ≤ f.units rank * d + f.units (rank + 1) * d ∧
      (rank % 2 = 1 → f.units (rank - 1) * d + f.units rank * d < 2 * n ∧
        2 * n < f.units rank * d + f.units (rank + 1) * d) := by
  simp only [← Nat.add_mul]
  exact ⟨fun h => ⟨h.low, h.high, h.strict⟩, fun ⟨low, high, strict⟩ => ⟨low, high, strict⟩⟩

theorem owned_units (f : BinaryFormat) (rank : Nat) {d : Nat} (hd : 0 < d) :
    f.Owned rank (f.units rank * d) d := by
  have hup := Nat.mul_lt_mul_of_pos_right (f.units_lt_units_succ rank) hd
  have hdown := Nat.mul_le_mul_right d (f.units_strictMono.monotone (Nat.sub_le rank 1))
  rw [owned_iff]
  refine ⟨by omega, by omega, fun hodd => ?_⟩
  have hbefore : rank - 1 < rank := by omega
  have hstrict := Nat.mul_lt_mul_of_pos_right (f.units_strictMono hbefore) hd
  omega

/-- Owning is about the value of the fraction, and the greater value has no smaller rank. -/
theorem Owned.le {a b n n' d d' : Nat} (ha : f.Owned a n d) (hb : f.Owned b n' d') (hd : 0 < d)
    (hd' : 0 < d') (h : n * d' ≤ n' * d) : a ≤ b := by
  apply Nat.le_of_not_lt
  intro hlt
  have hpos : 0 < d * d' := Nat.mul_pos hd hd'
  have hlow := Nat.mul_le_mul_right d' ha.low
  have hhigh := Nat.mul_le_mul_right d hb.high
  have hlast : f.units b ≤ f.units (a - 1) := f.units_strictMono.monotone (by omega)
  have hnext : f.units (b + 1) ≤ f.units a := f.units_strictMono.monotone (by omega)
  have hmiddle : 2 * n * d' ≤ 2 * n' * d := by
    rw [Nat.mul_assoc, Nat.mul_assoc]
    exact Nat.mul_le_mul_left 2 h
  have hcross : (f.units (a - 1) + f.units a) * (d * d') ≤
      (f.units b + f.units (b + 1)) * (d * d') := by
    calc (f.units (a - 1) + f.units a) * (d * d')
        = (f.units (a - 1) + f.units a) * d * d' := by ring
      _ ≤ 2 * n * d' := hlow
      _ ≤ 2 * n' * d := hmiddle
      _ ≤ (f.units b + f.units (b + 1)) * d' * d := hhigh
      _ = (f.units b + f.units (b + 1)) * (d * d') := by ring
  have hsum := Nat.le_of_mul_le_mul_right hcross hpos
  -- the two ranks are neighbours at the point halfway, and one of them is odd
  have hsame : b + 1 = a := by
    apply f.units_strictMono.injective
    omega
  subst hsame
  have hhalf : (f.units b + f.units (b + 1)) * d * d' = (f.units b + f.units (b + 1)) * d' * d := by
    ring
  rw [Nat.add_sub_cancel] at hlow
  rcases Nat.mod_two_eq_zero_or_one b with heven | hodd
  · have := Nat.mul_lt_mul_of_pos_right (ha.strict (by omega)).1 hd'
    rw [Nat.add_sub_cancel] at this
    omega
  · have := Nat.mul_lt_mul_of_pos_right (hb.strict hodd).2 hd
    omega

/-- The rank that `nearest` rounds to before it stops at infinity. -/
def rounded (f : BinaryFormat) (n d : Nat) : Nat :=
  let step := (n / d).log2 + 1 - f.precision
  step * f.binade + roundHalfEven n (d * 2 ^ step)

theorem nearest_eq (f : BinaryFormat) (n d : Nat) : f.nearest n d = min f.top (f.rounded n d) :=
  rfl

theorem binade_even (hf : 2 ≤ f.precision) : 2 ∣ f.binade :=
  Dvd.dvd.trans (by simp) (Nat.pow_dvd_pow 2 (show 1 ≤ f.precision - 1 by omega))

theorem two_mul_binade (hf : 2 ≤ f.precision) : 2 * f.binade = 2 ^ f.precision := by
  rw [binade, Nat.pow_eq, ← Nat.pow_succ']
  congr 1
  omega

/-- The significand that rounding finds, with the step it is found in. -/
theorem rounded_cases (hf : 2 ≤ f.precision) (n : Nat) {d : Nat} (hd : 0 < d) :
    ∃ step, f.rounded n d = step * f.binade + roundHalfEven n (d * 2 ^ step) ∧
      n < 2 * f.binade * (d * 2 ^ step) ∧ (step = 0 ∨ f.binade * (d * 2 ^ step) ≤ n) := by
  refine ⟨(n / d).log2 + 1 - f.precision, rfl, ?_, ?_⟩
  · have hlt : n / d < 2 ^ (f.precision + ((n / d).log2 + 1 - f.precision)) :=
      Nat.lt_of_lt_of_le Nat.lt_log2_self (Nat.pow_le_pow_right (by decide) (by omega))
    have := (Nat.div_lt_iff_lt_mul hd).mp hlt
    rw [Nat.pow_add] at this
    rw [two_mul_binade hf]
    calc n < _ := this
      _ = _ := by ring
  · rcases Nat.eq_zero_or_pos ((n / d).log2 + 1 - f.precision) with hz | hpos
    · exact .inl hz
    · right
      have hne : n / d ≠ 0 := by
        intro h
        simp [h] at hpos
        omega
      have hexp : f.precision - 1 + ((n / d).log2 + 1 - f.precision) = (n / d).log2 := by omega
      have hle : f.binade * 2 ^ ((n / d).log2 + 1 - f.precision) ≤ n / d := by
        rw [binade, Nat.pow_eq, ← Nat.pow_add, hexp]
        exact Nat.log2_self_le hne
      calc f.binade * (d * 2 ^ ((n / d).log2 + 1 - f.precision))
          = f.binade * 2 ^ ((n / d).log2 + 1 - f.precision) * d := by ring
        _ ≤ n := (Nat.le_div_iff_mul_le hd).mp hle

theorem owned_rounded (hf : 2 ≤ f.precision) (n : Nat) {d : Nat} (hd : 0 < d) :
    f.Owned (f.rounded n d) n d := by
  obtain ⟨step, hrank, hlt, hge⟩ := rounded_cases hf n hd
  have hdstep : 0 < d * 2 ^ step := Nat.mul_pos hd (Nat.two_pow_pos step)
  obtain ⟨hlow, hhigh, hodd⟩ := roundHalfEven_bounds n hdstep
  have hm : roundHalfEven n (d * 2 ^ step) ≤ 2 * f.binade := roundHalfEven_le hlt
  have hs : step = 0 ∨ f.binade ≤ roundHalfEven n (d * 2 ^ step) :=
    hge.imp_right (le_roundHalfEven hdstep)
  rw [hrank]
  generalize roundHalfEven n (d * 2 ^ step) = m at hlow hhigh hodd hm hs
  have hparity : (step * f.binade + m) % 2 = m % 2 := by
    obtain ⟨k, hk⟩ := Dvd.dvd.mul_left (binade_even hf) step
    omega
  have hself : f.units (step * f.binade + m) * d = m * (d * 2 ^ step) := by
    rw [units_step hm hs]
    ring
  have hnext : (m + 1) * (d * 2 ^ step) ≤ f.units (step * f.binade + m + 1) * d := by
    calc (m + 1) * (d * 2 ^ step) = (m + 1) * 2 ^ step * d := by ring
      _ ≤ _ := Nat.mul_le_mul_right _ (le_units_succ hm hs)
  rw [Nat.add_one_mul] at hnext
  rw [owned_iff, hparity, hself]
  rcases Nat.eq_zero_or_pos m with rfl | hpos
  · have hzero : step * f.binade = 0 := by
      have := f.binade_pos
      rcases hs with rfl | hs
      · simp
      · omega
    simp only [hzero, Nat.zero_add, Nat.zero_sub, units_zero, Nat.zero_mul] at hnext ⊢
    omega
  · by_cases hinside : step = 0 ∨ f.binade < m
    · obtain ⟨k, rfl⟩ : ∃ k, m = k + 1 := ⟨m - 1, by omega⟩
      have hbefore : f.units (step * f.binade + (k + 1) - 1) * d + d * 2 ^ step =
          (k + 1) * (d * 2 ^ step) := by
        calc _ = (f.units (step * f.binade + (k + 1) - 1) + 2 ^ step) * d := by ring
          _ = _ := by
            rw [units_before (by omega) (by omega)]
            ring
      omega
    · -- at the start of a step the rank before is nearer, but the fraction is not below the start
      have hstart : m * (d * 2 ^ step) ≤ n := by
        have hm : m = f.binade := by omega
        rw [hm]
        exact hge.resolve_left (by omega)
      have hbefore : f.units (step * f.binade + m - 1) * d < m * (d * 2 ^ step) := by
        rw [← hself]
        exact Nat.mul_lt_mul_of_pos_right (f.units_strictMono (by omega)) hd
      omega

/-- The ranks own disjoint stretches. -/
theorem Owned.nearest_eq {rank n d : Nat} (h : f.Owned rank n d) (hf : 2 ≤ f.precision)
    (hd : 0 < d) : f.nearest n d = min f.top rank := by
  have hr := owned_rounded hf n hd
  have heq : f.rounded n d = rank :=
    Nat.le_antisymm (hr.le h hd hd (Nat.le_refl _)) (h.le hr hd hd (Nat.le_refl _))
  rw [BinaryFormat.nearest_eq, heq]

theorem nearest_units (hf : 2 ≤ f.precision) (rank : Nat) {d : Nat} (hd : 0 < d) :
    f.nearest (f.units rank * d) d = min f.top rank :=
  (f.owned_units rank hd).nearest_eq hf hd

theorem nearest_le_nearest (hf : 2 ≤ f.precision) {n n' d d' : Nat} (hd : 0 < d) (hd' : 0 < d')
    (h : n * d' ≤ n' * d) : f.nearest n d ≤ f.nearest n' d' := by
  have hle := (owned_rounded hf n hd).le (owned_rounded hf n' hd') hd hd' h
  rw [BinaryFormat.nearest_eq, BinaryFormat.nearest_eq]
  omega

/-- Rounding is about the value of the fraction. -/
theorem nearest_congr (hf : 2 ≤ f.precision) {n n' d d' : Nat} (hd : 0 < d) (hd' : 0 < d')
    (h : n * d' = n' * d) : f.nearest n d = f.nearest n' d' :=
  Nat.le_antisymm (nearest_le_nearest hf hd hd' (Nat.le_of_eq h))
    (nearest_le_nearest hf hd' hd (Nat.le_of_eq h.symm))

theorem nearest_le_top (f : BinaryFormat) (n d : Nat) : f.nearest n d ≤ f.top :=
  Nat.min_le_left _ _

end BinaryFormat

end Checklist
