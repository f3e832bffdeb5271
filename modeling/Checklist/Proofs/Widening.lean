import Checklist.Proofs.Rounding

namespace Checklist

namespace BinaryFormat

variable {f g : BinaryFormat}

/-- A format whose numbers are all numbers of another one. -/
structure Embeds (f g : BinaryFormat) : Prop where
  precision : f.precision ≤ g.precision
  scale : f.scale ≤ g.scale
  exponent : 2 ^ f.exponentBits + (g.scale - f.scale) ≤ 2 ^ g.exponentBits

theorem embeds_binary32 : Embeds .binary32 .binary64 :=
  ⟨by decide, by decide, by decide⟩

/-- A significand times a power of two is the magnitude of some rank. Below the first full step the
significand is doubled until it is one of a step or no power is left. -/
theorem exists_units_eq (g : BinaryFormat) {m : Nat} (hm : m ≤ 2 * g.binade) (k : Nat) :
    ∃ rank, g.units rank = m * 2 ^ k ∧ rank ≤ k * g.binade + m := by
  induction k generalizing m with
  | zero =>
    refine ⟨m, ?_, by omega⟩
    have hunits : g.units (0 * g.binade + m) = m * 2 ^ 0 := units_step hm (.inl rfl)
    simpa using hunits
  | succ k ih =>
    rcases Nat.lt_or_ge m g.binade with hlt | hge
    · obtain ⟨rank, hrank, hle⟩ := ih (m := 2 * m) (by omega)
      refine ⟨rank, ?_, ?_⟩
      · rw [hrank, Nat.pow_succ]
        ring
      · rw [Nat.add_one_mul]
        omega
    · exact ⟨(k + 1) * g.binade + m, units_step hm (.inr hge), Nat.le_refl _⟩

theorem binade_le (h : Embeds f g) : f.binade ≤ g.binade :=
  Nat.pow_le_pow_right (by decide) (Nat.sub_le_sub_right h.precision 1)

/-- Every finite magnitude is one of the wider format. -/
theorem Embeds.exists_units_eq (h : Embeds f g) {rank : Nat} (hrank : rank < f.top) :
    ∃ wide, wide < g.top ∧ g.units wide = f.units rank * 2 ^ (g.scale - f.scale) := by
  obtain ⟨step, m, rfl, hm, hs⟩ := f.exists_step rank
  have hbinade := binade_le h
  obtain ⟨wide, hwide, hle⟩ := g.exists_units_eq (m := m) (by omega) (step + (g.scale - f.scale))
  refine ⟨wide, ?_, ?_⟩
  · -- below the first full step one more binade covers the significand, in a full step two do
    have hsteps : ∃ j, m < j * f.binade ∧ step + j < 2 ^ f.exponentBits := by
      rcases Nat.lt_or_ge m f.binade with hlt | hge
      · have hpos : 0 < 2 ^ f.exponentBits - 1 := Nat.pos_of_mul_pos_right (Nat.zero_lt_of_lt hrank)
        exact ⟨1, by omega, by omega⟩
      · have hlt : (step + 1) * f.binade < (2 ^ f.exponentBits - 1) * f.binade := by
          rw [Nat.add_one_mul]
          exact Nat.lt_of_le_of_lt (Nat.add_le_add_left hge _) hrank
        have := Nat.lt_of_mul_lt_mul_right hlt
        exact ⟨2, hm, by omega⟩
    obtain ⟨j, hj, hsum⟩ := hsteps
    have hexp := h.exponent
    calc wide ≤ (step + (g.scale - f.scale)) * g.binade + m := hle
      _ < (step + (g.scale - f.scale)) * g.binade + j * g.binade :=
        Nat.add_lt_add_left (Nat.lt_of_lt_of_le hj (Nat.mul_le_mul_left j hbinade)) _
      _ = (step + (g.scale - f.scale) + j) * g.binade := (Nat.add_mul _ _ _).symm
      _ ≤ g.top := Nat.mul_le_mul_right _ (by rw [Nat.pow_eq]; omega)
  · rw [hwide, units_step (Nat.le_of_lt hm) hs, Nat.pow_add]
    ring

end BinaryFormat

namespace Binary

variable {f g : BinaryFormat}

/-- A number as it is read: not NaN, and its rank no higher than that of infinity. -/
def Canonical : Binary f → Prop
  | nan => False
  | number _ rank => rank ≤ f.top

theorem canonical_ofRatio (negative : Bool) (n d : Nat) :
    (ofRatio negative n d : Binary f).Canonical :=
  f.nearest_le_top _ _

theorem canonical_convert {x : Binary f} (hx : x ≠ nan) : (x.convert : Binary g).Canonical := by
  cases x with
  | nan => exact absurd rfl hx
  | number negative rank =>
    rw [convert]
    split
    · exact Nat.le_refl _
    · exact canonical_ofRatio _ _ _

theorem convert_infinity (negative : Bool) :
    ((infinity negative : Binary f).convert : Binary g) = infinity negative := by
  simp [convert, infinity]

/-- A finite number is held exactly by the wider format. -/
theorem exists_convert_eq (h : BinaryFormat.Embeds f g) (hg : 2 ≤ g.precision) (negative : Bool)
    {rank : Nat} (hrank : rank < f.top) : ∃ wide, wide < g.top ∧
      ((number negative rank : Binary f).convert : Binary g) = number negative wide ∧
      g.units wide = f.units rank * 2 ^ (g.scale - f.scale) := by
  obtain ⟨wide, hwide, hunits⟩ := h.exists_units_eq hrank
  refine ⟨wide, hwide, ?_, hunits⟩
  have hscale : 2 ^ g.scale = 2 ^ (g.scale - f.scale) * 2 ^ f.scale := by
    rw [← Nat.pow_add, Nat.sub_add_cancel h.scale]
  rw [convert, if_neg (by omega), ofRatio]
  congr 1
  calc g.nearest (f.units rank * 2 ^ g.scale) (2 ^ f.scale)
      = g.nearest (g.units wide * 2 ^ f.scale) (2 ^ f.scale) := by
        rw [hscale, ← Nat.mul_assoc, ← hunits]
    _ = wide := by
        rw [BinaryFormat.nearest_units hg wide (Nat.two_pow_pos _)]
        omega

/-- Widening and narrowing again gives back every number. -/
theorem convert_convert (h : BinaryFormat.Embeds f g) (hf : 2 ≤ f.precision) {x : Binary f}
    (hx : x.Canonical) : ((x.convert : Binary g).convert : Binary f) = x := by
  cases x with
  | nan => exact hx.elim
  | number negative rank =>
    rcases Nat.eq_or_lt_of_le hx with rfl | hlt
    · exact (congrArg convert (convert_infinity negative)).trans (convert_infinity negative)
    · obtain ⟨wide, hwide, hconvert, hunits⟩ :=
        exists_convert_eq h (Nat.le_trans hf h.precision) negative hlt
      have hscale : 2 ^ g.scale = 2 ^ (g.scale - f.scale) * 2 ^ f.scale := by
        rw [← Nat.pow_add, Nat.sub_add_cancel h.scale]
      rw [hconvert, convert, if_neg (by omega), ofRatio]
      congr 1
      calc f.nearest (g.units wide * 2 ^ f.scale) (2 ^ g.scale)
          = f.nearest (f.units rank * 2 ^ g.scale) (2 ^ g.scale) := by
            rw [hunits, hscale, Nat.mul_assoc]
        _ = rank := by
            rw [BinaryFormat.nearest_units hf rank (Nat.two_pow_pos _)]
            omega

end Binary

end Checklist
