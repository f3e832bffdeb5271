import Checklist.Binary.Shortest
import Checklist.Proofs.Digits
import Checklist.Proofs.Rounding

namespace Checklist

namespace BinaryFormat

variable {f : BinaryFormat} {rank : Nat}

/-- The rank owns a multiple of a power of ten. -/
def OwnsDecimal (f : BinaryFormat) (rank digits : Nat) (exponent : Int) : Prop :=
  f.Owned rank (digits * 10 ^ exponent.toNat * 2 ^ f.scale) (10 ^ (-exponent).toNat)

theorem ownsDecimal_of_owns {point : Nat} {exponent : Int} (h : f.owns rank point exponent) :
    f.OwnsDecimal rank point exponent := by
  simp only [owns, Nat.pow_eq] at h
  split at h
  · simp only [Bool.and_eq_true, decide_eq_true_eq] at h
    exact ⟨h.1, h.2, fun hodd => by omega⟩
  · simp only [Bool.and_eq_true, decide_eq_true_eq] at h
    exact ⟨Nat.le_of_lt h.1, Nat.le_of_lt h.2, fun _ => h⟩

theorem ownsDecimal_of_pointOn? {point : Nat} {exponent : Int}
    (h : f.pointOn? rank exponent = some point) : f.OwnsDecimal rank point exponent := by
  simp only [pointOn?] at h
  split at h
  · rename_i hlow
    cases h
    simp only [Bool.and_eq_true] at hlow
    exact ownsDecimal_of_owns hlow.1
  · split at h
    · rename_i hhigh
      cases h
      exact ownsDecimal_of_owns hhigh
    · cases h

/-- On the finest grid lies the magnitude itself. -/
theorem ownsDecimal_exact (f : BinaryFormat) (rank : Nat) :
    f.OwnsDecimal rank (f.units rank * 10 ^ f.scale / 2 ^ f.scale) (-f.scale) := by
  have hexp : (-(f.scale : Int)).toNat = 0 := by omega
  have hneg : (-(-(f.scale : Int))).toNat = f.scale := by omega
  have hdvd : 2 ^ f.scale ∣ f.units rank * 10 ^ f.scale := by
    have hten : (10 : Nat) ^ f.scale = 2 ^ f.scale * 5 ^ f.scale := (Nat.mul_pow 2 5 f.scale)
    rw [hten]
    exact ⟨f.units rank * 5 ^ f.scale, by ring⟩
  rw [OwnsDecimal, hexp, hneg, Nat.pow_zero, Nat.mul_one, Nat.div_mul_cancel hdvd]
  exact f.owned_units rank (Nat.pow_pos (by decide))

/-- The search goes down one power of ten at a time and ends on the finest grid. -/
theorem ownsDecimal_coarsest (f : BinaryFormat) (rank : Nat) {more : Nat} {exponent : Int}
    (h : exponent = more - f.scale) :
    f.OwnsDecimal rank (f.coarsest rank more exponent).digits
      (f.coarsest rank more exponent).exponent := by
  induction more generalizing exponent with
  | zero =>
    have hexp : exponent = -f.scale := by omega
    have hneg : (-exponent).toNat = f.scale := by omega
    simp only [coarsest, hneg, Nat.pow_eq]
    rw [hexp]
    exact f.ownsDecimal_exact rank
  | succ more ih =>
    rw [coarsest]
    split
    · rename_i point hp
      exact ownsDecimal_of_pointOn? hp
    · exact ih (by omega)

theorem ownsDecimal_shortest (f : BinaryFormat) (rank : Nat) :
    f.OwnsDecimal rank (f.shortest rank).digits (f.shortest rank).exponent := by
  rw [shortest]
  split
  · rename_i hz
    subst hz
    simpa [OwnsDecimal] using f.owned_units 0 Nat.one_pos
  · exact f.ownsDecimal_coarsest rank (by omega)

/-- Nothing but zero is written with the digit zero alone. -/
theorem shortest_digits_pos (h : 0 < rank) : 0 < (f.shortest rank).digits := by
  apply Nat.pos_of_ne_zero
  intro hz
  have howned := (f.ownsDecimal_shortest rank).low
  rw [hz] at howned
  have hunits := f.units_pos h
  have hpos : 0 < (f.units (rank - 1) + f.units rank) * 10 ^ (-(f.shortest rank).exponent).toNat :=
    Nat.mul_pos (by omega) (Nat.pow_pos (by decide))
  omega

theorem OwnsDecimal.ofDecimal_eq {digits : Nat} {exponent : Int}
    (h : f.OwnsDecimal rank digits exponent) (hf : 2 ≤ f.precision) (htop : rank ≤ f.top)
    (negative : Bool) :
    Binary.ofDecimal negative digits exponent = (Binary.number negative rank : Binary f) := by
  rw [Binary.ofDecimal, Binary.ofRatio]
  congr 1
  have hd : 0 < 10 ^ (-exponent).toNat := Nat.pow_pos (by decide)
  exact (h.nearest_eq hf hd).trans (Nat.min_eq_right htop)

end BinaryFormat

/-- Digits with a point before the last of them, if there is one. -/
def spelled (whole fraction : Text) : Text :=
  whole ++ if fraction.isEmpty then [] else '.' :: fraction

/-- Digits before and after a point that read as the magnitude of a rank. -/
structure Spelling (f : BinaryFormat) (rank : Nat) (whole fraction : Text) : Prop where
  plain : Text.Plain whole
  digits : Text.Digits fraction
  reads : ∀ negative, Binary.ofDecimal negative (Text.decimalValue (whole ++ fraction))
    (-fraction.length) = (Binary.number negative rank : Binary f)

namespace Decimal

/-- Digits with a zero for each place that is missing before a point with `places` behind it. -/
def padded (digits : Text) (places : Nat) : Text :=
  List.replicate (places + 1 - digits.length) '0' ++ digits

theorem lt_padded_length (digits : Text) (places : Nat) : places < (padded digits places).length := by
  rw [padded, List.length_append, List.length_replicate]
  omega

theorem digits_padded {t : Text} (ht : Text.Digits t) (places : Nat) :
    Text.Digits (padded t places) :=
  (Text.digits_replicate_zero _).append ht

theorem plain_take_padded {t : Text} (ht : Text.Plain t) (places : Nat) :
    Text.Plain ((padded t places).take ((padded t places).length - places)) := by
  rcases Nat.lt_or_ge places t.length with hlt | hge
  · have hsame : padded t places = t := by
      have hnone : places + 1 - t.length = 0 := by omega
      simp [padded, hnone]
    rw [hsame]
    exact ht.take (by omega)
  · have hone : (padded t places).length - places = 1 := by
      rw [padded, List.length_append, List.length_replicate]
      omega
    have hzero : (padded t places).take 1 = ['0'] := by
      obtain ⟨k, hk⟩ : ∃ k, places + 1 - t.length = k + 1 := ⟨places - t.length, by omega⟩
      simp [padded, hk, List.replicate_succ]
    rw [hone, hzero]
    exact Text.plain_zero

/-- Digits before and after a point that are those of a decimal. -/
structure Cut (d : Decimal) (whole fraction : Text) : Prop where
  text : d.positional = spelled whole fraction
  plain : Text.Plain whole
  digits : Text.Digits fraction
  reads : ∀ (f : BinaryFormat) (negative : Bool),
    (Binary.ofDecimal negative (Text.decimalValue (whole ++ fraction)) (-fraction.length) :
      Binary f) = Binary.ofDecimal negative d.digits d.exponent

/-- Zeros behind the digits leave them plain, as only the exponent zero goes with the digit zero. -/
theorem exists_cut_of_nonneg {d : Decimal} (h : d.digits = 0 → d.exponent = 0)
    (hexp : 0 ≤ d.exponent) : ∃ whole fraction, d.Cut whole fraction := by
  have hplain := Text.plain_decimal d.digits
  have hneg : (-d.exponent).toNat = 0 := by omega
  refine ⟨Text.decimal d.digits ++ List.replicate d.exponent.toNat '0', [], ?_, ?_, ?_, ?_⟩
  · simp [positional, hexp, spelled, Text.decimal]
  · refine ⟨hplain.digits.append (Text.digits_replicate_zero _), ?_, ?_⟩
    · simp [Text.decimal_ne_nil]
    · intro hfirst
      have hzero : Text.decimal d.digits = ['0'] := by
        apply hplain.bare
        cases hd : Text.decimal d.digits with
        | nil => exact absurd hd (Text.decimal_ne_nil _)
        | cons c t => simpa [hd] using hfirst
      simp [hzero, h (Text.decimal_eq_zero_iff.mp hzero)]
  · intro c hc
    cases hc
  · intro f negative
    have hvalue : Text.decimalValue (Text.decimal d.digits ++ List.replicate d.exponent.toNat '0') =
        d.digits * 10 ^ d.exponent.toNat := by
      simp [Text.decimalValue_append, Nat.mul_comm]
    simp [hvalue, Binary.ofDecimal, hneg]

theorem exists_cut_of_neg {d : Decimal} (hexp : d.exponent < 0) :
    ∃ whole fraction, d.Cut whole fraction := by
  have hplain := Text.plain_decimal d.digits
  obtain ⟨places, hplaces⟩ : ∃ places : Nat, d.exponent = -places :=
    ⟨(-d.exponent).toNat, by omega⟩
  have htoNat : (-d.exponent).toNat = places := by omega
  have hlength := lt_padded_length (Text.decimal d.digits) places
  have hdigits := digits_padded hplain.digits places
  have hwhole := plain_take_padded hplain places
  have htext : d.positional =
      (padded (Text.decimal d.digits) places).take
          ((padded (Text.decimal d.digits) places).length - places) ++
        '.' :: (padded (Text.decimal d.digits) places).drop
          ((padded (Text.decimal d.digits) places).length - places) := by
    rw [positional, if_neg (by omega), htoNat]
    rfl
  have hvalue : Text.decimalValue (padded (Text.decimal d.digits) places) = d.digits := by
    simp [padded, Text.decimalValue_append]
  generalize padded (Text.decimal d.digits) places = digits at *
  have hdrop : (digits.drop (digits.length - places)).length = places := by
    rw [List.length_drop]
    omega
  have hne : digits.drop (digits.length - places) ≠ [] := by
    rw [← List.length_pos_iff]
    omega
  refine ⟨_, digits.drop (digits.length - places), ?_, hwhole, ?_, ?_⟩
  · simp [htext, spelled, hne]
  · exact fun c hc => hdigits c (List.mem_of_mem_drop hc)
  · intro f negative
    rw [List.take_append_drop, hvalue, hdrop, hplaces]

/-- A decimal without idle zeros is cut at its point. -/
theorem exists_cut (d : Decimal) (h : d.digits = 0 → d.exponent = 0) :
    ∃ whole fraction, d.Cut whole fraction := by
  rcases Int.lt_or_le d.exponent 0 with hneg | hnonneg
  · exact exists_cut_of_neg hneg
  · exact exists_cut_of_nonneg h hnonneg

end Decimal

namespace Spelling

variable {f : BinaryFormat} {rank : Nat} {whole fraction : Text}

/-- A zero at the end of a fraction says nothing. -/
theorem withZero (h : Spelling f rank whole []) (hf : 2 ≤ f.precision) :
    Spelling f rank whole ['0'] := by
  refine ⟨h.plain, Text.plain_zero.digits, fun negative => ?_⟩
  rw [← h.reads negative, Binary.ofDecimal, Binary.ofDecimal, Binary.ofRatio, Binary.ofRatio]
  congr 1
  apply BinaryFormat.nearest_congr hf
  · decide
  · decide
  · have hvalue : Text.decimalValue ['0'] = 0 := rfl
    simp [Text.decimalValue_append, hvalue]
    ring

end Spelling

/-- The shortest digits read as the number that they are of. -/
theorem exists_spelling {f : BinaryFormat} (hf : 2 ≤ f.precision) {rank : Nat} (h : rank ≤ f.top) :
    ∃ whole fraction, (f.shortest rank).positional = spelled whole fraction ∧
      Spelling f rank whole fraction := by
  have hzero : (f.shortest rank).digits = 0 → (f.shortest rank).exponent = 0 := by
    intro hdigits
    rcases Nat.eq_zero_or_pos rank with rfl | hpos
    · rfl
    · have := BinaryFormat.shortest_digits_pos (f := f) hpos
      omega
  obtain ⟨whole, fraction, hcut⟩ := (f.shortest rank).exists_cut hzero
  refine ⟨whole, fraction, hcut.text, hcut.plain, hcut.digits, fun negative => ?_⟩
  rw [hcut.reads]
  exact (f.ownsDecimal_shortest rank).ofDecimal_eq hf h negative

end Checklist
