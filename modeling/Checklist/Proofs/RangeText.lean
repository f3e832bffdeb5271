import Mathlib.Data.List.Intervals
import Checklist.Proofs.Arguments
import Checklist.Proofs.Digits
import Checklist.Proofs.Trim

namespace Checklist
open Text

namespace Text

variable {c : Char} {t before : Text}

theorem splitFirst_of_not_mem (h : c ∉ t) : splitFirst c t = none := by
  induction t with
  | nil => rfl
  | cons d t ih =>
    rw [List.mem_cons, not_or] at h
    rw [splitFirst, if_neg (Ne.symm h.1), ih h.2]
    rfl

theorem splitFirst_append (h : c ∉ before) (after : Text) :
    splitFirst c (before ++ c :: after) = some (before, after) := by
  induction before with
  | nil => exact if_pos rfl
  | cons d before ih =>
    rw [List.mem_cons, not_or] at h
    rw [List.cons_append, splitFirst, if_neg (Ne.symm h.1), ih h.2]
    rfl

theorem Digits.trimmed {digits : Text} (h : Digits digits) : Trimmed digits :=
  ⟨fun c hc => isWhite_of_isDigit (h c (List.mem_of_mem_head? hc)),
    fun c hc => isWhite_of_isDigit (h c (List.mem_of_getLast? hc))⟩

end Text

namespace LineRange

/-- A number as it may be typed: digits, perhaps after a plus sign, with white space around them.
Its value is from one up to the largest word of 64 bits. -/
structure Numeral (t : Text) (n : Nat) : Prop where
  spelled : ∃ before sign digits after, t = before ++ (sign ++ digits) ++ after ∧
    White before ∧ White after ∧ (sign = [] ∨ sign = ['+']) ∧
    digits ≠ [] ∧ Digits digits ∧ decimalValue digits = n
  pos : 1 ≤ n
  bounded : n ≤ 2 ^ 64 - 1

/-- A range as it may be typed: one number, or two around the first colon of the text. -/
inductive Spells : Text → LineRange → Prop where
  | line {t : Text} {n : Nat} (noColon : ':' ∉ t) (number : Numeral t n) : Spells t ⟨n, n⟩
  | lines {start stop : Text} {m n : Nat} (noColon : ':' ∉ start) (first : Numeral start m)
      (last : Numeral stop n) (ordered : m ≤ n) : Spells (start ++ ':' :: stop) ⟨m, n⟩

variable {t : Text} {n : Nat} {range : LineRange}

/-- What is left of a typed number without its plus sign. -/
def unsigned : Text → Text
  | '+' :: digits => digits
  | digits => digits

theorem number?_eq_some_iff_unsigned : number? t = some n ↔
    unsigned (trim t) ≠ [] ∧ Digits (unsigned (trim t)) ∧ decimalValue (unsigned (trim t)) = n ∧
      1 ≤ n ∧ n ≤ 2 ^ 64 - 1 := by
  have hsize : UInt64.size = 2 ^ 64 := rfl
  have hnumber : number? t =
      if !(unsigned (trim t)).isEmpty && (unsigned (trim t)).all Char.isDigit &&
        0 < decimalValue (unsigned (trim t)) && decimalValue (unsigned (trim t)) < UInt64.size
      then some (decimalValue (unsigned (trim t))) else none := rfl
  rw [hnumber, Option.ite_none_right_eq_some, Option.some.injEq]
  simp only [Bool.and_eq_true, Bool.not_eq_true', List.isEmpty_eq_false_iff, List.all_eq_true,
    decide_eq_true_eq, hsize, Digits]
  constructor
  · intro ⟨⟨⟨⟨hne, hdigits⟩, hpos⟩, hlt⟩, hvalue⟩
    exact ⟨hne, hdigits, hvalue, by omega, by omega⟩
  · intro ⟨hne, hdigits, hvalue, hpos, hle⟩
    exact ⟨⟨⟨⟨hne, hdigits⟩, by omega⟩, by omega⟩, hvalue⟩

theorem exists_sign (t : Text) : ∃ sign, (sign = [] ∨ sign = ['+']) ∧ t = sign ++ unsigned t := by
  unfold unsigned
  split
  · exact ⟨['+'], .inr rfl, rfl⟩
  · exact ⟨[], .inl rfl, rfl⟩

theorem unsigned_append {sign digits : Text} (hsign : sign = [] ∨ sign = ['+'])
    (h : Digits digits) : unsigned (sign ++ digits) = digits := by
  rcases hsign with rfl | rfl
  · rw [List.nil_append, unsigned]
    intro rest hplus
    have hdigit := h '+' (by rw [hplus]; exact List.mem_cons_self)
    cases hdigit
  · rfl

theorem trimmed_signed {sign digits : Text} (hsign : sign = [] ∨ sign = ['+'])
    (hne : digits ≠ []) (h : Digits digits) : Trimmed (sign ++ digits) := by
  rcases hsign with rfl | rfl
  · exact h.trimmed
  · refine ⟨fun c hc => ?_, fun c hc => ?_⟩
    · cases hc
      decide
    · rw [List.getLast?_append_of_ne_nil _ hne] at hc
      exact h.trimmed.last c hc

theorem number?_eq_some_iff : number? t = some n ↔ Numeral t n := by
  rw [number?_eq_some_iff_unsigned]
  constructor
  · intro ⟨hne, hdigits, hvalue, hpos, hle⟩
    obtain ⟨before, after, hbefore, hafter, htrim⟩ := exists_trim t
    obtain ⟨sign, hsign, hcore⟩ := exists_sign (trim t)
    refine ⟨⟨before, sign, unsigned (trim t), after, ?_, hbefore, hafter, hsign, hne, hdigits,
      hvalue⟩, hpos, hle⟩
    rw [← hcore]
    exact htrim
  · intro ⟨⟨before, sign, digits, after, ht, hbefore, hafter, hsign, hne, hdigits, hvalue⟩, hpos,
      hle⟩
    have htrim : trim t = sign ++ digits := by
      rw [ht, trim_append hbefore hafter (trimmed_signed hsign hne hdigits)]
    rw [htrim, unsigned_append hsign hdigits]
    exact ⟨hne, hdigits, hvalue, hpos, hle⟩

/-- The reader accepts what may be typed and nothing else. -/
theorem ofText?_eq_some_iff : ofText? t = some range ↔ Spells t range := by
  constructor
  · intro h
    by_cases hcolon : ':' ∈ t
    · obtain ⟨start, stop, rfl, hfree⟩ := List.eq_append_cons_of_mem hcolon
      rw [ofText?, splitFirst_append hfree] at h
      obtain ⟨m, hm, h⟩ := Option.bind_eq_some_iff.mp h
      obtain ⟨n, hn, h⟩ := Option.bind_eq_some_iff.mp h
      split at h
      · cases h
      · rename_i hle
        cases h
        exact .lines hfree (number?_eq_some_iff.mp hm) (number?_eq_some_iff.mp hn)
          (Nat.le_of_not_lt hle)
    · rw [ofText?, splitFirst_of_not_mem hcolon] at h
      obtain ⟨n, hn, rfl⟩ := Option.map_eq_some_iff.mp h
      exact .line hcolon (number?_eq_some_iff.mp hn)
  · intro h
    cases h with
    | line noColon number =>
      rw [ofText?, splitFirst_of_not_mem noColon]
      simp [number?_eq_some_iff.mpr number]
    | lines noColon first last ordered =>
      rw [ofText?, splitFirst_append noColon]
      simp [number?_eq_some_iff.mpr first, number?_eq_some_iff.mpr last, Nat.not_lt.mpr ordered]

theorem numeral_decimal (hpos : 1 ≤ n) (hlt : n < 2 ^ 64) : Numeral (decimal n) n := by
  have hwhite : White [] := fun _ hc => nomatch hc
  refine ⟨⟨[], [], decimal n, [], ?_, hwhite, hwhite, .inl rfl, decimal_ne_nil n,
    digits_decimal n, decimalValue_decimal n⟩, hpos, by omega⟩
  simp

theorem colon_not_mem_decimal (n : Nat) : ':' ∉ decimal n := by
  intro hmem
  cases digits_decimal n ':' hmem

theorem Valid.indices_eq (valid : range.Valid) :
    range.indices = List.Ico (range.first - 1) range.last := by
  have hpos := valid.first_pos
  rw [indices, firstIndices, Nat.min_self, List.Ico]
  congr 1
  omega

theorem Valid.check_eq_ok_iff (valid : range.Valid) (count : Nat) :
    range.check count = .ok () ↔ ∀ i ∈ range.indices, i < count := by
  obtain ⟨hpos, hle⟩ := valid
  rw [check]
  split
  · rename_i hlt
    refine iff_of_false (fun h => nomatch h) fun hall => ?_
    have hlast := hall (range.last - 1) ((mem_indices hpos _).mpr (by omega))
    omega
  · rename_i hlt
    refine iff_of_true rfl fun i hi => ?_
    have hbounds := (mem_indices hpos i).mp hi
    omega

/-- A text is a range exactly if it is spelled as one, and any other text is an error that names it.
The lines of a range counted from zero are those from before its first line to before its last, and
pass the check against a number of lines if they are all below it. Any two numbers of 64 bits in
order and above zero make a range as they are written in decimal. -/
theorem ofText?_spelled (t : Text) :
    (∀ range, ofText? t = some range ↔ Spells t range) ∧
    ((∀ range, ¬ Spells t range) →
      ∀ rest, Command.ranges (t :: rest) = .error (.invalidRange t)) ∧
    (∀ range, Spells t range →
      range.indices = List.Ico (range.first - 1) range.last ∧
      ∀ count, range.check count = .ok () ↔ ∀ i ∈ range.indices, i < count) ∧
    (∀ first last, 1 ≤ first → first ≤ last → last < 2 ^ 64 →
      ofText? (decimal first ++ ':' :: decimal last) = some ⟨first, last⟩) := by
  refine ⟨fun range => ofText?_eq_some_iff, ?_, ?_, ?_⟩
  · intro hspells rest
    have hnone : ofText? t = none := by
      rw [Option.eq_none_iff_forall_ne_some]
      intro range h
      exact hspells range (ofText?_eq_some_iff.mp h)
    simp [Command.ranges, hnone]
  · intro range h
    have valid := valid_of_ofText? (ofText?_eq_some_iff.mpr h)
    exact ⟨valid.indices_eq, valid.check_eq_ok_iff⟩
  · intro first last hpos hle hlt
    have hfirst := numeral_decimal hpos (Nat.lt_of_le_of_lt hle hlt)
    have hlast := numeral_decimal (Nat.le_trans hpos hle) hlt
    exact ofText?_eq_some_iff.mpr (.lines (colon_not_mem_decimal first) hfirst hlast hle)

/-- White space around each number, a plus sign and idle zeros; and a number past the largest
word. -/
theorem ofText?_spelled_extremes :
    Spells "\t+007 : 18446744073709551615 ".toList ⟨7, 18446744073709551615⟩ ∧
    (LineRange.mk 7 18446744073709551615).indices = List.Ico 6 18446744073709551615 ∧
    ((LineRange.mk 7 18446744073709551615).check 7 = .ok () ↔
      ∀ i ∈ (LineRange.mk 7 18446744073709551615).indices, i < 7) ∧
    Command.ranges ["1:18446744073709551616".toList] =
      .error (.invalidRange "1:18446744073709551616".toList) ∧
    ofText? (decimal 7 ++ ':' :: decimal 18446744073709551615) =
      some ⟨7, 18446744073709551615⟩ := by
  obtain ⟨hspells, -, hlines, hdecimal⟩ :=
    ofText?_spelled "\t+007 : 18446744073709551615 ".toList
  obtain ⟨hlarge, herror, -, -⟩ := ofText?_spelled "1:18446744073709551616".toList
  have typed := (hspells ⟨7, 18446744073709551615⟩).mp (by decide)
  obtain ⟨hindices, hcheck⟩ := hlines _ typed
  refine ⟨typed, hindices, hcheck 7, herror ?_ [], hdecimal _ _ (by decide) (by decide) (by decide)⟩
  intro range h
  have hsome := (hlarge range).mpr h
  have hnone : ofText? "1:18446744073709551616".toList = none := by decide
  rw [hnone] at hsome
  cases hsome

end LineRange

end Checklist
