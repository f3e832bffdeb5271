import Checklist.Color.Reader
import Checklist.Proofs.Shortest
import Checklist.Proofs.Trim

namespace Checklist

namespace Binary

variable {f : BinaryFormat}

theorem same_self {x : Binary f} (h : x ≠ nan) : x.same x := by
  cases x with
  | nan => exact absurd rfl h
  | number negative rank => simp [same, place]

/-- A share of cover, from nothing at zero to all at one. -/
def Share (x : Binary f) : Prop :=
  ∃ rank, x = number false rank ∧ rank ≤ f.nearest (1 * 2 ^ f.scale) 1

theorem share_one : Share (one : Binary f) :=
  ⟨_, rfl, Nat.le_refl _⟩

theorem share_ofRatio (hf : 2 ≤ f.precision) {n d : Nat} (hd : 0 < d) (h : n ≤ d) :
    Share (ofRatio false n d : Binary f) := by
  refine ⟨_, rfl, BinaryFormat.nearest_le_nearest hf hd Nat.one_pos ?_⟩
  rw [Nat.mul_one, Nat.one_mul, Nat.mul_comm (2 ^ f.scale)]
  exact Nat.mul_le_mul_right _ h

theorem share_of_not_less {rank : Nat} (h : one.less (number false rank : Binary f) = false) :
    Share (number false rank : Binary f) := by
  refine ⟨rank, rfl, ?_⟩
  simpa [less, place, one, ofNat, ofRatio] using h

theorem Share.not_less {x : Binary f} (h : x.Share) : one.less x = false := by
  obtain ⟨rank, rfl, hle⟩ := h
  simpa [less, place, one, ofNat, ofRatio] using hle

theorem Share.clamp_eq {x : Binary f} (h : x.Share) : x.clamp zero one = x := by
  have hless := h.not_less
  obtain ⟨rank, rfl, -⟩ := h
  have hzero : (number false rank : Binary f).less zero = false := by simp [less, place, zero]
  simp only [clamp, hzero, hless]
  rfl

/-- A share is never infinite. -/
theorem Share.exists_rank {x : Binary32} (h : x.Share) :
    ∃ rank, x = number false rank ∧ rank < BinaryFormat.top .binary32 := by
  obtain ⟨rank, rfl, hle⟩ := h
  exact ⟨rank, rfl, Nat.lt_of_le_of_lt hle (by decide)⟩

end Binary

namespace Text

theorem trimStart_plain {t : Text} (ht : Plain t) (rest : Text) :
    trimStart (t ++ rest) = t ++ rest := by
  cases t with
  | nil => exact absurd rfl ht.ne_nil
  | cons c t => exact trimStart_cons (isWhite_of_isDigit (ht.digits c List.mem_cons_self))

theorem trimStart_space_plain {t : Text} (ht : Plain t) (rest : Text) :
    trimStart (' ' :: (t ++ rest)) = t ++ rest :=
  (List.dropWhile_cons_of_pos (by decide)).trans (trimStart_plain ht rest)

theorem after?_append (start t : Text) : after? start (start ++ t) = some t := by
  simp [after?]

end Text

namespace Color

/-- A color as it is read. -/
def Proper (color : Color) : Prop :=
  color.alpha.Share

theorem Proper.same {color : Color} (h : color.Proper) : color.same color := by
  obtain ⟨rank, halpha, -⟩ := h
  have hsame : color.alpha.same color.alpha := by
    rw [halpha]
    exact Binary.same_self (by simp)
  simp [Color.same, hsame]

theorem proper_solid (red green blue : UInt8) : (solid red green blue).Proper :=
  Binary.share_one

theorem proper_of_hex? {t : Text} {color : Color} (h : hex? t = some color) : color.Proper := by
  simp only [hex?] at h
  split at h
  · simp only [Option.bind_eq_bind, Option.bind_eq_some_iff] at h
    obtain ⟨red, -, green, -, blue, -, h⟩ := h
    cases h
    exact proper_solid red green blue
  · simp only [Option.bind_eq_bind, Option.bind_eq_some_iff] at h
    obtain ⟨red, -, green, -, blue, -, alpha, -, h⟩ := h
    cases h
    exact Binary.share_ofRatio (by decide) (by decide) (Nat.le_of_lt_succ alpha.toNat_lt)
  · cases h

theorem proper_of_named? {t : Text} {color : Color} (h : named? t = some color) :
    color.Proper := by
  have hnames : ∀ entry ∈ names, entry.2.Proper := by
    simp [names, proper_solid]
  obtain ⟨before, after, hsplit, -⟩ := List.lookup_eq_some_iff.mp h
  exact hnames (t.map lowerLatin, color) (by simp [hsplit])

theorem exists_rank_of_alpha? {t rest : Text} {alpha : Binary32}
    (h : alpha? t = some (alpha, rest)) : ∃ rank, alpha = .number false rank := by
  simp only [alpha?] at h
  split at h
  · split at h
    · cases h
    · cases h
      exact ⟨_, rfl⟩
  · split at h
    · cases h
    · cases h
      exact ⟨_, rfl⟩

theorem proper_of_function? {t : Text} {color : Color} (h : function? t = some color) :
    color.Proper := by
  simp only [function?, Option.bind_eq_bind, Option.bind_eq_some_iff] at h
  obtain ⟨rest, -, ⟨red, rest⟩, -, rest, -, ⟨green, rest⟩, -, rest, -, ⟨blue, rest⟩, -, h⟩ := h
  split at h
  · cases h
    exact proper_solid red green blue
  · obtain ⟨⟨alpha, rest⟩, halpha, h⟩ := Option.bind_eq_some_iff.mp h
    split at h
    · rename_i hcheck
      cases h
      obtain ⟨rank, rfl⟩ := exists_rank_of_alpha? halpha
      simp only [Bool.and_eq_true, Bool.not_eq_true'] at hcheck
      exact Binary.share_of_not_less hcheck.2
    · cases h
  · cases h

theorem proper_of_ofText? {t : Text} {color : Color} (h : ofText? t = some color) :
    color.Proper := by
  simp only [ofText?] at h
  split at h
  · exact proper_of_hex? h
  · rcases Option.or_eq_some_iff.mp h with h | ⟨-, h⟩
    · exact proper_of_named? h
    · exact proper_of_function? h

theorem channel?_decimal (n : UInt8) {rest : Text} (h : ∀ c ∈ rest.head?, c.isDigit = false) :
    channel? (Text.decimal n.toNat ++ rest) = some (n, rest) := by
  have hplain := Text.plain_decimal n.toNat
  have hlt := n.toNat_lt
  have hlength : (Text.decimal n.toNat).length ≤ 3 :=
    (Nat.length_toDigits_le_iff (by decide) (by decide)).mpr (by omega)
  simp only [channel?, Text.takeWhile_append_of_head hplain.digits h,
    Text.dropWhile_append_of_head hplain.digits h, Text.decimalValue_decimal]
  rw [if_neg, UInt8.ofNat_toNat]
  simp only [Bool.or_eq_true, decide_eq_true_eq, List.isEmpty_iff, not_or]
  exact ⟨⟨hplain.ne_nil, by omega⟩, by omega⟩

theorem comma?_plain {t : Text} (ht : Text.Plain t) (rest : Text) :
    comma? (',' :: ' ' :: (t ++ rest)) = some (t ++ rest) := by
  rw [comma?, Text.trimStart_cons (by decide)]
  exact congrArg some (Text.trimStart_space_plain ht rest)

theorem alpha?_spelled {rank : Nat} {whole fraction : Text}
    (h : Spelling .binary32 rank whole fraction) :
    alpha? (spelled whole fraction ++ [')']) = some (.number false rank, [')']) := by
  have hclose : ∀ c ∈ ([')'] : Text).head?, c.isDigit = false := by simp
  have hreads := h.reads false
  rw [spelled]
  split
  · rename_i hempty
    rw [List.isEmpty_iff.mp hempty, List.append_nil] at hreads
    have hwhole : List.isEmpty whole = false := by simp [h.plain.ne_nil]
    rw [List.append_nil]
    simp only [alpha?, Text.takeWhile_append_of_head h.plain.digits hclose,
      Text.dropWhile_append_of_head h.plain.digits hclose, hwhole]
    exact congrArg (fun x => some (x, [')'])) hreads
  · rename_i hfraction
    have hpoint : ∀ c ∈ (('.' :: (fraction ++ [')']) : Text)).head?, c.isDigit = false := by simp
    rw [List.append_assoc, List.cons_append]
    simp only [alpha?, Text.takeWhile_append_of_head h.plain.digits hpoint,
      Text.dropWhile_append_of_head h.plain.digits hpoint,
      Text.takeWhile_append_of_head h.digits hclose,
      Text.dropWhile_append_of_head h.digits hclose, hreads]
    rw [if_neg hfraction]

/-- The text of a proper color, argument by argument. -/
theorem exists_text_eq {color : Color} (h : color.Proper) : ∃ rank whole fraction,
    color.alpha = .number false rank ∧ Spelling .binary32 rank whole fraction ∧
      color.text = "rgb(".toList ++ (Text.decimal color.red.toNat ++ ',' :: ' ' ::
        (Text.decimal color.green.toNat ++ ',' :: ' ' ::
          (Text.decimal color.blue.toNat ++ ',' :: ' ' ::
            (spelled whole fraction ++ [')'])))) := by
  obtain ⟨rank, halpha, hrank⟩ := h.exists_rank
  obtain ⟨whole, fraction, htext, hspelling⟩ :=
    exists_spelling (f := .binary32) (by decide) (Nat.le_of_lt hrank)
  have hnumber : color.alpha.text = spelled whole fraction := by
    simp [halpha, Binary.text, Nat.ne_of_lt hrank, htext]
  refine ⟨rank, whole, fraction, halpha, hspelling, ?_⟩
  simp [text, Text.join, hnumber]

theorem function?_text {color : Color} (h : color.Proper) :
    function? color.text = some color := by
  obtain ⟨rank, whole, fraction, halpha, hspelling, htext⟩ := exists_text_eq h
  have hcomma (t : Text) : ∀ c ∈ ((',' :: t : Text)).head?, c.isDigit = false := by simp
  have hless : Binary.one.less (.number false rank : Binary32) = false := halpha ▸ h.not_less
  have hspace : Text.trimStart (' ' :: (spelled whole fraction ++ [')'])) =
      spelled whole fraction ++ [')'] := by
    rw [spelled, List.append_assoc]
    exact Text.trimStart_space_plain hspelling.plain _
  simp only [function?, htext, Text.after?_append, Option.some_or, Option.bind_eq_bind,
    Option.bind_some, Text.trimStart_plain (Text.plain_decimal _), channel?_decimal _ (hcomma _),
    comma?_plain (Text.plain_decimal _), Text.trimStart_cons (c := ',') (by decide), hspace,
    alpha?_spelled hspelling, Text.trimStart_cons (c := ')') (by decide), hless]
  simp [← halpha, solid]

theorem named?_text {color : Color} (h : color.Proper) : named? color.text = none := by
  have hnames : ∀ entry ∈ names, '(' ∉ entry.1 := by decide
  obtain ⟨rank, whole, fraction, -, -, htext⟩ := exists_text_eq h
  rw [named?, List.lookup_eq_none_iff]
  intro entry hentry
  have hmem : '(' ∈ color.text.map lowerLatin := by
    rw [htext]
    simp [lowerLatin]
  simp only [bne_iff_ne, ne_eq]
  intro heq
  exact hnames entry hentry (heq ▸ hmem)

theorem trimmed_text (color : Color) : Text.Trimmed color.text := by
  constructor
  · intro c hc
    cases hc
    decide
  · intro c hc
    rw [text, List.getLast?_concat] at hc
    cases hc
    decide

theorem ofText?_text {color : Color} (h : color.Proper) : ofText? color.text = some color := by
  obtain ⟨rank, whole, fraction, -, -, htext⟩ := exists_text_eq h
  rw [ofText?, color.trimmed_text.trim_eq]
  split
  · rename_i heq
    rw [htext] at heq
    cases heq
  · rw [named?_text h, Option.none_or, function?_text h]

/-- A color that was read, in whichever of its spellings, is written as a function of whole numbers
and an alpha of plain digits, without an exponent. That text is read as the color it was written
for, and the alpha is the same number and not only near it. -/
theorem ofText?_text_of_ofText? {t : Text} {color : Color} (h : ofText? t = some color) :
    ofText? color.text = some color ∧
    ∃ rank whole fraction, color.alpha = .number false rank ∧
      Spelling .binary32 rank whole fraction ∧
      color.text = "rgb(".toList ++ (Text.decimal color.red.toNat ++ ',' :: ' ' ::
        (Text.decimal color.green.toNat ++ ',' :: ' ' ::
          (Text.decimal color.blue.toNat ++ ',' :: ' ' ::
            (spelled whole fraction ++ [')'])))) := by
  have hproper := proper_of_ofText? h
  exact ⟨ofText?_text hproper, exists_text_eq hproper⟩

/-- A name, hexadecimal digits whose alpha no decimal of few digits is equal to, and an alpha that
rounds up to the least positive number. -/
theorem ofText?_text_of_ofText?_spellings :
    ofText? "\tGRaY".toList = some (solid 128 128 128) ∧
    ofText? (solid 128 128 128).text = some (solid 128 128 128) ∧
    ofText? "#fF800080".toList = some { solid 255 128 0 with alpha := .ofRatio false 128 255 } ∧
    ofText? (Color.text { solid 255 128 0 with alpha := .ofRatio false 128 255 }) =
      some { solid 255 128 0 with alpha := .ofRatio false 128 255 } ∧
    ofText? "rgba( 1,2,3 ,.0000000000000000000000000000000000000000000007006493 )".toList =
      some { solid 1 2 3 with alpha := .number false 1 } ∧
    ofText? (Color.text { solid 1 2 3 with alpha := .number false 1 }) =
      some { solid 1 2 3 with alpha := .number false 1 } := by
  have name : ofText? "\tGRaY".toList = some (solid 128 128 128) := by decide +kernel
  have digits : ofText? "#fF800080".toList =
      some { solid 255 128 0 with alpha := .ofRatio false 128 255 } := by decide +kernel
  have faint :
      ofText? "rgba( 1,2,3 ,.0000000000000000000000000000000000000000000007006493 )".toList =
        some { solid 1 2 3 with alpha := .number false 1 } := by decide +kernel
  exact ⟨name, (ofText?_text_of_ofText? name).1, digits, (ofText?_text_of_ofText? digits).1, faint,
    (ofText?_text_of_ofText? faint).1⟩

end Color

end Checklist
