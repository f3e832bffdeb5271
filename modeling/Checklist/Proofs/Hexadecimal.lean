import Checklist.Config.Reader

namespace Checklist

namespace Text

/-- The digit of a value below sixteen, a letter in either case. -/
def HexDigit (c : Char) (value : Nat) : Prop :=
  "0123456789abcdef".toList[value]? = some c ∨ "0123456789ABCDEF".toList[value]? = some c

instance (c : Char) (value : Nat) : Decidable (HexDigit c value) :=
  inferInstanceAs (Decidable (_ ∨ _))

/-- Hexadecimal digits two by two, and the byte that each two of them are. -/
inductive HexBytes : Text → List UInt8 → Prop where
  | nil : HexBytes [] []
  | cons {c d : Char} {m n : Nat} {t : Text} {bytes : List UInt8} (high : HexDigit c m)
      (low : HexDigit d n) (rest : HexBytes t bytes) :
      HexBytes (c :: d :: t) (UInt8.ofNat (16 * m + n) :: bytes)

section Digit

variable {c : Char} {value : Nat}

theorem HexDigit.hexValue?_eq (h : HexDigit c value) : hexValue? c = some value := by
  have hlower : ∀ value < 16, ("0123456789abcdef".toList[value]?).bind hexValue? = some value := by
    decide
  have hupper : ∀ value < 16, ("0123456789ABCDEF".toList[value]?).bind hexValue? = some value := by
    decide
  rcases h with h | h
  · have hvalue := hlower value (List.getElem?_eq_some_iff.mp h).1
    rwa [h, Option.bind_some] at hvalue
  · have hvalue := hupper value (List.getElem?_eq_some_iff.mp h).1
    rwa [h, Option.bind_some] at hvalue

theorem lt_of_hexValue? (h : hexValue? c = some value) : c.toNat < 103 := by
  have hnine : '9'.toNat = 57 := rfl
  have hlower : 'f'.toNat = 102 := rfl
  have hupper : 'F'.toNat = 70 := rfl
  simp only [hexValue?, Char.isDigit, Bool.and_eq_true, decide_eq_true_eq] at h
  split at h
  · rename_i hrange
    have hlast : c.toNat ≤ '9'.toNat := hrange.2
    omega
  · split at h
    · rename_i hrange
      have hlast : c.toNat ≤ 'f'.toNat := hrange.2
      omega
    · split at h
      · rename_i hrange
        have hlast : c.toNat ≤ 'F'.toNat := hrange.2
        omega
      · cases h

theorem hexDigit_of_hexValue? (h : hexValue? c = some value) : HexDigit c value := by
  have hall : ∀ n < 103, ∀ value ∈ hexValue? (Char.ofNat n), HexDigit (Char.ofNat n) value := by
    decide
  have hdigit := hall c.toNat (lt_of_hexValue? h)
  rw [Char.ofNat_toNat] at hdigit
  exact hdigit value h

theorem hexValue?_eq_some_iff : hexValue? c = some value ↔ HexDigit c value :=
  ⟨hexDigit_of_hexValue?, HexDigit.hexValue?_eq⟩

end Digit

section Bytes

variable {t : Text} {bytes : List UInt8} {n : Nat}

theorem HexBytes.length_eq (h : HexBytes t bytes) : t.length = 2 * bytes.length := by
  induction h with
  | nil => rfl
  | cons high low rest ih =>
    simp only [List.length_cons, ih]
    omega

theorem HexBytes.hexDigit (h : HexBytes t bytes) : ∀ c ∈ t, ∃ value, HexDigit c value := by
  induction h with
  | nil => simp
  | cons high low rest ih =>
    simp only [List.mem_cons, forall_eq_or_imp]
    exact ⟨⟨_, high⟩, ⟨_, low⟩, ih⟩

theorem exists_hexBytes (hlength : t.length = 2 * n) (hall : ∀ c ∈ t, ∃ value, HexDigit c value) :
    ∃ bytes, HexBytes t bytes ∧ bytes.length = n := by
  induction n generalizing t with
  | zero =>
    rw [List.eq_nil_of_length_eq_zero hlength]
    exact ⟨[], .nil, rfl⟩
  | succ n ih =>
    match t, hlength, hall with
    | c :: d :: t, hlength, hall =>
      simp only [List.mem_cons, forall_eq_or_imp] at hall
      obtain ⟨⟨_, high⟩, ⟨_, low⟩, hrest⟩ := hall
      simp only [List.length_cons] at hlength
      obtain ⟨bytes, hbytes, hcount⟩ := ih (by omega) hrest
      exact ⟨_, .cons high low hbytes, congrArg (· + 1) hcount⟩

theorem exists_hexBytes_iff : (∃ bytes, HexBytes t bytes ∧ bytes.length = n) ↔
    t.length = 2 * n ∧ ∀ c ∈ t, ∃ value, HexDigit c value := by
  constructor
  · intro ⟨bytes, h, hcount⟩
    exact ⟨hcount ▸ h.length_eq, h.hexDigit⟩
  · intro ⟨hlength, hall⟩
    exact exists_hexBytes hlength hall

end Bytes

end Text

namespace Color
open Text

/-- Three bytes of digits for the channels, and perhaps a fourth one for an alpha that counts in
shares of 255. -/
inductive HexColor (digits : Text) : Color → Prop where
  | solid {red green blue : UInt8} (bytes : HexBytes digits [red, green, blue]) :
      HexColor digits (solid red green blue)
  | covering {red green blue cover : UInt8}
      (bytes : HexBytes digits [red, green, blue, cover]) :
      HexColor digits { Color.solid red green blue with alpha := .ofRatio false cover.toNat 255 }

/-- Every two characters with a zero for a plus sign that comes first of them. -/
def plusAsZero : Text → Text
  | c :: d :: t => (if c = '+' then '0' else c) :: d :: plusAsZero t
  | t => t

variable {t digits : Text} {color : Color} {byte : UInt8} {bytes : List UInt8}

theorem exists_hexColor_iff : (∃ color, HexColor digits color) ↔
    (digits.length = 6 ∨ digits.length = 8) ∧ ∀ c ∈ digits, ∃ value, HexDigit c value := by
  rw [or_and_right, ← exists_hexBytes_iff (n := 3), ← exists_hexBytes_iff (n := 4)]
  constructor
  · rintro ⟨color, h⟩
    cases h with
    | solid bytes => exact .inl ⟨_, bytes, rfl⟩
    | covering bytes => exact .inr ⟨_, bytes, rfl⟩
  · rintro (⟨bytes, hbytes, hlength⟩ | ⟨bytes, hbytes, hlength⟩)
    · match bytes, hlength with
      | [red, green, blue], _ => exact ⟨_, .solid hbytes⟩
    · match bytes, hlength with
      | [red, green, blue, cover], _ => exact ⟨_, .covering hbytes⟩

theorem plusAsZero_of_not_mem (h : '+' ∉ digits) : plusAsZero digits = digits := by
  fun_induction plusAsZero digits with
  | case1 c d t ih =>
    simp only [List.mem_cons, not_or] at h
    obtain ⟨hc, -, ht⟩ := h
    rw [if_neg (Ne.symm hc), ih ht]
  | case2 => rfl

/-- A plus sign before a digit reads as a zero before it. -/
theorem hexPair?_eq_some_iff {c d : Char} : hexPair? c d = some byte ↔
    ∃ m n, HexDigit (if c = '+' then '0' else c) m ∧ HexDigit d n ∧
      UInt8.ofNat (16 * m + n) = byte := by
  simp only [← hexValue?_eq_some_iff]
  constructor
  · intro h
    obtain ⟨n, hn, h⟩ := Option.bind_eq_some_iff.mp h
    split at h
    · rename_i hplus
      refine ⟨0, n, by rw [if_pos hplus]; rfl, hn, ?_⟩
      simpa using h
    · rename_i hplus
      obtain ⟨m, hm, h⟩ := Option.bind_eq_some_iff.mp h
      exact ⟨m, n, by rwa [if_neg hplus], hn, Option.some.inj h⟩
  · rintro ⟨m, n, hm, hn, rfl⟩
    split at hm
    · rename_i hplus
      cases hm
      simp [hexPair?, hn, hplus]
    · rename_i hplus
      simp [hexPair?, hm, hn, hplus]

theorem hexBytes_of_pair {c d : Char} (h : hexPair? c d = some byte)
    (rest : HexBytes (plusAsZero t) bytes) :
    HexBytes (plusAsZero (c :: d :: t)) (byte :: bytes) := by
  obtain ⟨m, n, high, low, rfl⟩ := hexPair?_eq_some_iff.mp h
  exact .cons high low rest

theorem eq_nil_of_hexBytes (h : HexBytes (plusAsZero t) []) : t = [] := by
  rcases t with _ | ⟨c, _ | ⟨d, t⟩⟩
  · rfl
  · cases h
  · cases h

theorem exists_pair_of_hexBytes (h : HexBytes (plusAsZero t) (byte :: bytes)) :
    ∃ c d rest, t = c :: d :: rest ∧ hexPair? c d = some byte ∧
      HexBytes (plusAsZero rest) bytes := by
  rcases t with _ | ⟨c, _ | ⟨d, t⟩⟩
  · cases h
  · cases h
  · cases h with
    | cons high low rest =>
      exact ⟨c, d, t, rfl, hexPair?_eq_some_iff.mpr ⟨_, _, high, low, rfl⟩, rest⟩

theorem hex?_eq_some_iff : hex? digits = some color ↔ HexColor (plusAsZero digits) color := by
  constructor
  · intro h
    unfold hex? at h
    split at h
    · obtain ⟨red, hred, h⟩ := Option.bind_eq_some_iff.mp h
      obtain ⟨green, hgreen, h⟩ := Option.bind_eq_some_iff.mp h
      obtain ⟨blue, hblue, h⟩ := Option.bind_eq_some_iff.mp h
      cases h
      exact .solid (hexBytes_of_pair hred (hexBytes_of_pair hgreen (hexBytes_of_pair hblue .nil)))
    · obtain ⟨red, hred, h⟩ := Option.bind_eq_some_iff.mp h
      obtain ⟨green, hgreen, h⟩ := Option.bind_eq_some_iff.mp h
      obtain ⟨blue, hblue, h⟩ := Option.bind_eq_some_iff.mp h
      obtain ⟨cover, hcover, h⟩ := Option.bind_eq_some_iff.mp h
      cases h
      exact .covering (hexBytes_of_pair hred (hexBytes_of_pair hgreen
        (hexBytes_of_pair hblue (hexBytes_of_pair hcover .nil))))
    · cases h
  · intro h
    cases h with
    | solid bytes =>
      obtain ⟨r, r', _, rfl, hred, bytes⟩ := exists_pair_of_hexBytes bytes
      obtain ⟨g, g', _, rfl, hgreen, bytes⟩ := exists_pair_of_hexBytes bytes
      obtain ⟨b, b', _, rfl, hblue, bytes⟩ := exists_pair_of_hexBytes bytes
      cases eq_nil_of_hexBytes bytes
      simp [hex?, hred, hgreen, hblue]
    | covering bytes =>
      obtain ⟨r, r', _, rfl, hred, bytes⟩ := exists_pair_of_hexBytes bytes
      obtain ⟨g, g', _, rfl, hgreen, bytes⟩ := exists_pair_of_hexBytes bytes
      obtain ⟨b, b', _, rfl, hblue, bytes⟩ := exists_pair_of_hexBytes bytes
      obtain ⟨a, a', _, rfl, hcover, bytes⟩ := exists_pair_of_hexBytes bytes
      cases eq_nil_of_hexBytes bytes
      simp [hex?, hred, hgreen, hblue, hcover]

theorem ofText?_of_numberSign (h : trim t = '#' :: digits) : ofText? t = hex? digits := by
  rw [ofText?, h]
  rfl

/-- After a number sign, where no plus sign follows, six or eight hexadecimal digits are a color and
nothing else is. Where one follows the same holds once each that comes first of two characters has
given way to a zero. A text that is then no color is an error that names it without the white space
around it. -/
theorem ofText?_numberSign (h : trim t = '#' :: digits) :
    ('+' ∉ digits →
      ((∃ color, ofText? t = some color) ↔
        (digits.length = 6 ∨ digits.length = 8) ∧ ∀ c ∈ digits, ∃ value, HexDigit c value) ∧
      ∀ color, ofText? t = some color ↔ HexColor digits color) ∧
    (∀ color, ofText? t = some color ↔ HexColor (plusAsZero digits) color) ∧
    ((∀ color, ¬ HexColor (plusAsZero digits) color) →
      (Toml.Value.string t).asColor = .error (.invalidColor (trim t))) := by
  have hreads (color : Color) : ofText? t = some color ↔ HexColor (plusAsZero digits) color := by
    rw [ofText?_of_numberSign h, hex?_eq_some_iff]
  refine ⟨?_, hreads, ?_⟩
  · intro hplus
    rw [plusAsZero_of_not_mem hplus] at hreads
    refine ⟨?_, hreads⟩
    rw [← exists_hexColor_iff]
    exact exists_congr hreads
  · intro hnone
    have hread : ofText? t = none := by
      rw [Option.eq_none_iff_forall_ne_some]
      intro color hcolor
      exact hnone color ((hreads color).mp hcolor)
    simp only [Toml.Value.asColor, Toml.Value.asText, bind, Except.bind, hread]

/-- White space and letters of both cases; and a text whose digits are one short, although its bytes
are not. -/
theorem ofText?_numberSign_covering :
    trim " #fF800080\n".toList = '#' :: "fF800080".toList ∧ '+' ∉ "fF800080".toList ∧
    ofText? " #fF800080\n".toList = some { solid 255 128 0 with alpha := .ofRatio false 128 255 } ∧
    trim "\t#1234é".toList = '#' :: "1234é".toList ∧
    (∀ color, ¬ HexColor (plusAsZero "1234é".toList) color) ∧
    (Toml.Value.string "\t#1234é".toList).asColor = .error (.invalidColor "#1234é".toList) := by
  have bytes : HexBytes "fF800080".toList [255, 128, 0, 128] :=
    .cons (m := 15) (n := 15) (by decide) (by decide) <|
      .cons (m := 8) (n := 0) (by decide) (by decide) <|
      .cons (m := 0) (n := 0) (by decide) (by decide) <|
      .cons (m := 8) (n := 0) (by decide) (by decide) .nil
  have covering : HexColor "fF800080".toList
      { solid 255 128 0 with alpha := .ofRatio false 128 255 } := by
    simpa using HexColor.covering bytes
  have short : ∀ color, ¬ HexColor (plusAsZero "1234é".toList) color := by
    intro color h
    have hlength := (exists_hexColor_iff.mp ⟨color, h⟩).1
    exact absurd hlength (by decide)
  obtain ⟨hplain, -, -⟩ := ofText?_numberSign (t := " #fF800080\n".toList) rfl
  obtain ⟨-, -, hrefused⟩ := ofText?_numberSign (t := "\t#1234é".toList) rfl
  exact ⟨rfl, by decide, ((hplain (by decide)).2 _).mpr covering, rfl, short, hrefused short⟩

/-- Not only digits are read after a number sign: three of them, each after a plus sign, are a
color. -/
theorem not_ofText?_numberSign :
    ¬ ∀ t digits, trim t = '#' :: digits →
      ((∃ color, ofText? t = some color) ↔
        (digits.length = 6 ∨ digits.length = 8) ∧ ∀ c ∈ digits, ∃ value, HexDigit c value) := by
  intro h
  obtain ⟨-, hdigits⟩ := (h "#+f+f+f".toList "+f+f+f".toList rfl).mp ⟨solid 15 15 15, rfl⟩
  obtain ⟨value, hplus⟩ := hdigits '+' (by decide)
  have hnone : hexValue? '+' = none := rfl
  rw [hplus.hexValue?_eq] at hnone
  cases hnone

end Color

end Checklist
