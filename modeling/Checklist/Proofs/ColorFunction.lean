import Checklist.Config.Reader
import Checklist.Proofs.ColorText

namespace Checklist
open Text

namespace Binary

variable {f : BinaryFormat} {n d : Nat} {x : Binary f}

/-- No number of the format is nearer to the fraction `n / d`, and halfway between two it is the one
of even rank. -/
def Nearest (n d : Nat) (x : Binary f) : Prop :=
  ∃ rank, x = number false rank ∧ f.Owned rank (n * 2 ^ f.scale) d

/-- Rounding finds the nearest number, except that it stops at infinity, which is above one. -/
theorem nearest_iff {x : Binary32} (hd : 0 < d) (hx : one.less x = false) :
    Nearest n d x ↔ ofRatio false n d = x := by
  constructor
  · rintro ⟨rank, rfl, howned⟩
    obtain ⟨_, hrank, hlt⟩ := (share_of_not_less hx).exists_rank
    cases hrank
    have hnearest := howned.nearest_eq (by decide) hd
    rw [Nat.min_eq_right (Nat.le_of_lt hlt)] at hnearest
    exact congrArg (number false) hnearest
  · rintro rfl
    obtain ⟨_, hrank, hlt⟩ := (share_of_not_less hx).exists_rank
    cases hrank
    refine ⟨_, rfl, ?_⟩
    rw [Nat.pow_eq, BinaryFormat.nearest_eq] at hlt ⊢
    rw [Nat.min_eq_right (by omega)]
    exact BinaryFormat.owned_rounded (by decide) _ hd

end Binary

namespace Text

theorem digits_takeWhile (t : Text) : Digits (t.takeWhile Char.isDigit) :=
  List.all_eq_true.mp List.all_takeWhile

theorem after?_eq_some_iff {start t rest : Text} :
    after? start t = some rest ↔ t = start ++ rest := by
  rw [after?, Option.ite_none_right_eq_some, List.isPrefixOf_iff_prefix, Option.some.injEq]
  constructor
  · rintro ⟨⟨rest, rfl⟩, hrest⟩
    rw [List.drop_left] at hrest
    rw [hrest]
  · rintro rfl
    exact ⟨List.prefix_append _ _, List.drop_left⟩

theorem Digits.exists_cons {digits : Text} (h : Digits digits) (hne : digits ≠ []) :
    ∃ c t, digits = c :: t ∧ isWhite c = false := by
  obtain ⟨c, t, rfl⟩ := List.exists_cons_of_ne_nil hne
  exact ⟨c, t, rfl, isWhite_of_isDigit (h c List.mem_cons_self)⟩

end Text

namespace Color

/-- One to three digits of a value below 256. -/
structure ChannelText (t : Text) (channel : UInt8) : Prop where
  digits : Digits t
  ne_nil : t ≠ []
  short : t.length ≤ 3
  value : decimalValue t = channel.toNat

/-- Digits, of which the last ones may stand after a point, and their value `n / d`. -/
inductive FractionText : Text → Nat → Nat → Prop where
  | whole {digits : Text} (all : Digits digits) (ne_nil : digits ≠ []) :
      FractionText digits (decimalValue digits) 1
  | pointed {whole fraction : Text} (before : Digits whole) (after : Digits fraction)
      (ne_nil : fraction ≠ []) :
      FractionText (whole ++ '.' :: fraction) (decimalValue (whole ++ fraction))
        (10 ^ fraction.length)

/-- A fraction that rounds to a number of at most one. -/
structure AlphaText (t : Text) (alpha : Binary32) : Prop where
  fraction : ∃ n d, FractionText t n d ∧ alpha.Nearest n d
  atMostOne : Binary.one.less alpha = false

/-- What spells an argument, with white space around it. -/
def ArgumentText (Spells : Text → α → Prop) (t : Text) (a : α) : Prop :=
  ∃ before core after, White before ∧ White after ∧ Spells core a ∧ t = before ++ core ++ after

/-- What a color as a function starts with. -/
def functionNames : List Text :=
  ["rgb(".toList, "rgba(".toList]

/-- Three channels and perhaps an alpha as the arguments of `rgb` or `rgba`, with commas between
them. -/
inductive FunctionText : Text → Color → Prop where
  | solid {name r g b : Text} {red green blue : UInt8} (named : name ∈ functionNames)
      (hr : ArgumentText ChannelText r red) (hg : ArgumentText ChannelText g green)
      (hb : ArgumentText ChannelText b blue) :
      FunctionText (name ++ join [','] [r, g, b] ++ [')']) (solid red green blue)
  | covering {name r g b a : Text} {red green blue : UInt8} {alpha : Binary32}
      (named : name ∈ functionNames) (hr : ArgumentText ChannelText r red)
      (hg : ArgumentText ChannelText g green) (hb : ArgumentText ChannelText b blue)
      (ha : ArgumentText AlphaText a alpha) :
      FunctionText (name ++ join [','] [r, g, b, a] ++ [')'])
        { Color.solid red green blue with alpha }

/-- No part of a number, so that one ends before it. -/
def EndsNumber (c : Char) : Prop :=
  c.isDigit = false ∧ c ≠ '.'

theorem endsNumber_of_isWhite {c : Char} (h : isWhite c = true) : EndsNumber c := by
  constructor
  · by_contra hdigit
    rw [isWhite_of_isDigit (Bool.eq_true_of_not_eq_false hdigit)] at h
    cases h
  · rintro rfl
    cases h

/-- What can stand after an argument and the white space behind it. -/
structure Closes (c : Char) : Prop where
  visible : isWhite c = false
  ends : EndsNumber c

theorem closes_comma : Closes ',' :=
  ⟨by decide, by decide, by decide⟩

theorem closes_bracket : Closes ')' :=
  ⟨by decide, by decide, by decide⟩

/-- What the reader takes off the front of a text spells something, and all that does is taken as a
whole if a number ends there. -/
structure Takes (read : Text → Option (α × Text)) (Spells : Text → α → Prop) : Prop where
  sound : ∀ {t rest : Text} {a : α}, read t = some (a, rest) →
    ∃ core, Spells core a ∧ t = core ++ rest
  complete : ∀ {core rest : Text} {a : α}, Spells core a → (∀ c ∈ rest.head?, EndsNumber c) →
    read (core ++ rest) = some (a, rest)
  visible : ∀ {core : Text} {a : α}, Spells core a → ∃ c t, core = c :: t ∧ isWhite c = false

/-- What a fraction is read as, before it is known to be at most one. -/
def Rounds (t : Text) (x : Binary32) : Prop :=
  ∃ n d, FractionText t n d ∧ .ofRatio false n d = x

theorem takes_channel : Takes channel? ChannelText where
  sound {t rest channel} h := by
    simp only [channel?] at h
    split at h
    · cases h
    · rename_i hcheck
      cases h
      simp only [Bool.or_eq_true, List.isEmpty_iff, decide_eq_true_eq, not_or, Nat.not_lt] at hcheck
      obtain ⟨⟨hne, hshort⟩, hvalue⟩ := hcheck
      refine ⟨_, ⟨digits_takeWhile t, hne, hshort, ?_⟩, List.takeWhile_append_dropWhile.symm⟩
      rw [UInt8.toNat_ofNat_of_lt' (Nat.lt_succ_of_le hvalue)]
  complete {core rest channel} h hrest := by
    have hstop : ∀ c ∈ rest.head?, c.isDigit = false := fun c hc => (hrest c hc).1
    have hlt := channel.toNat_lt
    simp only [channel?, takeWhile_append_of_head h.digits hstop,
      dropWhile_append_of_head h.digits hstop, h.value]
    rw [if_neg, UInt8.ofNat_toNat]
    simp only [Bool.or_eq_true, List.isEmpty_iff, decide_eq_true_eq, not_or, Nat.not_lt]
    exact ⟨⟨h.ne_nil, h.short⟩, Nat.le_of_lt_succ hlt⟩
  visible h := h.digits.exists_cons h.ne_nil

theorem ofDecimal_places (n places : Nat) :
    (Binary.ofDecimal false n (-places) : Binary32) = .ofRatio false n (10 ^ places) := by
  have hexp : (-(places : Int)).toNat = 0 := by omega
  rw [Binary.ofDecimal, hexp, Int.neg_neg, Int.toNat_natCast]
  simp

theorem takes_alpha : Takes alpha? Rounds where
  sound {t rest alpha} h := by
    have hsplit : t = t.takeWhile Char.isDigit ++ t.dropWhile Char.isDigit :=
      List.takeWhile_append_dropWhile.symm
    simp only [alpha?] at h
    split at h
    · rename_i tail hpoint
      split at h
      · cases h
      · rename_i hne
        cases h
        have hfraction := FractionText.pointed (digits_takeWhile t) (digits_takeWhile tail)
          (by simpa using hne)
        refine ⟨_, ⟨_, _, hfraction, (ofDecimal_places _ _).symm⟩, ?_⟩
        rw [List.append_assoc, List.cons_append, List.takeWhile_append_dropWhile, ← hpoint]
        exact hsplit
    · split at h
      · cases h
      · rename_i hne
        cases h
        have hfraction := FractionText.whole (digits_takeWhile t) (by simpa using hne)
        exact ⟨_, ⟨_, _, hfraction, (ofDecimal_places _ 0).symm⟩, hsplit⟩
  complete {core rest alpha} h hrest := by
    have hstop : ∀ c ∈ rest.head?, c.isDigit = false := fun c hc => (hrest c hc).1
    obtain ⟨n, d, hfraction, rfl⟩ := h
    cases hfraction with
    | whole all ne_nil =>
      simp only [alpha?, takeWhile_append_of_head all hstop, dropWhile_append_of_head all hstop]
      split
      · rename_i tail
        exact absurd rfl (hrest '.' rfl).2
      · rw [if_neg (by simpa using ne_nil)]
        exact congrArg (fun x => some (x, rest)) (ofDecimal_places _ 0)
    | @pointed whole fraction before after ne_nil =>
      have hpoint : ∀ c ∈ (('.' :: (fraction ++ rest)) : Text).head?, c.isDigit = false := by simp
      rw [List.append_assoc, List.cons_append]
      simp only [alpha?, takeWhile_append_of_head before hpoint,
        dropWhile_append_of_head before hpoint, takeWhile_append_of_head after hstop,
        dropWhile_append_of_head after hstop]
      rw [if_neg (by simpa using ne_nil), ofDecimal_places]
  visible h := by
    obtain ⟨n, d, hfraction, -⟩ := h
    cases hfraction with
    | whole all ne_nil => exact all.exists_cons ne_nil
    | @pointed whole fraction before after ne_nil =>
      by_cases hw : whole = []
      · rw [hw]
        exact ⟨'.', fraction, rfl, by decide⟩
      · obtain ⟨c, t, rfl, hc⟩ := before.exists_cons hw
        exact ⟨c, _, rfl, hc⟩

theorem alphaText_iff {t : Text} {alpha : Binary32} :
    AlphaText t alpha ↔ Rounds t alpha ∧ Binary.one.less alpha = false := by
  have hpos {n d : Nat} (h : FractionText t n d) : 0 < d := by
    cases h with
    | whole => exact Nat.one_pos
    | pointed => exact Nat.pow_pos (by decide)
  constructor
  · rintro ⟨⟨n, d, hfraction, hnearest⟩, hless⟩
    exact ⟨⟨n, d, hfraction, (Binary.nearest_iff (hpos hfraction) hless).mp hnearest⟩, hless⟩
  · rintro ⟨⟨n, d, hfraction, hrounds⟩, hless⟩
    exact ⟨⟨n, d, hfraction, (Binary.nearest_iff (hpos hfraction) hless).mpr hrounds⟩, hless⟩

section Arguments

variable {read : Text → Option (α × Text)} {Spells Spells' : Text → α → Prop} {t rest u : Text}
  {a : α}

theorem ArgumentText.imp (h : ArgumentText Spells t a)
    (himp : ∀ core, Spells core a → Spells' core a) : ArgumentText Spells' t a := by
  obtain ⟨before, core, after, hbefore, hafter, hcore, ht⟩ := h
  exact ⟨before, core, after, hbefore, hafter, himp core hcore, ht⟩

theorem exists_argument (takes : Takes read Spells) (h : read (trimStart t) = some (a, rest)) :
    ∃ argument, ArgumentText Spells argument a ∧ t = argument ++ trimStart rest := by
  obtain ⟨before, hbefore, ht⟩ := exists_trimStart t
  obtain ⟨core, hcore, hread⟩ := takes.sound h
  obtain ⟨after, hafter, hrest⟩ := exists_trimStart rest
  refine ⟨before ++ core ++ after, ⟨before, core, after, hbefore, hafter, hcore, rfl⟩, ?_⟩
  rw [List.append_assoc, ← hrest, List.append_assoc, ← hread]
  exact ht

/-- An argument is read up to what closes it. -/
theorem read_argument (takes : Takes read Spells) {argument : Text}
    (h : ArgumentText Spells argument a) {c : Char} (hc : Closes c) :
    ∃ rest, read (trimStart (argument ++ c :: u)) = some (a, rest) ∧ trimStart rest = c :: u := by
  obtain ⟨before, core, after, hbefore, hafter, hcore, rfl⟩ := h
  obtain ⟨d, core', rfl, hd⟩ := takes.visible hcore
  refine ⟨after ++ c :: u, ?_, ?_⟩
  · rw [List.append_assoc, List.append_assoc, trimStart_append hbefore, List.cons_append,
      trimStart_cons hd, ← List.cons_append]
    apply takes.complete hcore
    intro e he
    cases after with
    | nil =>
      cases he
      exact hc.ends
    | cons w after =>
      cases he
      exact endsNumber_of_isWhite (hafter e List.mem_cons_self)
  · rw [trimStart_append hafter, trimStart_cons hc.visible]

theorem exists_comma (h : comma? t = some u) :
    ∃ next, trimStart t = ',' :: next ∧ trimStart next = u := by
  unfold comma? at h
  split at h
  · rename_i next hnext
    exact ⟨next, hnext, Option.some.inj h⟩
  · cases h

theorem comma?_of_trimStart (h : trimStart t = ',' :: u) : comma? t = some (trimStart u) := by
  simp only [comma?, h]

end Arguments

theorem exists_name {t rest : Text}
    (h : (after? "rgb(".toList t).or (after? "rgba(".toList t) = some rest) :
    ∃ name ∈ functionNames, t = name ++ rest := by
  rcases Option.or_eq_some_iff.mp h with h | ⟨-, h⟩
  · exact ⟨_, List.mem_cons_self, after?_eq_some_iff.mp h⟩
  · exact ⟨_, List.mem_cons_of_mem _ List.mem_cons_self, after?_eq_some_iff.mp h⟩

theorem after?_name {name : Text} (hname : name ∈ functionNames) (rest : Text) :
    (after? "rgb(".toList (name ++ rest)).or (after? "rgba(".toList (name ++ rest)) =
      some rest := by
  simp only [functionNames, List.mem_cons, List.not_mem_nil, or_false] at hname
  rcases hname with rfl | rfl
  · rw [after?_append, Option.some_or]
  · rw [after?_append]
    rfl

theorem functionText_of_function? {t : Text} {color : Color} (h : function? t = some color) :
    FunctionText t color := by
  simp only [function?, Option.bind_eq_bind, Option.bind_eq_some_iff, Prod.exists] at h
  obtain ⟨_, hname, red, _, hred, _, hcomma, green, _, hgreen, _, hcomma', blue, _, hblue, h⟩ := h
  obtain ⟨name, hmem, rfl⟩ := exists_name hname
  obtain ⟨_, hr', rfl⟩ := exists_comma hcomma
  obtain ⟨_, hg', rfl⟩ := exists_comma hcomma'
  obtain ⟨r, hr, rfl⟩ := exists_argument takes_channel hred
  obtain ⟨g, hg, rfl⟩ := exists_argument takes_channel hgreen
  obtain ⟨b, hb, rfl⟩ := exists_argument takes_channel hblue
  rw [hr', hg']
  split at h
  · rename_i hend
    cases h
    rw [hend]
    simpa [join] using FunctionText.solid hmem hr hg hb
  · rename_i last hend
    obtain ⟨⟨alpha, rest⟩, halpha, h⟩ := Option.bind_eq_some_iff.mp h
    split at h
    · rename_i hcheck
      cases h
      obtain ⟨a, ha, rfl⟩ := exists_argument takes_alpha halpha
      simp only [Bool.and_eq_true, decide_eq_true_eq, Bool.not_eq_true'] at hcheck
      rw [hend, hcheck.1]
      simpa [join] using FunctionText.covering hmem hr hg hb
        (ha.imp fun _ hrounds => alphaText_iff.mpr ⟨hrounds, hcheck.2⟩)
    · cases h
  · cases h

/-- Three channels are read up to the comma or the bracket after them. -/
theorem exists_channels {r g b u : Text} {red green blue : UInt8} {c : Char}
    (hr : ArgumentText ChannelText r red) (hg : ArgumentText ChannelText g green)
    (hb : ArgumentText ChannelText b blue) (hc : Closes c) :
    ∃ rest₁ next₁ rest₂ next₂ rest₃,
      channel? (trimStart (r ++ ',' :: (g ++ ',' :: (b ++ c :: u)))) = some (red, rest₁) ∧
      comma? rest₁ = some next₁ ∧ channel? next₁ = some (green, rest₂) ∧
      comma? rest₂ = some next₂ ∧ channel? next₂ = some (blue, rest₃) ∧
      trimStart rest₃ = c :: u := by
  obtain ⟨rest₁, hred, hfirst⟩ := read_argument takes_channel hr closes_comma
  obtain ⟨rest₂, hgreen, hsecond⟩ := read_argument takes_channel hg closes_comma
  obtain ⟨rest₃, hblue, hlast⟩ := read_argument takes_channel hb hc
  exact ⟨rest₁, _, rest₂, _, rest₃, hred, comma?_of_trimStart hfirst, hgreen,
    comma?_of_trimStart hsecond, hblue, hlast⟩

theorem function?_of_functionText {t : Text} {color : Color} (h : FunctionText t color) :
    function? t = some color := by
  cases h with
  | @solid name r g b red green blue hname hr hg hb =>
    obtain ⟨_, _, _, _, _, hred, hfirst, hgreen, hsecond, hblue, hlast⟩ :=
      exists_channels hr hg hb closes_bracket (u := [])
    simp only [join, List.append_assoc, List.cons_append, List.nil_append, function?,
      after?_name hname, hred, hfirst, hgreen, hsecond, hblue, hlast, Option.bind_eq_bind,
      Option.bind_some]
    rfl
  | @covering name r g b a red green blue alpha hname hr hg hb ha =>
    obtain ⟨_, halpha, hend⟩ :=
      read_argument takes_alpha (ha.imp fun _ h => (alphaText_iff.mp h).1) closes_bracket (u := [])
    obtain ⟨_, _, _, _, _, hred, hfirst, hgreen, hsecond, hblue, hlast⟩ :=
      exists_channels hr hg hb closes_comma (u := a ++ [')'])
    obtain ⟨_, _, _, -, -, hspells, -⟩ := ha
    simp only [join, List.append_assoc, List.cons_append, List.nil_append, function?,
      after?_name hname, hred, hfirst, hgreen, hsecond, hblue, hlast, halpha, hend,
      Option.bind_eq_bind, Option.bind_some]
    rw [hspells.atMostOne]
    rfl

theorem function?_eq_some_iff {t : Text} {color : Color} :
    function? t = some color ↔ FunctionText t color :=
  ⟨functionText_of_function?, function?_of_functionText⟩

/-- A text that starts with no number sign and is not a name is a color exactly if it is spelled as
a function. Any other such text is an error that names it without the white space around it. -/
theorem ofText?_function {t : Text} (hsign : (trim t).head? ≠ some '#')
    (hname : (trim t).map lowerLatin ∉ names.map Prod.fst) :
    (∀ color, ofText? t = some color ↔ FunctionText (trim t) color) ∧
    ((∀ color, ¬ FunctionText (trim t) color) →
      (Toml.Value.string t).asColor = .error (.invalidColor (trim t))) := by
  have hnamed : named? (trim t) = none := by
    rw [named?, List.lookup_eq_none_iff]
    intro entry hentry
    rw [bne_iff_ne]
    intro heq
    exact hname (heq ▸ List.mem_map_of_mem hentry)
  have hfunction : ofText? t = function? (trim t) := by
    unfold ofText?
    split
    · rename_i hcons
      rw [hcons] at hsign
      exact absurd rfl hsign
    · rw [hnamed, Option.none_or]
  refine ⟨fun color => ?_, fun hnone => ?_⟩
  · rw [hfunction, function?_eq_some_iff]
  · have hread : ofText? t = none := by
      rw [hfunction, Option.eq_none_iff_forall_ne_some]
      intro color hcolor
      exact hnone color (functionText_of_function? hcolor)
    simp only [Toml.Value.asColor, Toml.Value.asText, bind, Except.bind, hread]

/-- White space of several kinds, idle zeros and an alpha that rounds down to one; and one that does
not. -/
theorem ofText?_function_rounding :
    trim "\u3000rgba(\u00a0007 ,\n255,0\t, 1.00000005)\n".toList =
      "rgba(\u00a0007 ,\n255,0\t, 1.00000005)".toList ∧
    "rgba(\u00a0007 ,\n255,0\t, 1.00000005)".toList.map lowerLatin ∉ names.map Prod.fst ∧
    FunctionText "rgba(\u00a0007 ,\n255,0\t, 1.00000005)".toList (solid 7 255 0) ∧
    trim " rgb(7, 255, 0, 1.00000006)".toList = "rgb(7, 255, 0, 1.00000006)".toList ∧
    "rgb(7, 255, 0, 1.00000006)".toList.map lowerLatin ∉ names.map Prod.fst ∧
    (Toml.Value.string " rgb(7, 255, 0, 1.00000006)".toList).asColor =
      .error (.invalidColor "rgb(7, 255, 0, 1.00000006)".toList) := by
  have htrim : trim "\u3000rgba(\u00a0007 ,\n255,0\t, 1.00000005)\n".toList =
      "rgba(\u00a0007 ,\n255,0\t, 1.00000005)".toList := by decide +kernel
  have hname : "rgba(\u00a0007 ,\n255,0\t, 1.00000005)".toList.map lowerLatin ∉
      names.map Prod.fst := by decide +kernel
  have hread : ofText? "\u3000rgba(\u00a0007 ,\n255,0\t, 1.00000005)\n".toList =
      some (solid 7 255 0) := by decide +kernel
  have htrim' : trim " rgb(7, 255, 0, 1.00000006)".toList =
      "rgb(7, 255, 0, 1.00000006)".toList := by decide +kernel
  have hname' : "rgb(7, 255, 0, 1.00000006)".toList.map lowerLatin ∉ names.map Prod.fst := by
    decide +kernel
  have hread' : ofText? " rgb(7, 255, 0, 1.00000006)".toList = none := by decide +kernel
  have hfirst := ofText?_function (t := "\u3000rgba(\u00a0007 ,\n255,0\t, 1.00000005)\n".toList)
  have hsecond := ofText?_function (t := " rgb(7, 255, 0, 1.00000006)".toList)
  rw [htrim] at hfirst
  rw [htrim'] at hsecond
  obtain ⟨hspelled, -⟩ := hfirst (by decide) hname
  obtain ⟨hspelled', hrefused⟩ := hsecond (by decide) hname'
  refine ⟨htrim, hname, (hspelled _).mp hread, htrim', hname', hrefused ?_⟩
  intro color h
  rw [(hspelled' color).mpr h] at hread'
  cases hread'

end Color

end Checklist
