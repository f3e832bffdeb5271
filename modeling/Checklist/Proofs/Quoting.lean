import Checklist.Toml.Printer

namespace Checklist.Toml

section Escapes

/-- Two capital digits are enough for every control. -/
theorem fourDigits_of_lt : ∀ n < 0x80, codePoint? (fourDigits n) = some (Char.ofNat n) ∧
    fourDigits n = ['0', '0', (n / 16).digitChar.toUpper, (n % 16).digitChar.toUpper] := by
  decide +kernel

/-- The characters that a letter behind a backslash stands for. -/
def escapeLetters : List (Char × Char) :=
  [('\x08', 'b'), ('\t', 't'), ('\x0c', 'f'), ('\r', 'r'), ('\\', '\\')]

/-- A character stands for itself, or behind a backslash by a letter or by its code point. -/
theorem escape_cases (c : Char) :
    (∃ letter, escape c = ['\\', letter] ∧ (c, letter) ∈ escapeLetters) ∨
    (∃ k l m n, escape c = ['\\', 'u', k, l, m, n] ∧ codePoint? [k, l, m, n] = some c) ∨
    (escape c = [c] ∧ isControl c = false ∧ c ≠ '\\') := by
  rw [escape.eq_def]
  split
  · exact .inl ⟨_, rfl, by simp [escapeLetters]⟩
  · exact .inl ⟨_, rfl, by simp [escapeLetters]⟩
  · exact .inl ⟨_, rfl, by simp [escapeLetters]⟩
  · exact .inl ⟨_, rfl, by simp [escapeLetters]⟩
  · exact .inl ⟨_, rfl, by simp [escapeLetters]⟩
  · right
    split
    · rename_i hcontrol
      left
      have hlt : c.toNat < 0x80 := by
        simp only [isControl, Bool.or_eq_true, Bool.and_eq_true, decide_eq_true_eq,
          beq_iff_eq] at hcontrol
        rcases hcontrol with ⟨h, -⟩ | rfl
        · omega
        · decide
      obtain ⟨hcode, hdigits⟩ := fourDigits_of_lt _ hlt
      rw [hdigits, Char.ofNat_toNat] at hcode
      exact ⟨_, _, _, _, by rw [hdigits], hcode⟩
    · rename_i hslash hcontrol
      exact .inr ⟨rfl, by simpa using hcontrol, fun h => by simp_all⟩

theorem escape_ne_quote {c : Char} (hquote : c ≠ '"') (t u : Text) : escape c ++ t ≠ '"' :: u := by
  rcases escape_cases c with ⟨letter, h, -⟩ | ⟨k, l, m, n, h, -⟩ | ⟨h, -, -⟩ <;> simp [h, hquote]

/-- A reader that goes on behind an escape with the character that it stands for. -/
structure Unescapes (read : Text → Option (Text × Text)) : Prop where
  letter : ∀ pair ∈ escapeLetters, ∀ t,
    read ('\\' :: pair.2 :: t) = (read t).map (prepend pair.1)
  code : ∀ k l m n t, read ('\\' :: 'u' :: k :: l :: m :: n :: t) =
    (codePoint? [k, l, m, n]).bind fun c => (read t).map (prepend c)
  char : ∀ c, c ≠ '"' → c ≠ '\\' → isControl c = false → ∀ t,
    read (c :: t) = (read t).map (prepend c)

theorem Unescapes.escape {read : Text → Option (Text × Text)} (h : Unescapes read) {c : Char}
    (hquote : c ≠ '"') (t : Text) : read (escape c ++ t) = (read t).map (prepend c) := by
  rcases escape_cases c with ⟨letter, hc, hletter⟩ | ⟨k, l, m, n, hc, hcode⟩ |
    ⟨hc, hcontrol, hslash⟩
  · rw [hc]
    exact h.letter _ hletter t
  · rw [hc]
    exact (h.code k l m n t).trans (by rw [hcode]; rfl)
  · rw [hc]
    exact h.char c hquote hslash hcontrol t

end Escapes

section Basic

theorem unescapes_basic : Unescapes basic? := by
  constructor
  · simp [escapeLetters, basic?]
  · simp [basic?]
  · intro c hquote hslash hcontrol t
    rw [basic?]
    · simp [hcontrol, hslash]
    all_goals simp_all

theorem basic?_escapeInLine (c : Char) (t : Text) :
    basic? (escapeInLine c ++ t) = (basic? t).map (prepend c) := by
  rw [escapeInLine.eq_def]
  split
  · simp [basic?]
  · simp [basic?]
  · rename_i hquote _
    exact unescapes_basic.escape hquote t

theorem basic?_flatMap (t rest : Text) :
    basic? (t.flatMap escapeInLine ++ '"' :: rest) = some (t, rest) := by
  induction t with
  | nil => simp [basic?]
  | cons c t ih =>
    rw [List.flatMap_cons, List.append_assoc, basic?_escapeInLine, ih]
    rfl

end Basic

section Quotes

/-- The quotes at the start of what follows a quote that does not close a text of several lines: at
most one, or the three that close it with at most one before them. -/
inductive Ahead (q : Char) : Text → Prop
  | none {t : Text} (h : ∀ u, t ≠ q :: u) : Ahead q t
  | one {t : Text} (h : ∀ u, t ≠ q :: u) : Ahead q (q :: t)
  | closing {t : Text} (h : ∀ u, t ≠ q :: u) : Ahead q (q :: q :: q :: t)
  | oneClosing {t : Text} (h : ∀ u, t ≠ q :: u) : Ahead q (q :: q :: q :: q :: t)

/-- A reader that three quotes close, of which up to two more may stand before them. -/
structure ClosedBy (q : Char) (read : Text → Option (Text × Text)) : Prop where
  three : ∀ t, (∀ u, t ≠ q :: u) → read (q :: q :: q :: t) = some ([], t)
  four : ∀ t, (∀ u, t ≠ q :: u) → read (q :: q :: q :: q :: t) = some ([q], t)
  five : ∀ t, read (q :: q :: q :: q :: q :: t) = some ([q, q], t)
  fewer : ∀ t, (∀ u, t ≠ q :: q :: u) → read (q :: t) = (read t).map (prepend q)

/-- The reader looks at up to four characters behind such a quote, and takes it as itself. -/
theorem ClosedBy.quote {q : Char} {read : Text → Option (Text × Text)} (hread : ClosedBy q read)
    {t : Text} (h : Ahead q t) : read (q :: t) = (read t).map (prepend q) := by
  cases h with
  | none h => exact hread.fewer _ fun u => h _
  | one h => exact hread.fewer _ fun u hu => h u (List.cons.inj hu).2
  | closing h =>
    rw [hread.three _ h, hread.four _ h]
    rfl
  | oneClosing h =>
    rw [hread.four _ h, hread.five]
    rfl

end Quotes

section BasicLines

theorem unescapes_basicLines : Unescapes (basicLines? .none) := by
  constructor
  · simp [escapeLetters, basicLines?]
  · simp [basicLines?]
  · intro c hquote hslash hcontrol t
    have hbreak : c ≠ '\n' := fun h => by simp [h, isControl] at hcontrol
    have hreturn : c ≠ '\r' := fun h => by simp [h, isControl] at hcontrol
    rw [basicLines?]
    · simp [hcontrol]
    all_goals simp_all

theorem closedBy_basicLines : ClosedBy '"' (basicLines? .none) := by
  constructor
  · intro t h
    rw [basicLines?]
    all_goals simp_all
  · intro t h
    rw [basicLines?]
    all_goals simp_all
  · simp [basicLines?]
  · intro t h
    rw [basicLines?]
    · simp [isControl]
    all_goals simp_all

theorem escapeLines_char {c : Char} (hquote : c ≠ '"') (hbreak : c ≠ '\n') (run : Nat) (t : Text) :
    escapeLines run (c :: t) = escape c ++ escapeLines 0 t := by
  rw [escapeLines]
  all_goals simp_all

theorem escapeLines_char_ne_quote {c : Char} (hquote : c ≠ '"') (run : Nat) (t u v : Text) :
    escapeLines run (c :: t) ++ u ≠ '"' :: v := by
  by_cases hbreak : c = '\n'
  · subst hbreak
    simp [escapeLines]
  · rw [escapeLines_char hquote hbreak, List.append_assoc]
    exact escape_ne_quote hquote _ _

/-- After two quotes no third one follows, unless it is one of those that close the text. -/
theorem escapeLines_two_cases (t : Text) (u : Text) :
    t = [] ∨ ∀ v, escapeLines 2 t ++ u ≠ '"' :: v := by
  cases t with
  | nil => exact .inl rfl
  | cons c t =>
    right
    by_cases hquote : c = '"'
    · subst hquote
      simp [escapeLines]
    · exact escapeLines_char_ne_quote hquote 2 t u

theorem ahead_escapeLines {run : Nat} (hrun : run < 2) (t : Text) {rest : Text}
    (h : ∀ u, rest ≠ '"' :: u) :
    Ahead '"' (escapeLines (run + 1) t ++ '"' :: '"' :: '"' :: rest) := by
  cases t with
  | nil => exact .closing h
  | cons c t =>
    by_cases hquote : c = '"'
    · subst hquote
      rcases Nat.lt_or_ge run 1 with hzero | hone
      · have hrun : run = 0 := by omega
        subst hrun
        rcases escapeLines_two_cases t ('"' :: '"' :: '"' :: rest) with rfl | hnone
        · exact .oneClosing h
        · exact .one hnone
      · -- behind two quotes a third one is written with a backslash before it
        have hrun : run = 1 := by omega
        subst hrun
        exact .none (by simp [escapeLines])
    · exact .none (escapeLines_char_ne_quote hquote _ _ _)

/-- The induction is on the text, with the quotes just read as the run. -/
theorem basicLines?_escapeLines {run : Nat} (hrun : run ≤ 2) (t : Text) {rest : Text}
    (h : ∀ u, rest ≠ '"' :: u) :
    basicLines? .none (escapeLines run t ++ '"' :: '"' :: '"' :: rest) = some (t, rest) := by
  induction t generalizing run with
  | nil => exact closedBy_basicLines.three _ h
  | cons c t ih =>
    by_cases hquote : c = '"'
    · subst hquote
      rcases Nat.eq_or_lt_of_le hrun with rfl | hlt
      · simp [escapeLines, basicLines?, ih, prepend]
      · rw [escapeLines, if_neg (by omega), List.cons_append,
          closedBy_basicLines.quote (ahead_escapeLines hlt t h), ih hlt]
        rfl
    · by_cases hbreak : c = '\n'
      · subst hbreak
        simp [escapeLines, basicLines?, ih, prepend]
      · rw [escapeLines_char hquote hbreak, List.append_assoc, unescapes_basicLines.escape hquote,
          ih (Nat.zero_le _)]
        rfl

end BasicLines

section Literal

theorem literal?_append {t : Text} (h : ∀ c ∈ t, isControl c = false ∧ c ≠ '\'') (rest : Text) :
    literal? (t ++ '\'' :: rest) = some (t, rest) := by
  induction t with
  | nil => simp [literal?]
  | cons c t ih =>
    obtain ⟨hcontrol, hquote⟩ := h c List.mem_cons_self
    rw [List.cons_append, literal?, if_neg (by simp [hcontrol]),
      ih fun d hd => h d (List.mem_cons_of_mem c hd)]
    · rfl
    · exact hquote

/-- The longest run so far and the one that is still open, after one more character. -/
def runStep (q : Char) (runs : Nat × Nat) (c : Char) : Nat × Nat :=
  let run := if c = q then runs.2 + 1 else 0
  (max runs.1 run, run)

theorem longestRun_eq (q : Char) (t : Text) : longestRun q t = (t.foldl (runStep q) (0, 0)).1 := rfl

theorem le_foldl_runStep (q : Char) (t : Text) (runs : Nat × Nat) :
    runs.1 ≤ (t.foldl (runStep q) runs).1 := by
  induction t generalizing runs with
  | nil => exact Nat.le_refl _
  | cons c t ih => exact Nat.le_trans (Nat.le_max_left _ _) (ih (runStep q runs c))

/-- Three in a row would make the run too long. -/
theorem not_infix_of_longestRun {q : Char} {t : Text} (h : longestRun q t ≤ 2) :
    ¬ [q, q, q] <:+: t := by
  rintro ⟨before, after, rfl⟩
  rw [longestRun_eq, List.foldl_append, List.foldl_append] at h
  have hthree : 3 ≤ ([q, q, q].foldl (runStep q) (before.foldl (runStep q) (0, 0))).1 := by
    simp only [List.foldl_cons, List.foldl_nil, runStep, ↓reduceIte]
    omega
  have := le_foldl_runStep q after ([q, q, q].foldl (runStep q) (before.foldl (runStep q) (0, 0)))
  omega

theorem ahead_append {q : Char} {t rest : Text} (ht : ¬ [q, q, q] <:+: q :: t)
    (h : ∀ u, rest ≠ q :: u) : Ahead q (t ++ q :: q :: q :: rest) := by
  cases t with
  | nil => exact .closing h
  | cons c t =>
    by_cases hc : c = q
    · subst hc
      cases t with
      | nil => exact .oneClosing h
      | cons d t =>
        refine .one fun u hu => ht ?_
        obtain ⟨hd, -⟩ := List.cons.inj hu
        rw [hd]
        exact (List.prefix_append [c, c, c] t).isInfix
    · exact .none fun u hu => hc (List.cons.inj hu).1

theorem closedBy_literalLines : ClosedBy '\'' literalLines? := by
  constructor
  · intro t h
    rw [literalLines?]
    all_goals simp_all
  · intro t h
    rw [literalLines?]
    all_goals simp_all
  · simp [literalLines?]
  · intro t h
    rw [literalLines?]
    · simp [isControl]
    all_goals simp_all

theorem literalLines?_char {c : Char} (hquote : c ≠ '\'') (hcontrol : isControl c = true → c = '\n')
    (t : Text) : literalLines? (c :: t) = (literalLines? t).map (prepend c) := by
  by_cases hbreak : c = '\n'
  · subst hbreak
    simp [literalLines?]
  · have hplain : isControl c = false := by
      simpa using fun h => hbreak (hcontrol h)
    have hreturn : c ≠ '\r' := fun h => by simp [h, isControl] at hplain
    rw [literalLines?]
    · simp [hplain]
    all_goals simp_all

theorem literalLines?_append {t rest : Text} (ht : ∀ c ∈ t, isControl c = true → c = '\n')
    (hrun : ¬ ['\'', '\'', '\''] <:+: t) (h : ∀ u, rest ≠ '\'' :: u) :
    literalLines? (t ++ '\'' :: '\'' :: '\'' :: rest) = some (t, rest) := by
  induction t with
  | nil => exact closedBy_literalLines.three _ h
  | cons c t ih =>
    have hrest := ih (fun d hd => ht d (List.mem_cons_of_mem c hd))
      fun hin => hrun (hin.trans (List.suffix_cons c t).isInfix)
    by_cases hquote : c = '\''
    · subst hquote
      rw [List.cons_append, closedBy_literalLines.quote (ahead_append hrun h), hrest]
      rfl
    · rw [List.cons_append, literalLines?_char hquote (ht c List.mem_cons_self), hrest]
      rfl

end Literal

section Forms

/-- What the forms without escapes ask of a text. -/
theorem Form.of_cases (t : Text) : Form.of t = .basic ∨ Form.of t = .basicLines ∨
    (Form.of t = .literal ∧ ∀ c ∈ t, isControl c = false ∧ c ≠ '\'') ∨
    (Form.of t = .literalLines ∧ (∀ c ∈ t, isControl c = true → c = '\n') ∧
      longestRun '\'' t ≤ 2) := by
  simp only [Form.of]
  split
  · exact .inl rfl
  · split
    · rename_i h
      right; right; left
      simp only [Bool.and_eq_true, Bool.not_eq_true', List.any_eq_false, List.contains_eq_mem,
        decide_eq_false_iff_not, bne_iff_ne, ne_eq, not_and, Decidable.not_not] at h
      obtain ⟨⟨hcontrols, hlines⟩, hquote⟩ := h
      refine ⟨rfl, fun c hc => ⟨?_, fun he => hquote (he ▸ hc)⟩⟩
      simpa using fun hcontrol => hlines (hcontrols c hc hcontrol ▸ hc)
    · split
      · exact .inr (.inl rfl)
      · split
        · rename_i h
          right; right; right
          simp only [Bool.and_eq_true, Bool.not_eq_true', List.any_eq_false, bne_iff_ne, ne_eq,
            not_and, Decidable.not_not, decide_eq_true_eq] at h
          exact ⟨rfl, h⟩
        · split
          · exact .inr (.inl rfl)
          · exact .inl rfl

theorem skipFirstBreak_eq {t : Text} (h : ∀ c ∈ t.head?, c ≠ '\n' ∧ c ≠ '\r') :
    skipFirstBreak t = t := by
  cases t with
  | nil => rfl
  | cons c t =>
    obtain ⟨hbreak, hreturn⟩ := h c rfl
    rw [skipFirstBreak]
    all_goals simp_all

/-- The line end that is skipped is the one that was put there. -/
theorem skipFirstBreak_lines {t inner : Text}
    (h : '\n' ∉ t → ∀ c ∈ inner.head?, c ≠ '\n' ∧ c ≠ '\r') :
    skipFirstBreak ((if t.contains '\n' then ['\n'] else []) ++ inner) = inner := by
  by_cases hmem : '\n' ∈ t
  · simp [hmem, skipFirstBreak]
  · simpa [hmem] using skipFirstBreak_eq (h hmem)

theorem head_escape {c : Char} (hbreak : c ≠ '\n') (t : Text) :
    ∀ d ∈ (escape c ++ t).head?, d ≠ '\n' ∧ d ≠ '\r' := by
  rcases escape_cases c with ⟨letter, h, -⟩ | ⟨k, l, m, n, h, -⟩ | ⟨h, hcontrol, -⟩
  · simp [h]
  · simp [h]
  · have hreturn : c ≠ '\r' := fun h => by simp [h, isControl] at hcontrol
    simp [h, hbreak, hreturn]

theorem head_escapeLines {t : Text} (h : '\n' ∉ t) (u : Text) :
    ∀ c ∈ (escapeLines 0 t ++ '"' :: u).head?, c ≠ '\n' ∧ c ≠ '\r' := by
  cases t with
  | nil => simp [escapeLines]
  | cons c t =>
    have hbreak : c ≠ '\n' := fun he => h (he ▸ List.mem_cons_self)
    by_cases hquote : c = '"'
    · simp [hquote, escapeLines]
    · rw [escapeLines_char hquote hbreak, List.append_assoc]
      exact head_escape hbreak _

theorem string?_basicLines (t rest : Text) :
    string? ('"' :: '"' :: '"' :: ((if t.contains '\n' then ['\n'] else []) ++
      (escapeLines 0 t ++ '"' :: '"' :: '"' :: '\n' :: rest))) = some (t, '\n' :: rest) := by
  rw [string?, skipFirstBreak_lines fun h => head_escapeLines h _]
  exact basicLines?_escapeLines (Nat.zero_le _) t (by simp)

theorem string?_literalLines {t : Text} (ht : ∀ c ∈ t, isControl c = true → c = '\n')
    (hrun : longestRun '\'' t ≤ 2) (rest : Text) :
    string? ('\'' :: '\'' :: '\'' :: ((if t.contains '\n' then ['\n'] else []) ++
      (t ++ '\'' :: '\'' :: '\'' :: '\n' :: rest))) = some (t, '\n' :: rest) := by
  have hhead : '\n' ∉ t → ∀ c ∈ (t ++ '\'' :: '\'' :: '\'' :: '\n' :: rest).head?,
      c ≠ '\n' ∧ c ≠ '\r' := by
    intro hlines
    cases t with
    | nil => simp
    | cons c t =>
      have hbreak : c ≠ '\n' := fun he => hlines (he ▸ List.mem_cons_self)
      have hreturn : c ≠ '\r' := by
        rintro rfl
        exact hbreak (ht _ List.mem_cons_self (by decide))
      simp [hbreak, hreturn]
  rw [string?, skipFirstBreak_lines hhead]
  exact literalLines?_append ht (not_infix_of_longestRun hrun) (by simp)

theorem escapeInLine_ne_quote (c : Char) (t u : Text) : escapeInLine c ++ t ≠ '"' :: u := by
  rw [escapeInLine.eq_def]
  split
  · simp
  · simp
  · rename_i hquote _
    exact escape_ne_quote hquote t u

/-- Only an empty text has a quote directly behind its first one. -/
theorem string?_basic (t rest : Text) :
    string? ('"' :: (t.flatMap escapeInLine ++ '"' :: '\n' :: rest)) = some (t, '\n' :: rest) := by
  rw [string?, basic?_flatMap]
  intro u hu
  cases t with
  | nil => simp at hu
  | cons c t =>
    rw [List.flatMap_cons, List.append_assoc] at hu
    exact escapeInLine_ne_quote c _ _ hu

theorem string?_literal {t : Text} (ht : ∀ c ∈ t, isControl c = false ∧ c ≠ '\'') (rest : Text) :
    string? ('\'' :: (t ++ '\'' :: '\n' :: rest)) = some (t, '\n' :: rest) := by
  rw [string?, literal?_append ht]
  intro u hu
  cases t with
  | nil => simp at hu
  | cons c t => exact (ht c List.mem_cons_self).2 (List.cons.inj hu).1

/-- Every text reads back from its quotes. -/
theorem string?_quote (t rest : Text) :
    string? (quote t ++ '\n' :: rest) = some (t, '\n' :: rest) := by
  rcases Form.of_cases t with h | h | ⟨h, ht⟩ | ⟨h, ht, hrun⟩
  · simpa [quote, h] using string?_basic t rest
  · simpa [quote, h] using string?_basicLines t rest
  · simpa [quote, h] using string?_literal ht rest
  · simpa [quote, h] using string?_literalLines ht hrun rest

end Forms

end Checklist.Toml
