import Checklist.Toml.Printer
import Checklist.Toml.Reader
import Checklist.Proofs.Quoting
import Checklist.Proofs.TomlNumber

namespace Checklist.Toml

section Keys

/-- A key that stands in a document without quotes. -/
structure Bare (key : Text) : Prop where
  bare : ∀ c ∈ key, isBare c = true
  ne_nil : key ≠ []

theorem bare_of_all (key : String) (h : !key.toList.isEmpty && key.toList.all isBare) :
    Bare key.toList := by
  simp only [Bool.and_eq_true, Bool.not_eq_true', List.all_eq_true, List.isEmpty_eq_false_iff] at h
  exact ⟨h.2, h.1⟩

theorem Bare.ne_cons {key : Text} (h : Bare key) {c : Char} (hc : isBare c = false) (rest u : Text) :
    key ++ rest ≠ c :: u := by
  intro heq
  cases key with
  | nil => exact h.ne_nil rfl
  | cons d key =>
    have hd := h.bare d List.mem_cons_self
    rw [(List.cons.inj heq).1, hc] at hd
    cases hd

theorem skipBlanks_eq {t : Text} (hspace : ∀ u, t ≠ ' ' :: u) (htab : ∀ u, t ≠ '\t' :: u) :
    skipBlanks t = t := by
  cases t with
  | nil => rfl
  | cons c t =>
    have hblank : Text.isBlank c = false := by
      simp only [Text.isBlank, Bool.or_eq_false_iff, beq_eq_false_iff_ne]
      exact ⟨fun h => hspace t (h ▸ rfl), fun h => htab t (h ▸ rfl)⟩
    simp [skipBlanks, hblank]

theorem Bare.skipBlanks_eq {key : Text} (h : Bare key) (rest : Text) :
    skipBlanks (key ++ rest) = key ++ rest :=
  Toml.skipBlanks_eq (h.ne_cons (by decide) rest) (h.ne_cons (by decide) rest)

theorem keyPart?_bare {key rest : Text} (h : Bare key) (hrest : ∀ c ∈ rest.head?, isBare c = false) :
    keyPart? (key ++ rest) = some (key, rest) := by
  rw [keyPart?, Text.takeWhile_append_of_head h.bare hrest,
    Text.dropWhile_append_of_head h.bare hrest, if_neg (by simp [h.ne_nil])]
  · exact h.ne_cons (by decide) rest
  · exact h.ne_cons (by decide) rest

theorem keyParts?_bare (limit : Nat) {key rest : Text} (h : Bare key)
    (hrest : ∀ c ∈ rest.head?, isBare c = false) (hpoint : ∀ u, skipBlanks rest ≠ '.' :: u) :
    keyParts? (limit + 1) (key ++ rest) = some ([key], skipBlanks rest) := by
  rw [keyParts?, h.skipBlanks_eq, keyPart?_bare h hrest]
  simp only [Option.bind_eq_bind, Option.bind_some]
  rfl

/-- What follows a key is left without the blanks before it. -/
theorem key?_bare {key rest : Text} (h : Bare key) (hrest : ∀ c ∈ rest.head?, isBare c = false)
    (hpoint : ∀ u, skipBlanks rest ≠ '.' :: u) :
    key? (key ++ rest) = some (⟨[], key⟩, skipBlanks rest) := by
  simp [key?, depthLimit, keyParts?_bare 78 h hrest hpoint]

end Keys

section Values

/-- A value as a line holds it behind its equals sign. -/
structure Writes (written : Text) (value : Value) : Prop where
  reads : ∀ rest, value? depthLimit (written ++ '\n' :: rest) = some (value, '\n' :: rest)
  start : ∀ rest, skipBlanks (written ++ rest) = written ++ rest

theorem value?_of_scalarValue? {t rest : Text} {value : Value} {levels : Nat}
    (hbracket : ∀ u, t ≠ '[' :: u) (hbrace : ∀ u, t ≠ '{' :: u)
    (h : scalarValue? t = some (value, rest)) : value? levels t = some (value, rest) := by
  cases levels with
  | zero => rw [value?, h]
  | succ levels =>
    rw [value?, h]
    · exact fun u => hbracket u
    · exact fun u => hbrace u

theorem quote_start (t : Text) : ∃ mark u, quote t = mark :: u ∧ (mark = '"' ∨ mark = '\'') := by
  simp only [quote]
  split
  · exact ⟨'"', _, rfl, .inl rfl⟩
  · exact ⟨'\'', _, rfl, .inr rfl⟩
  · exact ⟨'"', _, rfl, .inl rfl⟩
  · exact ⟨'\'', _, rfl, .inr rfl⟩

theorem scalarValue?_quote (t rest : Text) :
    scalarValue? (quote t ++ '\n' :: rest) = some (.string t, '\n' :: rest) := by
  obtain ⟨mark, u, hquote, hmark⟩ := quote_start t
  have hstring := string?_quote t rest
  rw [hquote] at hstring ⊢
  rcases hmark with rfl | rfl
  · exact congrArg (Option.map _) hstring
  · exact congrArg (Option.map _) hstring

theorem writes_quote (t : Text) : Writes (quote t) (.string t) := by
  obtain ⟨mark, u, hquote, hmark⟩ := quote_start t
  have hne (c : Char) (hc : c ≠ '"' ∧ c ≠ '\'') (rest v : Text) : quote t ++ rest ≠ c :: v := by
    rw [hquote]
    rintro heq
    obtain ⟨rfl, -⟩ := List.cons.inj heq
    exact hmark.elim hc.1 hc.2
  constructor
  · intro rest
    exact value?_of_scalarValue? (hne '[' (by decide) _) (hne '{' (by decide) _)
      (scalarValue?_quote t rest)
  · intro rest
    exact Toml.skipBlanks_eq (hne ' ' (by decide) _) (hne '\t' (by decide) _)

theorem number_ne_cons {x : Binary64} (h : x.Canonical) {c : Char} (hdigit : c.isDigit = false)
    (hminus : c ≠ '-') (hi : c ≠ 'i') (rest u : Text) : number x ++ rest ≠ c :: u := by
  cases x with
  | nan => exact h.elim
  | number negative rank =>
    rcases Nat.eq_or_lt_of_le h with rfl | hlt
    · cases negative <;> simp [number, pointed, Binary.text, hminus.symm, hi.symm]
    · obtain ⟨whole, fraction, hspelling, -, htext⟩ := exists_pointed_eq hlt negative
      rw [number, htext]
      · cases negative with
        | true => simp [hminus.symm]
        | false =>
          rw [List.append_assoc]
          simpa using hspelling.plain.append_ne_cons hdigit _ _
      · intro hnan
        cases hnan

theorem writes_number {x : Binary64} (h : x.Canonical) : Writes (number x) (.float x) := by
  constructor
  · intro rest
    have hne {c : Char} := number_ne_cons h (c := c)
    apply value?_of_scalarValue? (hne (by decide) (by decide) (by decide) _)
      (hne (by decide) (by decide) (by decide) _)
    rw [scalarValue?, word?_number h rest]
    · exact fun u => hne (by decide) (by decide) (by decide) _ u
    · exact fun u => hne (by decide) (by decide) (by decide) _ u
  · intro rest
    have hne {c : Char} := number_ne_cons h (c := c)
    exact Toml.skipBlanks_eq (hne (by decide) (by decide) (by decide) _)
      (hne (by decide) (by decide) (by decide) _)

theorem items?_empty (item? : Text → Option (Value × Text)) (fuel : Nat) (rest : Text) :
    items? item? (fuel + 1) (']' :: rest) = some ([], rest) := by
  simp [items?, skipLines?, Text.isBlank]

theorem writes_empty : Writes "[]".toList (.array []) := by
  constructor
  · intro rest
    change value? (78 + 1) ('[' :: ']' :: '\n' :: rest) = _
    rw [value?, items?_empty]
    rfl
  · intro rest
    exact Toml.skipBlanks_eq (by simp) (by simp)

end Values

section Lines

/-- A text reads as statements with any fuel beyond its length. -/
def Reads (t : Text) (found : List Statement) : Prop :=
  ∀ fuel, t.length < fuel → statements? fuel t = some found

theorem reads_nil : Reads [] [] := by
  intro fuel hfuel
  cases fuel with
  | zero => cases hfuel
  | succ fuel => simp [statements?, skipBlanks]

theorem Reads.blankLine {t : Text} {found : List Statement} (h : Reads t found) :
    Reads ('\n' :: t) found := by
  intro fuel hfuel
  cases fuel with
  | zero => cases hfuel
  | succ fuel =>
    have hblank : skipBlanks ('\n' :: t) = '\n' :: t := rfl
    simp [statements?, hblank, lineEnd?, h fuel (Nat.lt_of_succ_lt_succ hfuel)]

/-- One statement up to the end of its line, and the lines after it. -/
theorem Reads.cons {c : Char} {written t : Text} {statement : Statement} {found : List Statement}
    (hstatement : statement? (c :: (written ++ '\n' :: t)) = some (statement, '\n' :: t))
    (hblank : Text.isBlank c = false) (hc : ¬ ((c = '#' ∨ c = '\n') ∨ c = '\r'))
    (h : Reads t found) : Reads (c :: (written ++ '\n' :: t)) (statement :: found) := by
  intro fuel hfuel
  cases fuel with
  | zero => cases hfuel
  | succ fuel =>
    have hskip : skipBlanks (c :: (written ++ '\n' :: t)) = c :: (written ++ '\n' :: t) := by
      simp [skipBlanks, hblank]
    have hend : lineEnd? ('\n' :: t) = some t := rfl
    have hrest := h fuel (by simp at hfuel; omega)
    simp [statements?, hskip, hc, hstatement, hend, hrest]

theorem pair?_line {key written : Text} {value : Value} (hkey : Bare key)
    (hvalue : Writes written value) (t : Text) :
    pair? (value? depthLimit) (key ++ ' ' :: '=' :: ' ' :: (written ++ '\n' :: t)) =
      some ((⟨[], key⟩, value), '\n' :: t) := by
  have hread : key? (key ++ ' ' :: '=' :: ' ' :: (written ++ '\n' :: t)) =
      some (⟨[], key⟩, '=' :: ' ' :: (written ++ '\n' :: t)) :=
    key?_bare hkey (by simp [isBare]) (by simp [skipBlanks, Text.isBlank])
  have hskip : skipBlanks (' ' :: (written ++ '\n' :: t)) = written ++ '\n' :: t :=
    (List.dropWhile_cons_of_pos (by decide)).trans (hvalue.start _)
  simp [pair?, hread, expect?, hskip, hvalue.reads]

theorem statement?_pair {t rest : Text} {key : Key} {value : Value} (ht : ∀ u, t ≠ '[' :: u)
    (h : pair? (value? depthLimit) t = some ((key, value), rest)) :
    statement? t = some (.pair key value, rest) := by
  rw [statement?, h]
  · rfl
  · exact fun u => ht _
  · exact fun u => ht _

/-- A line begins with the first character of its key, which is the start of nothing else. -/
theorem Reads.line {key : String} {written t : Text} {value : Value} {found : List Statement}
    (hkey : Bare key.toList) (hvalue : Writes written value) (h : Reads t found) :
    Reads (Toml.line key written ++ t) (.pair ⟨[], key.toList⟩ value :: found) := by
  have hstatement := statement?_pair (hkey.ne_cons (by decide) _) (pair?_line hkey hvalue t)
  have hline : Toml.line key written ++ t =
      key.toList ++ ' ' :: '=' :: ' ' :: (written ++ '\n' :: t) := by
    simp [Toml.line]
  rw [hline]
  generalize key.toList = k at hkey hstatement ⊢
  cases k with
  | nil => exact absurd rfl hkey.ne_nil
  | cons c k =>
    have hne (d : Char) (hd : isBare d = false) : c ≠ d :=
      fun hc => hkey.ne_cons hd [] k (by rw [hc, List.append_nil])
    have hassoc : c :: k ++ ' ' :: '=' :: ' ' :: (written ++ '\n' :: t) =
        c :: ((k ++ ' ' :: '=' :: ' ' :: written) ++ '\n' :: t) := by simp
    rw [hassoc] at hstatement ⊢
    apply Reads.cons hstatement
    · simp [Text.isBlank, hne ' ' (by decide), hne '\t' (by decide)]
    · simp [hne '#' (by decide), hne '\n' (by decide), hne '\r' (by decide)]
    · exact h

/-- The header of an element of an array of tables. -/
theorem Reads.element {key t : Text} {found : List Statement} (hkey : Bare key)
    (h : Reads t found) :
    Reads ('[' :: '[' :: (key ++ ']' :: ']' :: '\n' :: t)) (.element ⟨[], key⟩ :: found) := by
  have hread : key? (key ++ ']' :: ']' :: '\n' :: t) = some (⟨[], key⟩, ']' :: ']' :: '\n' :: t) :=
    key?_bare hkey (by simp [isBare]) (by simp [skipBlanks, Text.isBlank])
  have hassoc : '[' :: '[' :: (key ++ ']' :: ']' :: '\n' :: t) =
      '[' :: (('[' :: (key ++ [']', ']'])) ++ '\n' :: t) := by simp
  rw [hassoc]
  apply Reads.cons
  · rw [← hassoc]
    simp [statement?, hread, expect?]
  · decide
  · decide
  · exact h

/-- A text without a byte order mark is its statements put together. -/
theorem Reads.document? {t : Text} {found : List Statement} (h : Reads t found)
    (ht : ∀ u, t ≠ '\ufeff' :: u) : document? t = assemble found := by
  simp only [Toml.document?]
  rw [h]
  · rfl
  · exact Nat.lt_succ_self _

end Lines

end Checklist.Toml
