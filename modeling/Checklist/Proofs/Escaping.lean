import Checklist.Openers.Source
import Checklist.Proofs.Search

namespace Checklist
open Text

namespace Openers

/-- What an expression gives a meaning of its own. The last four have one only inside of classes and
where blanks are ignored. -/
def operators : Text :=
  "\\.+*?()|[]\x7b\x7d^$#&-~".toList

theorem isMeta_iff {c : Char} : isMeta c = true ↔ c ∈ operators :=
  List.contains_iff_mem

/-- A character of an expression, alone or after the backslash that escapes it. -/
inductive Symbol
  | plain (c : Char)
  | escaped (c : Char)
  deriving DecidableEq, Repr

namespace Symbol

def char : Symbol → Char
  | plain c => c
  | escaped c => c

/-- How a character is written to stand for itself. -/
def literal (c : Char) : Symbol :=
  if isMeta c then escaped c else plain c

/-- The character stands for itself: it is an operator that is escaped, or neither. -/
def IsLiteral : Symbol → Prop
  | plain c => c ∉ operators
  | escaped c => c ∈ operators

theorem char_literal (c : Char) : (literal c).char = c := by
  unfold literal
  split <;> rfl

theorem isLiteral_literal (c : Char) : (literal c).IsLiteral := by
  unfold literal
  split
  · rename_i h
    exact isMeta_iff.mp h
  · rename_i h
    exact mt isMeta_iff.mpr h

theorem not_isLiteral_bar : ¬ (plain '|').IsLiteral := by
  intro h
  have hbar : '|' ∈ operators := by decide
  exact h hbar

end Symbol

/-- The symbols of an expression from its start on. A backslash that is escaped escapes nothing. -/
def symbols : Text → List Symbol
  | [] => []
  | '\\' :: c :: t => .escaped c :: symbols t
  | c :: t => .plain c :: symbols t

/-- The texts between the bars that are not escaped, without the backslashes that escape. -/
def decode (expression : Text) : List Text :=
  ((symbols expression).splitOn (.plain '|')).map (·.map Symbol.char)

/-- The texts of a list, longer ones first, and those of one length in the order they had. -/
structure SortedByLength (l sorted : List Text) : Prop where
  perm : sorted.Perm l
  ordered : sorted.Pairwise fun a b => b.length ≤ a.length
  stable : ∀ n, sorted.filter (·.length = n) = l.filter (·.length = n)

section Sorting

/-- A text is put before those of its own length, so they are never moved past each other. -/
theorem insertByLength_filter (t : Text) (l : List Text) (n : Nat) :
    (insertByLength t l).filter (·.length = n) = (t :: l).filter (·.length = n) := by
  induction l with
  | nil => rfl
  | cons u rest ih =>
    unfold insertByLength
    split
    · rfl
    · rename_i hlonger
      rw [List.filter_cons, ih, List.filter_cons, List.filter_cons, List.filter_cons]
      by_cases hu : u.length = n
      · have ht : t.length ≠ n := by omega
        simp [hu, ht]
      · simp [hu]

theorem sortedByLength_longestFirst (l : List Text) : SortedByLength l (longestFirst l) := by
  refine ⟨longestFirst_perm l, longestFirst_pairwise l, fun n => ?_⟩
  induction l with
  | nil => rfl
  | cons t rest ih =>
    rw [longestFirst, insertByLength_filter, List.filter_cons, List.filter_cons, ih]

end Sorting

theorem symbols_cons_plain {c : Char} (h : c ≠ '\\') (t : Text) :
    symbols (c :: t) = .plain c :: symbols t := by
  rw [symbols]
  simp [h]

theorem symbols_escape_append (t u : Text) :
    symbols (escape t ++ u) = t.map Symbol.literal ++ symbols u := by
  induction t with
  | nil => rfl
  | cons c t ih =>
    rw [escape, List.flatMap_cons, ← escape, List.map_cons, List.cons_append, ← ih, Symbol.literal]
    split
    · rfl
    · rename_i hplain
      have hslash : c ≠ '\\' := by
        rintro rfl
        exact hplain rfl
      exact symbols_cons_plain hslash _

theorem symbols_escape (t : Text) : symbols (escape t) = t.map Symbol.literal := by
  have h := symbols_escape_append t []
  rwa [List.append_nil, symbols, List.append_nil] at h

theorem symbols_alternation (literals : List Text) :
    symbols (join ['|'] (literals.map escape)) =
      [Symbol.plain '|'].intercalate (literals.map (·.map Symbol.literal)) := by
  induction literals with
  | nil => rfl
  | cons t rest ih =>
    cases rest with
    | nil => exact (symbols_escape t).trans List.intercalate_singleton.symm
    | cons u rest =>
      have hbar (v : Text) : symbols ('|' :: v) = .plain '|' :: symbols v := rfl
      simp only [List.map_cons, join, List.intercalate_cons_cons, List.append_assoc,
        List.singleton_append, symbols_escape_append, hbar] at ih ⊢
      rw [ih]

theorem map_char_literal (t : Text) : (t.map Symbol.literal).map Symbol.char = t := by
  rw [List.map_map]
  exact List.map_id'' Symbol.char_literal t

theorem bar_not_mem_literal (t : Text) : Symbol.plain '|' ∉ t.map Symbol.literal := by
  intro hmem
  obtain ⟨c, -, hc⟩ := List.mem_map.mp hmem
  exact Symbol.not_isLiteral_bar (hc ▸ Symbol.isLiteral_literal c)

theorem decode_alternation {literals : List Text} (h : literals ≠ []) :
    decode (join ['|'] (literals.map escape)) = literals := by
  have hbar : ∀ t ∈ literals.map (·.map Symbol.literal), Symbol.plain '|' ∉ t := by
    intro t ht
    obtain ⟨literal, -, rfl⟩ := List.mem_map.mp ht
    exact bar_not_mem_literal literal
  rw [decode, symbols_alternation, List.splitOn_intercalate _ hbar (by simpa using h), List.map_map]
  exact List.map_id'' map_char_literal literals

theorem eq_or_exists_of_mem_intercalate {α : Type} {separator a : α} {pieces : List (List α)}
    (h : a ∈ [separator].intercalate pieces) : a = separator ∨ ∃ piece ∈ pieces, a ∈ piece := by
  induction pieces with
  | nil => cases h
  | cons piece rest ih =>
    cases rest with
    | nil =>
      rw [List.intercalate_singleton] at h
      exact .inr ⟨piece, List.mem_cons_self, h⟩
    | cons next rest =>
      rw [List.intercalate_cons_cons, List.mem_append, List.mem_append, List.mem_singleton] at h
      rcases h with (h | h) | h
      · exact .inr ⟨piece, List.mem_cons_self, h⟩
      · exact .inl h
      · rcases ih h with h | ⟨found, hfound, h⟩
        · exact .inl h
        · exact .inr ⟨found, List.mem_cons_of_mem _ hfound, h⟩

/-- Escaped literals bring no symbol with a meaning of its own between the bars. -/
theorem eq_bar_or_isLiteral {literals : List Text} {symbol : Symbol}
    (h : symbol ∈ symbols (join ['|'] (literals.map escape))) :
    symbol = .plain '|' ∨ symbol.IsLiteral := by
  rw [symbols_alternation] at h
  rcases eq_or_exists_of_mem_intercalate h with h | ⟨piece, hpiece, h⟩
  · exact .inl h
  · obtain ⟨t, -, rfl⟩ := List.mem_map.mp hpiece
    obtain ⟨c, -, rfl⟩ := List.mem_map.mp h
    exact .inr (Symbol.isLiteral_literal c)

theorem escape_injective : Function.Injective escape := by
  intro t u h
  have hsymbols := congrArg symbols h
  rw [symbols_escape, symbols_escape] at hsymbols
  have hchars := congrArg (List.map Symbol.char) hsymbols
  rwa [map_char_literal, map_char_literal] at hchars

theorem alternatives_ne_nil (tokens : List Text) (comment : Text) :
    (ofLiterals tokens comment).alternatives ≠ [] := by
  intro hnil
  have hlength := (sortedByLength_longestFirst (comment :: tokens)).perm.length_eq
  rw [show longestFirst (comment :: tokens) = [] from hnil] at hlength
  cases hlength

theorem decode_of_source_eq {tokens : List Text} {comment alternation : Text}
    (h : (ofLiterals tokens comment).source =
      "(?m)^([\\t ]*)(".toList ++ alternation ++ [')']) :
    decode alternation = (ofLiterals tokens comment).alternatives := by
  have halternation := List.append_cancel_left (List.append_cancel_right h)
  rw [← halternation, decode_alternation (alternatives_ne_nil tokens comment)]

/-- Whatever the literals are, they can be told from their expression, where they stand between the
bars, longest first. No character of a literal keeps a meaning of its own there: besides the bars
between literals the group holds only characters that stand for themselves, the operators among them
escaped. -/
theorem decode_source (tokens : List Text) (comment : Text) :
    (∃ alternation,
      (ofLiterals tokens comment).source =
        "(?m)^([\\t ]*)(".toList ++ alternation ++ [')'] ∧
      decode alternation = (ofLiterals tokens comment).alternatives ∧
      ∀ symbol ∈ symbols alternation, symbol = .plain '|' ∨ symbol.IsLiteral) ∧
    SortedByLength (comment :: tokens) (ofLiterals tokens comment).alternatives ∧
    (∀ otherTokens otherComment,
      (ofLiterals otherTokens otherComment).source = (ofLiterals tokens comment).source →
      (ofLiterals otherTokens otherComment).alternatives =
        (ofLiterals tokens comment).alternatives) ∧
    Function.Injective escape := by
  refine ⟨⟨_, rfl, decode_of_source_eq rfl, fun _ => eq_bar_or_isLiteral⟩,
    sortedByLength_longestFirst _, ?_, escape_injective⟩
  intro otherTokens otherComment hsource
  have hown : decode _ = (ofLiterals tokens comment).alternatives := decode_of_source_eq rfl
  have hother : decode _ = (ofLiterals otherTokens otherComment).alternatives :=
    decode_of_source_eq hsource
  exact hother.symm.trans hown

/-- A literal that ends with a backslash stands next to a bar, and an empty one between bars. -/
example : (ofLiterals ["a\\".toList, [], "(|".toList] "--".toList).source =
    "(?m)^([\\t ]*)(\\-\\-|a\\\\|\\(\\||)".toList := by decide +kernel

end Openers

end Checklist
