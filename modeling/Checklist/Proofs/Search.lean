import Checklist.Proofs.Openings

namespace Checklist
open Text

namespace Text

/-- Of two texts that start a third one, the longer has more bytes. -/
theorem byteLength_le_iff {a b t : Text} (ha : a <+: t) (hb : b <+: t) :
    a.byteLength ≤ b.byteLength ↔ a.length ≤ b.length := by
  constructor
  · intro hle
    rw [← Nat.not_lt]
    intro hlt
    obtain ⟨rest, rfl⟩ := List.prefix_of_prefix_length_le hb ha (Nat.le_of_lt hlt)
    cases rest with
    | nil => simp at hlt
    | cons c rest =>
      have := c.utf8Size_pos
      simp only [byteLength_append, byteLength_cons] at hle
      omega
  · intro hle
    obtain ⟨rest, rfl⟩ := List.prefix_of_prefix_length_le ha hb hle
    rw [byteLength_append]
    exact Nat.le_add_right _ _

/-- A line starts after a text that is empty or ends with a line feed. -/
def EndsLine (before : Text) : Prop :=
  before = [] ∨ before.getLast? = some '\n'

/-- The same after a text at whose front a line may start or not, one character after another. -/
def LineAfter (atStart : Bool) : Text → Prop
  | [] => atStart = true
  | c :: t => LineAfter (c == '\n') t

theorem lineAfter_cons_iff (atStart : Bool) (c : Char) (t : Text) :
    LineAfter atStart (c :: t) ↔ (c :: t).getLast? = some '\n' := by
  induction t generalizing atStart c with
  | nil => simp [LineAfter]
  | cons d t ih => rw [LineAfter, ih, List.getLast?_cons_cons]

theorem lineAfter_iff_endsLine (t : Text) : LineAfter true t ↔ EndsLine t := by
  cases t with
  | nil => simp [LineAfter, EndsLine]
  | cons c t => simp [lineAfter_cons_iff, EndsLine]

end Text

namespace Opening

/-- Where the text of an opening ends. -/
def stop (opening : Opening) : Nat :=
  opening.offset + opening.literal.byteLength

end Opening

namespace Openers

variable {openers : Openers}

section Longest

theorem insertByLength_pairwise {t : Text} {l : List Text}
    (h : l.Pairwise fun a b => b.length ≤ a.length) :
    (insertByLength t l).Pairwise fun a b => b.length ≤ a.length := by
  induction l with
  | nil => exact List.pairwise_singleton _ _
  | cons u rest ih =>
    obtain ⟨hu, hrest⟩ := List.pairwise_cons.mp h
    unfold insertByLength
    split
    · rename_i hle
      refine .cons ?_ h
      intro v hv
      rcases List.mem_cons.mp hv with rfl | hv
      · exact hle
      · exact Nat.le_trans (hu v hv) hle
    · refine .cons ?_ (ih hrest)
      intro v hv
      rcases List.mem_cons.mp ((insertByLength_perm t rest).mem_iff.mp hv) with rfl | hv
      · omega
      · exact hu v hv

theorem longestFirst_pairwise (l : List Text) :
    (longestFirst l).Pairwise fun a b => b.length ≤ a.length := by
  induction l with
  | nil => exact .nil
  | cons t rest ih => exact insertByLength_pairwise ih

/-- Where longer alternatives come first, the one that is found goes on for as long as any. -/
theorem prefix_of_alternative? (h : openers.alternatives.Pairwise fun a b => b.length ≤ a.length)
    {t literal other : Text} (hf : openers.alternative? t = some literal)
    (hmem : other ∈ openers.alternatives) (ho : other <+: t) : other <+: literal := by
  obtain ⟨hopens, before, after, hsplit, hbefore⟩ := List.find?_eq_some_iff_append.mp hf
  have hlit : literal <+: t := List.isPrefixOf_iff_prefix.mp hopens
  refine List.prefix_of_prefix_length_le ho hlit ?_
  rw [hsplit, List.mem_append, List.mem_cons] at hmem
  rcases hmem with hmem | rfl | hmem
  · have := hbefore other hmem
    rw [List.isPrefixOf_iff_prefix.mpr ho] at this
    cases this
  · exact Nat.le_refl _
  · rw [hsplit, List.pairwise_append] at h
    exact (List.pairwise_cons.mp h.2.1).1 other hmem

/-- What opens a text: the longest indentation that an alternative follows, and the first such
alternative. -/
structure Opens (openers : Openers) (t w literal : Text) : Prop where
  blank : Blank w
  found : ∃ rest, t = w ++ rest ∧ openers.alternative? rest = some literal
  longest : ∀ v other, Blank v → other ∈ openers.alternatives → v ++ other <+: t →
    v.length ≤ w.length

theorem openingAt_nil :
    openers.openingAt [] = (openers.alternative? []).map (([], ·)) := rfl

theorem openingAt_cons (c : Char) (t : Text) :
    openers.openingAt (c :: t) =
      ((if isBlank c then openers.openingAt t else none).map fun found => (c :: found.1, found.2)).or
        ((openers.alternative? (c :: t)).map (([], ·))) := by
  rw [openingAt]
  split
  · cases openers.openingAt t <;> rfl
  · rfl

/-- What a text starts with begins at its front, or after a blank at its front. -/
theorem prefix_cases {c : Char} {t v other : Text} (hv : Blank v) (hp : v ++ other <+: c :: t) :
    (v = [] ∧ other <+: c :: t) ∨
    ∃ u, v = c :: u ∧ isBlank c = true ∧ Blank u ∧ u ++ other <+: t := by
  cases v with
  | nil => exact .inl ⟨rfl, hp⟩
  | cons d u =>
    obtain ⟨rfl, hu⟩ := List.cons_prefix_cons.mp hp
    exact .inr ⟨u, rfl, hv d List.mem_cons_self, fun e he => hv e (List.mem_cons_of_mem _ he), hu⟩

theorem openingAt_eq_none {t v other : Text} (h : openers.openingAt t = none) (hv : Blank v)
    (hmem : other ∈ openers.alternatives) : ¬ v ++ other <+: t := by
  induction t generalizing v with
  | nil =>
    rw [openingAt_nil, Option.map_eq_none_iff, alternative?_eq_none_iff] at h
    intro hp
    obtain ⟨-, rfl⟩ := List.append_eq_nil_iff.mp (List.prefix_nil.mp hp)
    exact h [] hmem List.prefix_rfl
  | cons c t ih =>
    rw [openingAt_cons, Option.or_eq_none_iff, Option.map_eq_none_iff, Option.map_eq_none_iff] at h
    obtain ⟨hlater, hhere⟩ := h
    intro hp
    rcases prefix_cases hv hp with ⟨rfl, hp⟩ | ⟨u, rfl, hc, hu, hp⟩
    · exact alternative?_eq_none_iff.mp hhere other hmem hp
    · rw [if_pos hc] at hlater
      exact ih hlater hu hp

theorem opens_of_openingAt {t w literal : Text} (h : openers.openingAt t = some (w, literal)) :
    Opens openers t w literal := by
  induction t generalizing w with
  | nil =>
    obtain ⟨_, hf, he⟩ := Option.map_eq_some_iff.mp h
    cases he
    refine ⟨by simp [Blank], ⟨[], rfl, hf⟩, ?_⟩
    intro v other _ _ hp
    obtain ⟨rfl, -⟩ := List.append_eq_nil_iff.mp (List.prefix_nil.mp hp)
    exact Nat.le_refl _
  | cons c t ih =>
    rw [openingAt_cons, Option.or_eq_some_iff] at h
    rcases h with hlater | ⟨hlater, hhere⟩
    · obtain ⟨⟨u, _⟩, hf, he⟩ := Option.map_eq_some_iff.mp hlater
      cases he
      split at hf
      · rename_i hc
        obtain ⟨hblank, ⟨rest, ht, hfound⟩, hlongest⟩ := ih hf
        refine ⟨?_, ⟨rest, by rw [ht]; rfl, hfound⟩, ?_⟩
        · intro d hd
          rcases List.mem_cons.mp hd with rfl | hd
          · exact hc
          · exact hblank d hd
        · intro v other hv hmem hp
          rcases prefix_cases hv hp with ⟨rfl, -⟩ | ⟨v, rfl, -, hv, hp⟩
          · exact Nat.zero_le _
          · exact Nat.succ_le_succ (hlongest v other hv hmem hp)
      · cases hf
    · obtain ⟨_, hf, he⟩ := Option.map_eq_some_iff.mp hhere
      cases he
      refine ⟨by simp [Blank], ⟨c :: t, rfl, hf⟩, ?_⟩
      intro v other hv hmem hp
      rcases prefix_cases hv hp with ⟨rfl, -⟩ | ⟨u, rfl, hc, hu, hp⟩
      · exact Nat.le_refl _
      · rw [Option.map_eq_none_iff, if_pos hc] at hlater
        exact absurd hp (openingAt_eq_none hlater hu hmem)

theorem Opens.literal_prefix {t w literal : Text} (h : Opens openers t w literal) :
    w ++ literal <+: t := by
  obtain ⟨rest, rfl, hf⟩ := h.found
  exact (List.prefix_append_right_inj w).mpr (alternative?_eq_some hf).2

/-- Every indentation that an alternative follows is part of the one that is found. -/
theorem Opens.prefix_indent {t w literal v other : Text} (h : Opens openers t w literal)
    (hv : Blank v) (hmem : other ∈ openers.alternatives) (hp : v ++ other <+: t) : v <+: w :=
  List.prefix_of_prefix_length_le ((List.prefix_append v other).trans hp)
    ((List.prefix_append w literal).trans h.literal_prefix) (h.longest v other hv hmem hp)

end Longest

section Run

variable {offset : Nat} {atStart : Bool} {covered : Option Nat} {t : Text}

/-- An opening that a search reports after skipping a text, of which the last opening still covers
some characters. -/
structure Reported (openers : Openers) (offset : Nat) (atStart : Bool) (covered : Option Nat)
    (skipped rest : Text) (opening : Opening) : Prop where
  offset_eq : opening.offset = offset + skipped.byteLength
  line : LineAfter atStart skipped
  found : openers.openingAt rest = some (opening.indent, opening.token)
  clear : covered.getD 0 ≤ skipped.length
  filled : covered = some skipped.length → opening.literal ≠ []

theorem reported_here {w literal : Text}
    (h : openers.reported? atStart covered t = some (w, literal)) :
    Reported openers offset atStart covered [] t ⟨offset, w, literal⟩ := by
  obtain ⟨hstart, hclear, hfound, hfilled⟩ := reported?_eq_some_iff.mp h
  refine ⟨rfl, hstart, hfound, Nat.le_of_eq hclear, ?_⟩
  rintro rfl
  rcases hfilled with hnone | hfilled
  · cases hnone
  · exact hfilled

/-- One character that is skipped uncovers one. -/
theorem Reported.cons {c : Char} {skipped rest : Text} {opening : Opening}
    (h : Reported openers (offset + c.utf8Size) (c == '\n') (uncover covered) skipped rest opening) :
    Reported openers offset atStart covered (c :: skipped) rest opening := by
  have hclear := h.clear
  rw [uncover_reach] at hclear
  refine ⟨?_, h.line, h.found, ?_, ?_⟩
  · rw [h.offset_eq, byteLength_cons, Nat.add_assoc]
  · rw [List.length_cons]
    omega
  · rintro rfl
    exact h.filled rfl

theorem exists_reported {opening : Opening}
    (h : opening ∈ openers.openingsFrom offset atStart covered t) :
    ∃ skipped rest, t = skipped ++ rest ∧
      Reported openers offset atStart covered skipped rest opening := by
  induction t generalizing offset atStart covered with
  | nil =>
    rw [openingsFrom_nil, Option.mem_toList, Option.map_eq_some_iff] at h
    obtain ⟨⟨w, literal⟩, hf, rfl⟩ := h
    exact ⟨[], [], rfl, reported_here hf⟩
  | cons c t ih =>
    cases hf : openers.reported? atStart covered (c :: t) with
    | none =>
      rw [openingsFrom_of_none hf] at h
      obtain ⟨skipped, rest, rfl, hr⟩ := ih h
      exact ⟨c :: skipped, rest, rfl, hr.cons⟩
    | some found =>
      obtain ⟨w, literal⟩ := found
      rw [openingsFrom_of_some hf, List.mem_cons] at h
      rcases h with rfl | h
      · exact ⟨[], c :: t, rfl, reported_here hf⟩
      · -- what the last opening covered does not matter once another one is reported
        obtain ⟨hstart, hclear, -, -⟩ := reported?_eq_some_iff.mp hf
        obtain ⟨skipped, rest, rfl, hr⟩ := ih h
        refine ⟨c :: skipped, rest, rfl, ?_, hr.line, hr.found, by omega, ?_⟩
        · rw [hr.offset_eq, byteLength_cons, Nat.add_assoc]
        · rintro rfl
          cases hclear

section Reach

variable {w literal skipped : Text} (opens : Opens openers t w literal) (hs : skipped <+: t)
include opens hs

theorem Opens.stop_le_iff (offset : Nat) : (⟨offset, w, literal⟩ : Opening).stop ≤ offset + skipped.byteLength ↔
    w.length + literal.length ≤ skipped.length := by
  rw [Opening.stop, Nat.add_le_add_iff_left, Opening.literal,
    byteLength_le_iff opens.literal_prefix hs, List.length_append]

theorem Opens.le_stop_iff (offset : Nat) : offset + skipped.byteLength ≤ (⟨offset, w, literal⟩ : Opening).stop ↔
    skipped.length ≤ w.length + literal.length := by
  rw [Opening.stop, Nat.add_le_add_iff_left, Opening.literal,
    byteLength_le_iff hs opens.literal_prefix, List.length_append]

end Reach

/-- An opening ends at the latest where the search reports the next one. -/
theorem stop_of_reported {c : Char} {w literal skipped rest : Text} {next : Opening}
    (opens : Opens openers (c :: (skipped ++ rest)) w literal)
    (h : Reported openers (offset + c.utf8Size) (c == '\n')
      (uncover (some (w.length + literal.length))) skipped rest next) :
    (⟨offset, w, literal⟩ : Opening).stop ≤ next.offset ∧
      (next.literal = [] → (⟨offset, w, literal⟩ : Opening).stop < next.offset) := by
  have hclear := h.clear
  rw [uncover_reach, Option.getD_some] at hclear
  have hskipped : c :: skipped <+: c :: (skipped ++ rest) := List.prefix_append (c :: skipped) rest
  have hnext : next.offset = offset + byteLength (c :: skipped) := by
    rw [h.offset_eq, byteLength_cons, Nat.add_assoc]
  rw [hnext]
  refine ⟨(opens.stop_le_iff hskipped offset).mpr (by rw [List.length_cons]; omega), ?_⟩
  intro hempty
  rw [← Nat.not_le, opens.le_stop_iff hskipped offset, List.length_cons]
  intro hreach
  have hends : w.length + literal.length = skipped.length + 1 := by omega
  exact h.filled (by rw [hends]; rfl) hempty

/-- No opening begins before the one before it has ended, and an empty one not even there. -/
theorem openingsFrom_pairwise (openers : Openers) (offset : Nat) (atStart : Bool)
    (covered : Option Nat) (t : Text) :
    (openers.openingsFrom offset atStart covered t).Pairwise fun opening next =>
      opening.offset < next.offset ∧ opening.stop ≤ next.offset ∧
        (next.literal = [] → opening.stop < next.offset) := by
  induction t generalizing offset atStart covered with
  | nil =>
    rw [openingsFrom_nil]
    cases openers.reported? atStart covered [] <;> simp
  | cons c t ih =>
    cases hf : openers.reported? atStart covered (c :: t) with
    | none =>
      rw [openingsFrom_of_none hf]
      exact ih _ _ _
    | some found =>
      obtain ⟨w, literal⟩ := found
      have opens := opens_of_openingAt (reported?_eq_some_iff.mp hf).2.2.1
      rw [openingsFrom_of_some hf]
      refine .cons ?_ (ih _ _ _)
      intro next hn
      obtain ⟨skipped, rest, rfl, hr⟩ := exists_reported hn
      refine ⟨?_, stop_of_reported opens hr⟩
      have := c.utf8Size_pos
      rw [hr.offset_eq]
      dsimp only
      omega

/-- Where a line starts and something opens it, that is reported, unless the last opening is in the
way. -/
theorem reported_or_covered (offset : Nat) {w literal : Text} (line : atStart = true)
    (found : openers.openingAt t = some (w, literal)) :
    0 < covered.getD 0 ∨ (covered = some 0 ∧ w ++ literal = []) ∨
    ∃ opening ∈ openers.openingsFrom offset atStart covered t, opening.offset = offset := by
  by_cases hf : openers.reported? atStart covered t = some (w, literal)
  · refine .inr (.inr ⟨⟨offset, w, literal⟩, ?_, rfl⟩)
    cases t with
    | nil => simp [openingsFrom_nil, hf]
    | cons c t => simp [openingsFrom_of_some hf]
  · rw [reported?_eq_some_iff] at hf
    rcases covered with _ | _ | n
    · exact absurd ⟨line, rfl, found, .inl rfl⟩ hf
    · refine .inr (.inl ⟨rfl, ?_⟩)
      by_contra hne
      exact hf ⟨line, rfl, found, .inr hne⟩
    · exact .inl (Nat.succ_pos n)

theorem uncover_eq_some {n : Nat} (h : uncover covered = some n) : covered = some (n + 1) := by
  rcases covered with _ | _ | m
  · cases h
  · cases h
  · cases h
    rfl

/-- A line that something opens is reported, unless an opening covers its start, or ends there and
the line's own would be empty. -/
theorem openingsFrom_complete (offset : Nat) (covered : Option Nat)
    {skipped rest w literal : Text} (line : LineAfter atStart skipped)
    (found : openers.openingAt rest = some (w, literal)) :
    skipped.length < covered.getD 0 ∨ (covered = some skipped.length ∧ w ++ literal = []) ∨
    ∃ opening ∈ openers.openingsFrom offset atStart covered (skipped ++ rest),
      opening.offset = offset + skipped.byteLength ∨
      (opening.offset < offset + skipped.byteLength ∧
        (offset + skipped.byteLength < opening.stop ∨
          (opening.stop = offset + skipped.byteLength ∧ w ++ literal = []))) := by
  induction skipped generalizing offset atStart covered with
  | nil =>
    rcases reported_or_covered offset line found with h | h | ⟨opening, hmem, h⟩
    · exact .inl h
    · exact .inr (.inl h)
    · exact .inr (.inr ⟨opening, hmem, .inl h⟩)
  | cons c skipped ih =>
    have hplace : offset + byteLength (c :: skipped) = offset + c.utf8Size + byteLength skipped := by
      rw [byteLength_cons, Nat.add_assoc]
    rw [hplace, List.cons_append, List.length_cons]
    cases hf : openers.reported? atStart covered (c :: (skipped ++ rest)) with
    | none =>
      rw [openingsFrom_of_none hf]
      rcases ih (offset + c.utf8Size) (uncover covered) line with h | h | h
      · rw [uncover_reach] at h
        exact .inl (by omega)
      · exact .inr (.inl ⟨uncover_eq_some h.1, h.2⟩)
      · exact .inr (.inr h)
    | some front =>
      obtain ⟨v, other⟩ := front
      have opens := opens_of_openingAt (reported?_eq_some_iff.mp hf).2.2.1
      have hskipped : c :: skipped <+: c :: (skipped ++ rest) := List.prefix_append (c :: skipped) rest
      have hstop := opens.stop_le_iff hskipped offset
      have hle := opens.le_stop_iff hskipped offset
      rw [hplace, List.length_cons] at hstop hle
      have hbehind : offset < offset + c.utf8Size + byteLength skipped := by
        have := c.utf8Size_pos
        omega
      rw [openingsFrom_of_some hf]
      refine .inr (.inr ?_)
      rcases ih (offset + c.utf8Size) (uncover (some (v.length + other.length))) line with h | h | ⟨opening, hmem, h⟩
      · rw [uncover_reach, Option.getD_some] at h
        exact ⟨_, List.mem_cons_self, .inr ⟨hbehind, .inl (by omega)⟩⟩
      · have hreach := Option.some.inj (uncover_eq_some h.1)
        exact ⟨_, List.mem_cons_self, .inr ⟨hbehind, .inr ⟨by omega, h.2⟩⟩⟩
      · exact ⟨opening, List.mem_cons_of_mem _ hmem, h⟩

end Run

/-- An opening stands at the start of a line, with what opens the text from there on. -/
theorem exists_opens {opening : Opening} {t : Text} (h : opening ∈ openers.openings t) :
    ∃ before after, t = before ++ after ∧ before.byteLength = opening.offset ∧ EndsLine before ∧
      Opens openers after opening.indent opening.token := by
  obtain ⟨before, after, rfl, hr⟩ := exists_reported h
  have hoffset := hr.offset_eq
  rw [Nat.zero_add] at hoffset
  exact ⟨before, after, rfl, hoffset.symm, (lineAfter_iff_endsLine before).mp hr.line,
    opens_of_openingAt hr.found⟩

theorem mem_ofLiterals {tokens : List Text} {comment literal : Text} :
    literal ∈ (ofLiterals tokens comment).alternatives ↔ literal ∈ comment :: tokens :=
  (longestFirst_perm _).mem_iff

/-- Whatever the literals are, openings come in order and do not overlap, each at the start of a line.
An opening has the longest indentation that a literal follows, and the longest literal that follows
it. A line that starts at the end of the opening before it or further on has its own opening if a
literal follows some indentation there; only an empty one is left out where another one ends. -/
theorem openings_longest (tokens : List Text) (comment t : Text) :
    ((ofLiterals tokens comment).openings t).Pairwise (fun opening next =>
      opening.offset < next.offset ∧ opening.stop ≤ next.offset ∧
        (next.literal = [] → opening.stop < next.offset)) ∧
    (∀ opening ∈ (ofLiterals tokens comment).openings t, ∃ before after,
      t = before ++ opening.literal ++ after ∧ before.byteLength = opening.offset ∧
      EndsLine before ∧ Blank opening.indent ∧ opening.token ∈ comment :: tokens ∧
      (∀ w literal, Blank w → literal ∈ comment :: tokens →
        w ++ literal <+: opening.literal ++ after → w <+: opening.indent) ∧
      ∀ literal ∈ comment :: tokens,
        literal <+: opening.token ++ after → literal <+: opening.token) ∧
    ∀ before after, t = before ++ after → EndsLine before →
      (∃ w literal, Blank w ∧ literal ∈ comment :: tokens ∧ w ++ literal <+: after) →
      (∀ opening ∈ (ofLiterals tokens comment).openings t,
        opening.offset < before.byteLength → opening.stop ≤ before.byteLength) →
      (∃ opening ∈ (ofLiterals tokens comment).openings t, opening.offset = before.byteLength) ∨
        (∃ opening ∈ (ofLiterals tokens comment).openings t,
          opening.offset < before.byteLength ∧ opening.stop = before.byteLength) ∧
        ∀ w literal, Blank w → literal ∈ comment :: tokens → w ++ literal <+: after →
          w ++ literal = [] := by
  have longest : (ofLiterals tokens comment).alternatives.Pairwise fun a b => b.length ≤ a.length :=
    longestFirst_pairwise _
  refine ⟨openingsFrom_pairwise _ 0 true none t, ?_, ?_⟩
  · intro opening hmem
    obtain ⟨before, _, rfl, hoffset, hline, opens⟩ := exists_opens hmem
    obtain ⟨rest, rfl, hfound⟩ := opens.found
    obtain ⟨htoken, after, rfl⟩ := alternative?_eq_some hfound
    refine ⟨before, after, by simp [Opening.literal], hoffset, hline, opens.blank,
      mem_ofLiterals.mp htoken, ?_, ?_⟩
    · intro w literal hw hliteral hp
      rw [Opening.literal, List.append_assoc] at hp
      exact opens.prefix_indent hw (mem_ofLiterals.mpr hliteral) hp
    · intro literal hliteral hp
      exact prefix_of_alternative? longest hfound (mem_ofLiterals.mpr hliteral) hp
  · rintro before after rfl line ⟨v, other, hv, hother, hp⟩ hclear
    cases hf : (ofLiterals tokens comment).openingAt after with
    | none => exact absurd hp (openingAt_eq_none hf hv (mem_ofLiterals.mpr hother))
    | some found =>
      obtain ⟨w, literal⟩ := found
      have opens := opens_of_openingAt hf
      rcases openingsFrom_complete 0 none
        ((lineAfter_iff_endsLine before).mpr line) hf with h | ⟨h, -⟩ | ⟨opening, hmem, h⟩
      · exact absurd h (Nat.not_lt_zero _)
      · cases h
      · rw [Nat.zero_add] at h
        rcases h with h | ⟨hlt, hgt | ⟨hstop, hempty⟩⟩
        · exact .inl ⟨opening, hmem, h⟩
        · exact absurd (hclear opening hmem hlt) (Nat.not_le_of_lt hgt)
        · right
          refine ⟨⟨opening, hmem, hlt, hstop⟩, ?_⟩
          intro u literal' hu hliteral hp
          obtain ⟨rfl, rfl⟩ := List.append_eq_nil_iff.mp hempty
          obtain ⟨rest, rfl, hfound⟩ := opens.found
          obtain rfl := List.prefix_nil.mp (opens.prefix_indent hu (mem_ofLiterals.mpr hliteral) hp)
          exact List.prefix_nil.mp
            (prefix_of_alternative? longest hfound (mem_ofLiterals.mpr hliteral) hp)

/-- A token that reaches over the end of its line hides no line but the one that it reaches into, whose
own opening would be empty. -/
example : (ofLiterals ["-\n".toList, []] "#".toList).openings "-\nx\n".toList =
    [⟨0, [], "-\n".toList⟩, ⟨4, [], []⟩] := by decide +kernel

end Openers

end Checklist
