import Checklist.Proofs.Files
import Checklist.Proofs.LineIndex

namespace Checklist

namespace Text

/-- The bytes of a text one by one. -/
def octets (t : Text) : List UInt8 :=
  t.bytes.data.toList

/-- The bytes of a span of a text. -/
def octetsIn (t : Text) (span : Span) : List UInt8 :=
  (t.octets.drop span.start).take (span.stop - span.start)

/-- The byte of a line feed. -/
def feedOctet : UInt8 := 10

/-- An offset where a character begins, or where the text ends. -/
def Boundary (t : Text) (offset : Nat) : Prop :=
  ∃ before after, t = before ++ after ∧ before.byteLength = offset

section Octets

theorem octets_append (t u : Text) : octets (t ++ u) = octets t ++ octets u := by
  simp [octets, bytes]

theorem octets_nil : octets [] = [] := rfl

theorem octets_singleton (c : Char) : octets [c] = String.utf8EncodeChar c := by
  simp [octets, bytes, List.utf8Encode_singleton]

theorem octets_cons (c : Char) (t : Text) :
    octets (c :: t) = String.utf8EncodeChar c ++ octets t := by
  rw [← octets_singleton, ← octets_append, List.singleton_append]

theorem octets_length (t : Text) : t.octets.length = t.byteLength := by
  induction t with
  | nil => rfl
  | cons c t ih =>
    rw [octets_cons, List.length_append, ih, String.length_utf8EncodeChar, byteLength_cons]

theorem encode_feed : String.utf8EncodeChar '\n' = [feedOctet] := by decide

theorem feedOctet_ne {n : Nat} (hlt : n < 256) (hn : n ≠ 10) : feedOctet ≠ UInt8.ofNat n := by
  intro h
  have hval := congrArg UInt8.toNat h
  rw [UInt8.toNat_ofNat_of_lt' hlt] at hval
  exact hn hval.symm

/-- The byte of a line feed is no part of another character. -/
theorem feedOctet_not_mem_encode {c : Char} (hc : c ≠ '\n') :
    feedOctet ∉ String.utf8EncodeChar c := by
  have hval : c.val.toNat ≠ 10 := fun h => hc (Char.ext (UInt32.toNat_inj.mp h))
  intro hmem
  simp only [String.utf8EncodeChar] at hmem
  -- one byte is the character itself, and all bytes of several are above those of one
  split at hmem
  · exact feedOctet_ne (by omega) hval (List.mem_singleton.mp hmem)
  · split at hmem
    · simp only [List.mem_cons, List.not_mem_nil, or_false] at hmem
      rcases hmem with h | h <;> exact feedOctet_ne (by omega) (by omega) h
    · split at hmem
      · simp only [List.mem_cons, List.not_mem_nil, or_false] at hmem
        rcases hmem with h | h | h <;> exact feedOctet_ne (by omega) (by omega) h
      · simp only [List.mem_cons, List.not_mem_nil, or_false] at hmem
        rcases hmem with h | h | h | h <;> exact feedOctet_ne (by omega) (by omega) h

/-- Each line feed brings its byte, and nothing else does. -/
theorem count_feedOctet (t : Text) : t.octets.count feedOctet = t.count '\n' := by
  induction t with
  | nil => rfl
  | cons c t ih =>
    rw [octets_cons, List.count_append, ih]
    by_cases hc : c = '\n'
    · subst hc
      rw [encode_feed, List.count_singleton_self, List.count_cons_self, Nat.add_comm]
    · rw [List.count_eq_zero.mpr (feedOctet_not_mem_encode hc), Nat.zero_add,
        List.count_cons_of_ne hc]

theorem feedOctet_not_mem_octets {t : Text} (h : '\n' ∉ t) : feedOctet ∉ t.octets := by
  rw [← List.count_eq_zero, count_feedOctet, List.count_eq_zero]
  exact h

theorem octetsIn_append (a b c : Text) :
    (a ++ b ++ c).octetsIn ⟨a.byteLength, a.byteLength + b.byteLength⟩ = b.octets := by
  simp only [octetsIn, Nat.add_sub_cancel_left]
  rw [List.append_assoc, octets_append, octets_append, ← octets_length a, ← octets_length b,
    List.drop_left, List.take_left]

end Octets

end Text

namespace LineIndex
open Text

section Search

/-- Of ascending numbers those up to a bound come first. -/
theorem le_iff_lt_countP {l : List Nat} (ascending : l.Pairwise (· < ·)) {i n bound : Nat}
    (h : l[i]? = some n) : n ≤ bound ↔ i < l.countP (· ≤ bound) := by
  induction l generalizing i with
  | nil => cases h
  | cons m rest ih =>
    obtain ⟨hm, hrest⟩ := List.pairwise_cons.mp ascending
    by_cases hle : m ≤ bound
    · rw [List.countP_cons_of_pos (by simpa using hle)]
      cases i with
      | zero =>
        cases Option.some.inj h
        exact iff_of_true hle (Nat.succ_pos _)
      | succ i => rw [ih hrest h, Nat.succ_lt_succ_iff]
    · have hbeyond : ∀ k ∈ m :: rest, ¬ k ≤ bound := by
        intro k hk
        rcases List.mem_cons.mp hk with rfl | hk
        · exact hle
        · have := hm k hk
          omega
      have hnone : (m :: rest).countP (· ≤ bound) = 0 := by
        simpa only [List.countP_eq_zero, decide_eq_true_eq] using hbeyond
      rw [hnone]
      exact iff_of_false (hbeyond n (List.mem_of_getElem? h)) (Nat.not_lt_zero _)

theorem rowStarts_pairwise (offset : Nat) (rows : List Text) :
    (rowStarts offset rows).Pairwise (· < ·) := by
  induction rows generalizing offset with
  | nil => exact .nil
  | cons row rest ih =>
    refine .cons ?_ (ih _)
    intro start hs
    have := le_of_mem_rowStarts hs
    omega

theorem starts_pairwise (t : Text) : (ofText t).starts.Pairwise (· < ·) := by
  rw [starts_ofText]
  exact rowStarts_pairwise 0 t.rows

theorem lineOf_lt (t : Text) (offset : Nat) : (ofText t).lineOf offset < (ofText t).lineCount := by
  have := lineOf_succ t offset
  have hle := List.countP_le_length (p := (· ≤ offset)) (l := (ofText t).starts)
  rw [lineCount]
  omega

/-- The starts that an offset has reached are those of its line and of the lines before. -/
theorem start_le_iff {t : Text} {i start : Nat} (h : (ofText t).starts[i]? = some start)
    (offset : Nat) : start ≤ offset ↔ i ≤ (ofText t).lineOf offset := by
  rw [le_iff_lt_countP (starts_pairwise t) h, ← lineOf_succ, Nat.lt_succ_iff]

end Search

section Counting

/-- A line starts after the line feed of the one before it, so no start is within a character. -/
theorem le_of_mem_startsAfter {offset start : Nat} {c : Char} {t : Text}
    (h : start ∈ startsAfter offset (c :: t)) : offset + c.utf8Size ≤ start := by
  have hlater (first : Nat) (hs : start ∈ first :: startsAfter first t) : first ≤ start := by
    rw [cons_startsAfter] at hs
    exact le_of_mem_rowStarts hs
  rw [startsAfter] at h
  split at h
  · rename_i hc
    subst hc
    exact hlater _ h
  · exact hlater _ (List.mem_cons_of_mem _ h)

/-- The starts up to an offset are as many as the line feeds before it, also where the offset is
within a character. -/
theorem countP_startsAfter (offset n : Nat) (t : Text) :
    (startsAfter offset t).countP (· ≤ offset + n) = (t.octets.take n).count feedOctet := by
  induction t generalizing offset n with
  | nil => simp [startsAfter, octets, bytes]
  | cons c t ih =>
    have hlen := String.length_utf8EncodeChar c
    rcases Nat.lt_or_ge n c.utf8Size with hlt | hge
    · have hbefore : (startsAfter offset (c :: t)).countP (· ≤ offset + n) = 0 := by
        rw [List.countP_eq_zero]
        intro start hs
        have := le_of_mem_startsAfter hs
        rw [decide_eq_true_eq]
        omega
      rw [hbefore, octets_cons, List.take_append_of_le_length (by omega), eq_comm,
        List.count_eq_zero]
      intro hm
      by_cases hc : c = '\n'
      · subst hc
        rw [Nat.lt_one_iff.mp hlt, List.take_zero] at hm
        cases hm
      · exact feedOctet_not_mem_encode hc (List.mem_of_mem_take hm)
    · obtain ⟨k, rfl⟩ := Nat.exists_eq_add_of_le hge
      rw [octets_cons, List.take_append, hlen, List.take_of_length_le (by omega),
        Nat.add_sub_cancel_left, List.count_append, startsAfter, ← Nat.add_assoc]
      split
      · rename_i hc
        subst hc
        rw [encode_feed, List.countP_cons_of_pos (by simp), utf8Size_feed, ih,
          List.count_singleton_self]
        exact Nat.add_comm _ _
      · rename_i hc
        rw [ih, List.count_eq_zero.mpr (feedOctet_not_mem_encode hc), Nat.zero_add]

theorem lineOf_eq_count (t : Text) (offset : Nat) :
    (ofText t).lineOf offset = (t.octets.take offset).count feedOctet := by
  have h := countP_startsAfter 0 offset t
  rw [Nat.zero_add] at h
  exact h

theorem lineCount_eq_count (t : Text) :
    (ofText t).lineCount = t.octets.count feedOctet + 1 := by
  rw [lineCount_ofText, rows_length, count_feedOctet]

/-- An offset further on is on the same line or a later one. -/
theorem lineOf_mono (t : Text) {a b : Nat} (h : a ≤ b) :
    (ofText t).lineOf a ≤ (ofText t).lineOf b := by
  rw [lineOf_eq_count, lineOf_eq_count]
  exact (List.take_sublist_take_left h).count_le _

end Counting

section Places

variable {t : Text} {i offset : Nat} {span content : Span}

theorem exists_lineSpan_iff {index : LineIndex} :
    (∃ span, index.lineSpan i = some span) ↔ i < index.lineCount := by
  rw [← Option.ne_none_iff_exists', ne_eq, lineSpan_eq_none_iff, Nat.not_le]

theorem exists_contentSpan_iff {index : LineIndex} :
    (∃ content, index.contentSpan t i = some content) ↔ i < index.lineCount := by
  rw [← exists_lineSpan_iff]
  constructor
  · rintro ⟨content, h⟩
    obtain ⟨span, hspan, -⟩ := Option.map_eq_some_iff.mp h
    exact ⟨span, hspan⟩
  · rintro ⟨span, hspan⟩
    exact ⟨_, Option.map_eq_some_iff.mpr ⟨span, hspan, rfl⟩⟩

theorem lineSpan_eq_some {index : LineIndex} (h : index.lineSpan i = some span) :
    index.starts[i]? = some span.start ∧
      span.stop = (index.starts[i + 1]?).getD index.length := by
  obtain ⟨start, hstart, rfl⟩ := Option.map_eq_some_iff.mp h
  exact ⟨hstart, rfl⟩

theorem start_of_first (h : (ofText t).lineSpan 0 = some span) : span.start = 0 := by
  obtain ⟨hstart, -⟩ := lineSpan_eq_some h
  exact (Option.some.inj hstart).symm

/-- A line ends where the next one starts. -/
theorem stop_eq_start {index : LineIndex} {next : Span} (h : index.lineSpan i = some span)
    (hnext : index.lineSpan (i + 1) = some next) : span.stop = next.start := by
  obtain ⟨-, hstop⟩ := lineSpan_eq_some h
  rw [hstop, (lineSpan_eq_some hnext).1, Option.getD_some]

theorem stop_of_last (h : (ofText t).lineSpan i = some span)
    (hlast : i + 1 = (ofText t).lineCount) : span.stop = t.byteLength := by
  obtain ⟨-, hstop⟩ := lineSpan_eq_some h
  rw [hstop, List.getElem?_eq_none (Nat.le_of_eq hlast.symm), Option.getD_none]
  rfl

/-- The span of a line holds the offsets that are on the line. -/
theorem contains_iff_eq_lineOf (h : (ofText t).lineSpan i = some span)
    (hoffset : offset < t.byteLength) :
    (span.start ≤ offset ∧ offset < span.stop) ↔ i = (ofText t).lineOf offset := by
  obtain ⟨hstart, hstop⟩ := lineSpan_eq_some h
  have hlow := start_le_iff hstart offset
  cases hnext : (ofText t).starts[i + 1]? with
  | none =>
    have hlt := lineOf_lt t offset
    have hlast := List.getElem?_eq_none_iff.mp hnext
    have hend : span.stop = t.byteLength := by rw [hstop, hnext, Option.getD_none]; rfl
    rw [lineCount] at hlt
    omega
  | some next =>
    have hhigh := start_le_iff hnext offset
    rw [hnext, Option.getD_some] at hstop
    omega

/-- The start of its line is the last one that an offset has reached. -/
theorem exists_start (t : Text) (offset : Nat) :
    ∃ start, (ofText t).starts[(ofText t).lineOf offset]? = some start ∧ start ≤ offset := by
  have hstart := List.getElem?_eq_getElem (lineOf_lt t offset)
  exact ⟨_, hstart, (start_le_iff hstart offset).mpr (Nat.le_refl _)⟩

/-- A search among the starts that hits an offset finds its line. -/
theorem lineOf_of_hit (h : (ofText t).starts[i]? = some offset) :
    (ofText t).lineOf offset = i := by
  have hle := (start_le_iff h offset).mp (Nat.le_refl _)
  obtain ⟨start, hstart, hstart_le⟩ := exists_start t offset
  refine Nat.le_antisymm (Nat.le_of_not_lt fun hlt => ?_) hle
  obtain ⟨hi, hoffset⟩ := List.getElem?_eq_some_iff.mp h
  obtain ⟨hj, hvalue⟩ := List.getElem?_eq_some_iff.mp hstart
  have hascending := List.pairwise_iff_getElem.mp (starts_pairwise t) _ _ hi hj hlt
  omega

/-- A search that misses an offset finds the place behind its line. -/
theorem lineOf_of_miss (hi : i ≤ (ofText t).lineCount)
    (hbefore : ∀ start ∈ (ofText t).starts.take i, start < offset)
    (hafter : ∀ start ∈ (ofText t).starts.drop i, offset < start) :
    (ofText t).lineOf offset + 1 = i := by
  rw [lineOf_succ, ← List.take_append_drop i (ofText t).starts, List.countP_append,
    List.countP_eq_length.mpr, List.countP_eq_zero.mpr, List.length_take_of_le hi, Nat.add_zero]
  · intro start hs
    have := hafter start hs
    rw [decide_eq_true_eq]
    omega
  · intro start hs
    exact decide_eq_true (Nat.le_of_lt (hbefore start hs))

/-- The rows before, at and after the place of a span. -/
theorem exists_rows (h : (ofText t).lineSpan i = some span) :
    ∃ pre row post, t.rows = pre ++ row :: post ∧ pre.length = i := by
  rcases line_cases t i with ⟨-, hnone⟩ | ⟨pre, row, post, hsplit, hlen, -⟩
  · rw [hnone] at h
    cases h
  · exact ⟨pre, row, post, hsplit, hlen⟩

/-- A line feed ends every line but the last, and no line has another. -/
theorem octetsIn_lineSpan (h : (ofText t).lineSpan i = some span) :
    (i + 1 < (ofText t).lineCount →
      ∃ front, t.octetsIn span = front ++ [feedOctet] ∧ feedOctet ∉ front) ∧
    (i + 1 = (ofText t).lineCount → feedOctet ∉ t.octetsIn span) := by
  obtain ⟨pre, row, post, hsplit, rfl⟩ := exists_rows h
  have hrow : '\n' ∉ row := no_feed_of_mem_rows (t := t) (by simp [hsplit])
  cases Option.some.inj (h.symm.trans (lineSpan_ofText hsplit))
  have hbytes : t.octetsIn ⟨(ended pre).byteLength, (ended pre).byteLength +
      (row ++ feed post).byteLength⟩ = (row ++ feed post).octets := by
    conv => lhs; rw [eq_of_rows_eq_raw hsplit]
    exact octetsIn_append _ _ _
  rw [hbytes, lineCount_ofText, hsplit, octets_append, List.length_append, List.length_cons]
  refine ⟨?_, ?_⟩
  · intro hlt
    have hpost : post ≠ [] := List.ne_nil_of_length_pos (by omega)
    exact ⟨row.octets, by rw [feed, if_neg hpost, octets_singleton, encode_feed],
      feedOctet_not_mem_octets hrow⟩
  · intro hlast
    have hpost : post = [] := List.eq_nil_of_length_eq_zero (by omega)
    rw [feed, if_pos hpost, octets_nil, List.append_nil]
    exact feedOctet_not_mem_octets hrow

/-- The content of a line is where its span begins, and no character is cut. -/
theorem content_within (h : (ofText t).lineSpan i = some span)
    (hcontent : (ofText t).contentSpan t i = some content) :
    content.start = span.start ∧ content.start ≤ content.stop ∧ content.stop ≤ span.stop ∧
      span.stop ≤ t.byteLength ∧ t.Boundary content.start ∧ t.Boundary content.stop ∧
      t.Boundary span.stop := by
  obtain ⟨pre, row, post, hsplit, rfl⟩ := exists_rows h
  cases Option.some.inj (h.symm.trans (lineSpan_ofText hsplit))
  cases Option.some.inj (hcontent.symm.trans (contentSpan_ofText hsplit))
  have hlen := congrArg byteLength (content_append_carriage row)
  have htext := eq_of_rows_eq_raw hsplit
  have htotal := congrArg byteLength htext
  simp only [byteLength_append] at hlen htotal
  refine ⟨rfl, Nat.le_add_right _ _, ?_, ?_, ?_, ?_, ?_⟩
  · simp only [byteLength_append]
    omega
  · simp only [byteLength_append]
    omega
  · exact ⟨ended pre, _, (eq_of_rows_eq_content hsplit).trans (List.append_assoc _ _ _), rfl⟩
  · exact ⟨ended pre ++ content row, _, eq_of_rows_eq_content hsplit, byteLength_append _ _⟩
  · exact ⟨ended pre ++ (row ++ feed post), _, htext, byteLength_append _ _⟩

end Places

/-- The spans of a text are its lines: one more than it has line feeds, one after another from its
start to its end, each but the last up to the byte of its only line feed. The content of a line is
an initial part of its span and cuts no character. The line of an offset is the number of line feeds
before it, for an offset within a character or past the end as well, and a search among the starts
finds it, whether it hits or misses. -/
theorem ofText_partition (t : Text) :
    (ofText t).lineCount = t.octets.count feedOctet + 1 ∧
    (∀ i, (∃ span, (ofText t).lineSpan i = some span) ↔ i < (ofText t).lineCount) ∧
    (∀ i, (∃ content, (ofText t).contentSpan t i = some content) ↔ i < (ofText t).lineCount) ∧
    (∀ span, (ofText t).lineSpan 0 = some span → span.start = 0) ∧
    (∀ i span next, (ofText t).lineSpan i = some span → (ofText t).lineSpan (i + 1) = some next →
      span.stop = next.start) ∧
    (∀ i span, (ofText t).lineSpan i = some span →
      (i + 1 < (ofText t).lineCount →
        ∃ front, t.octetsIn span = front ++ [feedOctet] ∧ feedOctet ∉ front) ∧
      (i + 1 = (ofText t).lineCount →
        span.stop = t.octets.length ∧ feedOctet ∉ t.octetsIn span)) ∧
    (∀ i span content, (ofText t).lineSpan i = some span →
      (ofText t).contentSpan t i = some content →
      content.start = span.start ∧ content.start ≤ content.stop ∧ content.stop ≤ span.stop ∧
        span.stop ≤ t.octets.length ∧ t.Boundary content.start ∧ t.Boundary content.stop ∧
        t.Boundary span.stop) ∧
    (∀ offset, (ofText t).lineOf offset = (t.octets.take offset).count feedOctet) ∧
    (∀ offset < t.octets.length, ∀ i, i = (ofText t).lineOf offset ↔
      ∃ span, (ofText t).lineSpan i = some span ∧ span.start ≤ offset ∧ offset < span.stop) ∧
    (∀ a b, a ≤ b → (ofText t).lineOf a ≤ (ofText t).lineOf b) ∧
    (∀ i offset, (ofText t).starts[i]? = some offset → (ofText t).lineOf offset = i) ∧
    ∀ i ≤ (ofText t).lineCount, ∀ offset, (∀ start ∈ (ofText t).starts.take i, start < offset) →
      (∀ start ∈ (ofText t).starts.drop i, offset < start) → (ofText t).lineOf offset + 1 = i := by
  rw [octets_length]
  refine ⟨lineCount_eq_count t, fun i => exists_lineSpan_iff, fun i => exists_contentSpan_iff,
    fun span => start_of_first, fun i span next => stop_eq_start, ?_,
    fun i span content => content_within, lineOf_eq_count t, ?_, fun a b => lineOf_mono t,
    fun i offset => lineOf_of_hit, fun i hi offset => lineOf_of_miss hi⟩
  · intro i span hspan
    obtain ⟨hmore, hlast⟩ := octetsIn_lineSpan hspan
    exact ⟨hmore, fun hi => ⟨stop_of_last hspan hi, hlast hi⟩⟩
  · intro offset hoffset i
    constructor
    · rintro rfl
      obtain ⟨span, hspan⟩ := exists_lineSpan_iff.mpr (lineOf_lt t offset)
      exact ⟨span, hspan, (contains_iff_eq_lineOf hspan hoffset).mpr rfl⟩
    · rintro ⟨span, hspan, hwithin⟩
      exact (contains_iff_eq_lineOf hspan hoffset).mp hwithin

/-- An offset within a character, the one just after a line feed, and one past the end. -/
example : [1, 3, 9].map (ofText "é\nb".toList).lineOf = [0, 1, 1] := by decide

end LineIndex
end Checklist
