import Mathlib.Data.List.Induction
import Mathlib.Order.Bounds.Defs
import Checklist.Display
import Checklist.Proofs.Rows
import Checklist.Proofs.Width

namespace Checklist.Display
open Text

/-- A text with spaces in place of its tabs, as many for each as the list has at its place. -/
def spaced : List Nat → Text → Text
  | _, [] => []
  | pads, c :: t =>
    if c = '\t' then List.replicate (pads.headD 0) ' ' ++ spaced pads.tail t
    else c :: spaced pads t

/-- What one more character adds to an expanded text. -/
def expandChar (tabWidth : Nat) (out : Text) (c : Char) : Text :=
  if c = '\t' then padToStop tabWidth out else out ++ [c]

section Spaced

variable {pads : List Nat} {t : Text}

theorem spaced_append (h : pads.length = t.count '\t') (more : List Nat) (u : Text) :
    spaced (pads ++ more) (t ++ u) = spaced pads t ++ spaced more u := by
  induction t generalizing pads with
  | nil =>
    rw [List.eq_nil_of_length_eq_zero h]
    rfl
  | cons c t ih =>
    rw [List.cons_append, spaced, spaced]
    by_cases hc : c = '\t'
    · subst hc
      rw [List.count_cons_self] at h
      obtain ⟨n, pads, rfl⟩ := List.exists_cons_of_length_eq_add_one h
      rw [if_pos rfl, if_pos rfl, List.append_assoc]
      exact congrArg _ (ih (Nat.succ.inj h))
    · rw [List.count_cons_of_ne hc] at h
      rw [if_neg hc, if_neg hc, ih h, List.cons_append]

/-- Only as many places of the list matter as there are tabs. -/
theorem spaced_append_left (h : t.count '\t' ≤ pads.length) (more : List Nat) :
    spaced (pads ++ more) t = spaced pads t := by
  have htake : (pads.take (t.count '\t')).length = t.count '\t' := List.length_take_of_le h
  have key (surplus : List Nat) :
      spaced (pads.take (t.count '\t') ++ surplus) t = spaced (pads.take (t.count '\t')) t := by
    have := spaced_append htake surplus []
    rwa [List.append_nil, spaced, List.append_nil] at this
  calc spaced (pads ++ more) t
      = spaced (pads.take (t.count '\t') ++ (pads.drop (t.count '\t') ++ more)) t := by
        rw [← List.append_assoc, List.take_append_drop]
    _ = spaced (pads.take (t.count '\t') ++ pads.drop (t.count '\t')) t := by rw [key, key]
    _ = spaced pads t := by rw [List.take_append_drop]

theorem no_tab_spaced (pads : List Nat) (t : Text) : '\t' ∉ spaced pads t := by
  induction t generalizing pads with
  | nil => exact List.not_mem_nil
  | cons c t ih =>
    rw [spaced]
    split
    · rw [List.mem_append, not_or]
      exact ⟨fun h => absurd (List.eq_of_mem_replicate h) (by decide), ih _⟩
    · rename_i hc
      rw [List.mem_cons, not_or]
      exact ⟨Ne.symm hc, ih _⟩

end Spaced

/-- The pieces between the tabs are as good as the characters one by one. -/
theorem expandTabs_eq_foldl (tabWidth : Nat) (t : Text) :
    expandTabs tabWidth t = t.foldl (expandChar tabWidth) [] := by
  have key : ∀ (out first : Text) (rest : List Text), t.splitAll '\t' = first :: rest →
      rest.foldl (fun out piece => padToStop tabWidth out ++ piece) (out ++ first) =
        t.foldl (expandChar tabWidth) out := by
    induction t with
    | nil =>
      rintro out first rest ⟨⟩
      exact List.append_nil out
    | cons c t ih =>
      intro out first rest hs
      obtain ⟨piece, pieces, ht⟩ := List.exists_cons_of_ne_nil (splitAll_ne_nil '\t' t)
      rw [List.foldl_cons, expandChar]
      by_cases hc : c = '\t'
      · subst hc
        rw [splitAll_separator_cons, List.cons.injEq] at hs
        obtain ⟨rfl, rfl⟩ := hs
        rw [if_pos rfl, List.append_nil, ht, List.foldl_cons]
        exact ih _ piece pieces ht
      · rw [splitAll_cons_of_ne hc ht, List.cons.injEq] at hs
        obtain ⟨rfl, rfl⟩ := hs
        rw [if_neg hc, ← ih _ piece pieces ht, List.append_assoc]
        rfl
  obtain ⟨first, rest, hs⟩ := List.exists_cons_of_ne_nil (splitAll_ne_nil '\t' t)
  rw [expandTabs, hs]
  exact key [] first rest hs

theorem expandTabs_concat (tabWidth : Nat) (t : Text) (c : Char) :
    expandTabs tabWidth (t ++ [c]) = expandChar tabWidth (expandTabs tabWidth t) c := by
  rw [expandTabs_eq_foldl, expandTabs_eq_foldl, List.foldl_append, List.foldl_cons, List.foldl_nil]

/-- Nothing but spaces comes into a text. -/
theorem mem_of_mem_expandTabs {tabWidth : Nat} {t : Text} {c : Char}
    (h : c ∈ expandTabs tabWidth t) : c = ' ' ∨ c ∈ t := by
  induction t using List.reverseRecOn with
  | nil => exact .inr h
  | append_singleton t d ih =>
    rw [expandTabs_concat, expandChar] at h
    rw [List.mem_append]
    split at h
    · rw [padToStop, List.mem_append] at h
      rcases h with h | h
      · exact (ih h).imp_right .inl
      · exact .inl (List.eq_of_mem_replicate h)
    · rw [List.mem_append] at h
      rcases h with h | h
      · exact (ih h).imp_right .inl
      · exact .inr (.inr h)

section Stops

variable {tabWidth : Nat}

theorem isLeast_multiple (h : 0 < tabWidth) (n : Nat) :
    IsLeast {stop | tabWidth ∣ stop ∧ n < stop} (n + (tabWidth - n % tabWidth)) := by
  have hmod := Nat.mod_lt n h
  have hdiv := Nat.div_add_mod n tabWidth
  have hstop : n + (tabWidth - n % tabWidth) = tabWidth * (n / tabWidth + 1) := by
    rw [Nat.mul_add, Nat.mul_one]
    omega
  constructor
  · exact ⟨⟨_, hstop⟩, by omega⟩
  · rintro stop ⟨⟨k, rfl⟩, hk⟩
    rw [hstop]
    exact Nat.mul_le_mul_left _ (Nat.div_lt_of_lt_mul hk)

/-- Padding reaches the first tab stop to the right. -/
theorem isLeast_padToStop (h : 0 < tabWidth) (t : Text) :
    IsLeast {stop | tabWidth ∣ stop ∧ displayWidth t < stop} (displayWidth (padToStop tabWidth t)) := by
  rw [padToStop, displayWidth_append_spaces]
  exact isLeast_multiple h _

/-- A text is expanded with these numbers of spaces for its tabs, each up to the first stop to the
right of what is out by then. -/
structure Stopped (tabWidth : Nat) (pads : List Nat) (t : Text) : Prop where
  counted : pads.length = t.count '\t'
  bounded : ∀ n ∈ pads, 1 ≤ n ∧ n ≤ tabWidth
  expanded : expandTabs tabWidth t = spaced pads t
  stops : ∀ before after, t = before ++ '\t' :: after → ∃ n rest,
    pads[before.count '\t']? = some n ∧
    expandTabs tabWidth t = spaced pads before ++ List.replicate n ' ' ++ rest ∧
    IsLeast {stop | tabWidth ∣ stop ∧ displayWidth (spaced pads before) < stop}
      (displayWidth (spaced pads before ++ List.replicate n ' '))

variable {pads : List Nat} {t : Text}

theorem stopped_nil (tabWidth : Nat) : Stopped tabWidth [] [] where
  counted := rfl
  bounded _ hn := absurd hn List.not_mem_nil
  expanded := rfl
  stops before after h := absurd h.symm (by simp)

/-- The last character of a text is its last tab, or the tabs are those before it. -/
theorem split_concat {c : Char} {before after : Text} (h : t ++ [c] = before ++ '\t' :: after) :
    (c = '\t' ∧ t = before) ∨ ∃ rest, t = before ++ '\t' :: rest := by
  rcases List.eq_nil_or_concat after with rfl | ⟨rest, d, rfl⟩
  · obtain ⟨ht, hc⟩ := List.append_inj' h rfl
    exact .inl ⟨List.head_eq_of_cons_eq hc, ht⟩
  · rw [List.concat_eq_append, ← List.cons_append, ← List.append_assoc] at h
    exact .inr ⟨rest, (List.append_inj' h rfl).1⟩

theorem Stopped.concat_char (h : Stopped tabWidth pads t) {c : Char} (hc : c ≠ '\t') :
    Stopped tabWidth pads (t ++ [c]) := by
  have hout : expandTabs tabWidth (t ++ [c]) = expandTabs tabWidth t ++ [c] := by
    rw [expandTabs_concat, expandChar, if_neg hc]
  refine ⟨?_, h.bounded, ?_, ?_⟩
  · rw [List.count_append, List.count_cons_of_ne hc, List.count_nil, Nat.add_zero, h.counted]
  · have hspaced := spaced_append h.counted [] [c]
    rw [List.append_nil, spaced, if_neg hc, spaced] at hspaced
    rw [hout, h.expanded, hspaced]
  · intro before after hsplit
    rcases split_concat hsplit with ⟨rfl, -⟩ | ⟨after, ht⟩
    · exact absurd rfl hc
    · obtain ⟨n, rest, hn, hrest, hleast⟩ := h.stops before after ht
      exact ⟨n, rest ++ [c], hn, by rw [hout, hrest, List.append_assoc], hleast⟩

theorem Stopped.concat_tab (pos : 0 < tabWidth) (h : Stopped tabWidth pads t) :
    ∃ n, Stopped tabWidth (pads ++ [n]) (t ++ ['\t']) := by
  have hmod := Nat.mod_lt (displayWidth (expandTabs tabWidth t)) pos
  have hleast := isLeast_padToStop pos (expandTabs tabWidth t)
  have hout : expandTabs tabWidth (t ++ ['\t']) = padToStop tabWidth (expandTabs tabWidth t) := by
    rw [expandTabs_concat, expandChar, if_pos rfl]
  obtain ⟨n, hn⟩ : ∃ n, n = tabWidth - displayWidth (expandTabs tabWidth t) % tabWidth := ⟨_, rfl⟩
  rw [padToStop, ← hn, h.expanded] at hleast hout
  have hkeep {before : Text} (hle : before.count '\t' ≤ pads.length) :
      spaced (pads ++ [n]) before = spaced pads before := spaced_append_left hle _
  refine ⟨n, ?_, ?_, ?_, ?_⟩
  · rw [List.length_append, List.count_append, h.counted]
    rfl
  · intro m hm
    rcases List.mem_append.mp hm with hm | hm
    · exact h.bounded m hm
    · rw [List.mem_singleton.mp hm]
      omega
  · rw [hout, spaced_append h.counted]
    simp [spaced]
  · intro before after hsplit
    rcases split_concat hsplit with ⟨-, rfl⟩ | ⟨after, rfl⟩
    · rw [hkeep (Nat.le_of_eq h.counted.symm), ← h.counted, List.getElem?_concat_length]
      exact ⟨n, [], rfl, by rw [hout, List.append_nil], hleast⟩
    · obtain ⟨m, rest, hm, hrest, hstop⟩ := h.stops before after rfl
      have hplace := (List.getElem?_eq_some_iff.mp hm).1
      rw [hkeep (Nat.le_of_lt hplace), List.getElem?_append_left hplace]
      refine ⟨m, rest ++ List.replicate n ' ', hm, ?_, hstop⟩
      rw [hout, ← h.expanded, hrest, List.append_assoc]

end Stops

/-- Every tab becomes one space at least and as many as the tab width at most, up to the first stop
to the right of the text before it. All other characters stay in order. -/
theorem expandTabs_stops {tabWidth : Nat} (pos : 0 < tabWidth) (t : Text) :
    '\t' ∉ expandTabs tabWidth t ∧ ∃ pads, Stopped tabWidth pads t := by
  have hstopped : ∃ pads, Stopped tabWidth pads t := by
    induction t using List.reverseRecOn with
    | nil => exact ⟨[], stopped_nil tabWidth⟩
    | append_singleton t c ih =>
      obtain ⟨pads, h⟩ := ih
      by_cases hc : c = '\t'
      · subst hc
        obtain ⟨n, hn⟩ := h.concat_tab pos
        exact ⟨_, hn⟩
      · exact ⟨pads, h.concat_char hc⟩
  obtain ⟨pads, h⟩ := hstopped
  refine ⟨?_, pads, h⟩
  rw [h.expanded]
  exact no_tab_spaced pads t

/-- A letter with a mark, a family of three drawn as one picture, and a tab that starts at a stop. -/
theorem expandTabs_stops_joined :
    0 < 4 ∧ '\t' ∉ expandTabs 4 "a\u0301\t👨\u200d👩\u200d👧\t\tx".toList ∧
    (∃ pads, Stopped 4 pads "a\u0301\t👨\u200d👩\u200d👧\t\tx".toList) ∧
    expandTabs 4 "a\u0301\t👨\u200d👩\u200d👧\t\tx".toList =
      "a\u0301   👨\u200d👩\u200d👧      x".toList := by
  have pos : 0 < 4 := by decide
  obtain ⟨hno, hstopped⟩ := expandTabs_stops pos "a\u0301\t👨\u200d👩\u200d👧\t\tx".toList
  exact ⟨pos, hno, hstopped, by decide +kernel⟩

end Checklist.Display
