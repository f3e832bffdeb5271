import Mathlib.Data.Nat.ModEq
import Mathlib.Logic.Function.Iterate
import Checklist.Proofs.Advance

namespace Checklist.TokenSet
open Text

variable {set : TokenSet}

section Entries

theorem entry_mem_rotation (set : TokenSet) (place : Nat) : set.entry place ∈ set.rotation :=
  List.get_mem _ _

theorem entry_of_getElem? {place : Nat} {entry : Text} (h : set.rotation[place]? = some entry) :
    set.entry place = entry := by
  have hlt := (List.getElem?_eq_some_iff.mp h).1
  exact Option.some.inj ((rotation_getElem? set hlt).symm.trans h)

theorem rotation_getElem?_mod (set : TokenSet) (place : Nat) :
    set.rotation[place % (set.states.length + 1)]? = some (set.entry place) := by
  have hpos : 0 < set.rotation.length := by
    rw [rotation_length]
    exact Nat.succ_pos _
  rw [← rotation_length, rotation_getElem? set (Nat.mod_lt _ hpos), entry_mod]

/-- The entry that a text starts with has one place, up to whole turns of the rotation. -/
theorem Accepted.entry_place_of_prefix (h : set.Accepted) {i j : Nat} {t : Text}
    (hi : set.entry i <+: t) (hj : set.entry j <+: t) :
    i % (set.states.length + 1) = j % (set.states.length + 1) :=
  place_eq_of_prefix (rotation_apart h.prefix_apart) (rotation_getElem?_mod set i)
    (rotation_getElem?_mod set j) hi hj

theorem entry_congr {i j : Nat}
    (h : i % (set.states.length + 1) = j % (set.states.length + 1)) :
    set.entry i = set.entry j := by
  rw [← rotation_length] at h
  rw [← entry_mod, h, entry_mod]

/-- Entries some places apart are equal only after whole turns. -/
theorem Accepted.entry_add_eq_iff (h : set.Accepted) (place k : Nat) :
    set.entry (place + k) = set.entry place ↔ set.states.length + 1 ∣ k := by
  rw [← Nat.add_modEq_left_iff (a := place)]
  constructor
  · intro he
    exact h.entry_place_of_prefix (t := set.entry place) (he ▸ List.prefix_rfl) List.prefix_rfl
  · exact entry_congr

end Entries

section Steps

variable {w : Text}

/-- One advance: the entry at the end of the indentation is the one that is found, and the next one
takes its place. -/
theorem Accepted.advance_entry (h : set.Accepted) (hw : Blank w) (place : Nat) (rest : Text) :
    set.advance (w ++ set.entry place ++ rest) = w ++ set.entry (place + 1) ++ rest := by
  have hbody := h.body_entry hw place rest
  have hindent := h.indent_entry hw place rest
  rcases advance_cases set (w ++ set.entry place ++ rest) with
    ⟨found, rest', -, hrest, hadvance⟩ | ⟨hnone, -⟩
  · rw [hbody] at hrest
    have hplace : found % (set.states.length + 1) = place % (set.states.length + 1) := by
      apply h.entry_place_of_prefix (t := set.entry place ++ rest)
      · rw [hrest]
        exact List.prefix_append _ _
      · exact List.prefix_append _ _
    rw [entry_congr hplace] at hrest
    have hnext : set.entry (found + 1) = set.entry (place + 1) :=
      entry_congr (Nat.ModEq.add_right 1 hplace)
    rw [hadvance, hindent, hnext, List.append_cancel_left hrest]
  · rw [hbody] at hnone
    exact absurd (List.prefix_append _ _) (hnone _ (entry_mem_rotation set place))

/-- A run of advances turns the rotation and changes nothing else. -/
theorem Accepted.advance_iterate_entry (h : set.Accepted) (hw : Blank w) (place : Nat)
    (rest : Text) (k : Nat) :
    set.advance^[k] (w ++ set.entry place ++ rest) = w ++ set.entry (place + k) ++ rest := by
  induction k with
  | zero => rfl
  | succ k ih => rw [Function.iterate_succ_apply', ih, h.advance_entry hw, Nat.add_assoc]

theorem Accepted.advance_iterate_entry_eq_iff (h : set.Accepted) (hw : Blank w) (place : Nat)
    (rest : Text) (k : Nat) :
    set.advance^[k] (w ++ set.entry place ++ rest) = w ++ set.entry place ++ rest ↔
      set.states.length + 1 ∣ k := by
  rw [h.advance_iterate_entry hw, List.append_cancel_right_eq, List.append_cancel_left_eq,
    h.entry_add_eq_iff]

theorem Accepted.indent_advance (h : set.Accepted) (line : Text) :
    indent (set.advance line) = indent line := by
  obtain ⟨place, rest, -, hadvance⟩ := advance_eq set line
  rw [hadvance, h.indent_entry (blank_indent line)]

theorem Accepted.indent_advance_iterate (h : set.Accepted) (line : Text) (k : Nat) :
    indent (set.advance^[k] line) = indent line := by
  induction k with
  | zero => rfl
  | succ k ih => rw [Function.iterate_succ_apply', h.indent_advance, ih]

theorem advance_of_no_entry {line : Text}
    (hnone : ∀ entry ∈ set.rotation, ¬ entry <+: body line) :
    set.advance line = indent line ++ set.entry 0 ++ body line := by
  rcases advance_cases set line with ⟨place, rest, -, hrest, -⟩ | ⟨-, hadvance⟩
  · refine absurd ?_ (hnone _ (entry_mem_rotation set place))
    rw [hrest]
    exact List.prefix_append _ _
  · exact hadvance

/-- A line that no entry opens goes into the rotation at its first entry. -/
theorem Accepted.advance_iterate_of_no_entry (h : set.Accepted) {line : Text}
    (hnone : ∀ entry ∈ set.rotation, ¬ entry <+: body line) (k : Nat) :
    set.advance^[k + 1] line = indent line ++ set.entry k ++ body line := by
  rw [Function.iterate_succ_apply, advance_of_no_entry hnone,
    h.advance_iterate_entry (blank_indent line), Nat.zero_add]

/-- What an advance has written stays longer than the line was. -/
theorem Accepted.advance_iterate_ne_of_no_entry (h : set.Accepted) {line : Text}
    (hnone : ∀ entry ∈ set.rotation, ¬ entry <+: body line) (k : Nat) :
    set.advance^[k + 1] line ≠ line := by
  rw [h.advance_iterate_of_no_entry hnone]
  intro he
  have hlen := congrArg List.length (he.trans (indent_append_body line).symm)
  obtain ⟨c, tail, hc, -⟩ := (h.visible_entry k).opens
  simp only [hc, List.length_append, List.length_cons] at hlen
  omega

/-- As many advances as the rotation has entries bring back the lines that an entry opens, and no
others. -/
theorem Accepted.advance_iterate_rotation_eq_iff (h : set.Accepted) (line : Text) :
    set.advance^[set.states.length + 1] line = line ↔
      ∃ entry ∈ set.rotation, entry <+: body line := by
  constructor
  · intro he
    by_contra hnone
    have hno : ∀ entry ∈ set.rotation, ¬ entry <+: body line :=
      fun entry hentry hopens => hnone ⟨entry, hentry, hopens⟩
    exact h.advance_iterate_ne_of_no_entry hno set.states.length he
  · rintro ⟨entry, hentry, rest, hrest⟩
    obtain ⟨place, hplace⟩ := List.mem_iff_getElem?.mp hentry
    rw [← entry_of_getElem? hplace] at hrest
    have hline : indent line ++ set.entry place ++ rest = line := by
      rw [List.append_assoc, hrest, indent_append_body]
    have hturn := h.advance_iterate_entry_eq_iff (blank_indent line) place rest
      (set.states.length + 1)
    rw [hline] at hturn
    exact hturn.mpr (dvd_refl _)

end Steps

/-- Repeated advances turn the rotation: the indentation and the rest of the line stay for ever, a
line that an entry opens comes back after each whole turn and at no other time, and a line that no
entry opens never comes back. -/
theorem advance_iterate {engine : Engine} {states : List State} {comment : Text}
    (accepted : ofStates engine states comment = .ok set) (line : Text) (k : Nat) :
    (∀ place entry rest, set.rotation[place]? = some entry → line = indent line ++ entry ++ rest →
      (∃ next, set.rotation[(place + k) % (states.length + 1)]? = some next ∧
        set.advance^[k] line = indent line ++ next ++ rest) ∧
      (set.advance^[k] line = line ↔ states.length + 1 ∣ k)) ∧
    ((∀ entry ∈ set.rotation, ¬ entry <+: body line) → 1 ≤ k →
      (∃ next, set.rotation[(k - 1) % (states.length + 1)]? = some next ∧
        set.advance^[k] line = indent line ++ next ++ body line) ∧
      set.advance^[k] line ≠ line) ∧
    indent (set.advance^[k] line) = indent line := by
  obtain ⟨rfl, h, -⟩ := ofStates_eq_ok_iff.mp accepted
  have hw := blank_indent line
  refine ⟨?_, ?_, ?_⟩
  · intro place entry rest hplace hline
    rw [← entry_of_getElem? hplace] at hline
    generalize indent line = w at hline hw
    subst hline
    exact ⟨⟨_, rotation_getElem?_mod _ (place + k), h.advance_iterate_entry hw place rest k⟩,
      h.advance_iterate_entry_eq_iff hw place rest k⟩
  · intro hnone hk
    obtain ⟨k, rfl⟩ := Nat.exists_eq_succ_of_ne_zero (Nat.ne_of_gt hk)
    exact ⟨⟨_, rotation_getElem?_mod _ k, h.advance_iterate_of_no_entry hnone k⟩,
      h.advance_iterate_ne_of_no_entry hnone k⟩
  · exact h.indent_advance_iterate line k

/-- A state three places on, two whole turns, and a plain line that has just left its first turn. -/
theorem advance_iterate_standard :
    ofStates .usual defaultStates defaultComment = .ok standard ∧
    standard.advance^[3] "\t-> é".toList = "\t+ é".toList ∧
    standard.advance^[8] "\t-> é".toList = "\t-> é".toList ∧
    standard.advance^[6] "\t-> é".toList ≠ "\t-> é".toList ∧
    standard.advance^[5] "  --é".toList = "  - --é".toList ∧
    indent (standard.advance^[5] "  --é".toList) = "  ".toList := by
  have opened (k : Nat) := (advance_iterate ofStates_default "\t-> é".toList k).1
    2 "-> ".toList "é".toList (by decide) (by decide)
  obtain ⟨-, hplain, hindent⟩ := advance_iterate ofStates_default "  --é".toList 5
  obtain ⟨next, hnext, hthree⟩ := (opened 3).1
  cases Option.some.inj (hnext.symm.trans (by decide : _ = some "+ ".toList))
  obtain ⟨⟨first, hfirst, hfive⟩, -⟩ := hplain (by decide) (by decide)
  cases Option.some.inj (hfirst.symm.trans (by decide : _ = some "- ".toList))
  exact ⟨ofStates_default, hthree.trans (by decide), (opened 8).2.mpr (by decide),
    fun he => absurd ((opened 6).2.mp he) (by decide), hfive.trans (by decide),
    hindent.trans (by decide)⟩

end Checklist.TokenSet
