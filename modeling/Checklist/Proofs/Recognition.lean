import Checklist.Proofs.Advance
import Checklist.Proofs.Openings

namespace Checklist.TokenSet
open Text

variable {set : TokenSet}

section Entries

theorem rotationPrefix_eq_none_iff {t : Text} :
    set.rotationPrefix t = none ↔ ∀ entry ∈ set.rotation, ¬ entry <+: t := by
  simp [rotationPrefix, List.findIdx?_eq_none_iff, ← List.isPrefixOf_iff_prefix]

/-- Entries are apart, so that the first one found is the only one. -/
theorem Accepted.rotationPrefix_eq_some (h : set.Accepted) {place : Nat} {entry t : Text}
    (hplace : set.rotation[place]? = some entry) (hopens : entry <+: t) :
    set.rotationPrefix t = some place := by
  apply findIdx?_eq_some_of_unique hplace
  · exact List.isPrefixOf_iff_prefix.mpr hopens
  · intro j other hj ho
    exact place_eq_of_prefix (rotation_apart h.prefix_apart) hj hplace
      (List.isPrefixOf_iff_prefix.mp ho) hopens

theorem rotation_getElem?_state {place : Nat} {state : State}
    (h : set.states[place]? = some state) : set.rotation[place]? = some state.token := by
  have hlt : place < set.states.length := (List.getElem?_eq_some_iff.mp h).1
  rw [rotation, List.getElem?_append_left (by simpa using hlt), List.getElem?_map, h]
  rfl

theorem rotation_getElem?_comment (set : TokenSet) :
    set.rotation[set.states.length]? = some (set.comment ++ [' ']) := by
  simp [rotation]

/-- Every entry of the rotation begins with a literal. -/
theorem exists_literal_prefix {entry : Text} (h : entry ∈ set.rotation) :
    ∃ literal ∈ set.literals, literal <+: entry := by
  rcases List.mem_append.mp h with hm | hm
  · exact ⟨entry, List.mem_append_left _ hm, List.prefix_rfl⟩
  · rw [List.mem_singleton.mp hm]
    exact ⟨set.comment, by simp [literals], List.prefix_append _ _⟩

theorem rotationPrefix_of_plain {t : Text} (h : ∀ literal ∈ set.literals, ¬ literal <+: t) :
    set.rotationPrefix t = none := by
  rw [rotationPrefix_eq_none_iff]
  intro entry he hp
  obtain ⟨literal, hl, hle⟩ := exists_literal_prefix he
  exact h literal hl (hle.trans hp)

/-- A comment marker is an entry only together with the space after it. -/
theorem Accepted.rotationPrefix_comment (h : set.Accepted) {t : Text} (hopens : set.comment <+: t) :
    set.rotationPrefix t =
      if t[set.comment.length]? = some ' ' then some set.states.length else none := by
  obtain ⟨rest, rfl⟩ := hopens
  rw [List.getElem?_append_right (Nat.le_refl _), Nat.sub_self]
  split
  · rename_i hspace
    apply h.rotationPrefix_eq_some (rotation_getElem?_comment set)
    rw [List.prefix_append_right_inj]
    cases rest with
    | nil => simp at hspace
    | cons c rest =>
      cases Option.some.inj hspace
      exact List.prefix_append [' '] rest
  · rename_i hspace
    rw [rotationPrefix_eq_none_iff]
    intro entry he hp
    rcases List.mem_append.mp he with hm | hm
    · -- the token of a state and the comment marker cannot open one text
      obtain ⟨place, hplace⟩ := List.mem_iff_getElem?.mp hm
      have hlt := (List.getElem?_eq_some_iff.mp hplace).1
      have hliteral : set.literals[place]? = some entry := by
        rw [literals, List.getElem?_append_left hlt, hplace]
      have heq := h.place_of_prefix hliteral (literals_getElem?_comment set) hp
        (List.prefix_append _ _)
      simp [heq] at hlt
    · rw [List.mem_singleton.mp hm, List.prefix_append_right_inj] at hp
      obtain ⟨rest, rfl⟩ := hp
      exact hspace rfl

end Entries

theorem Accepted.openings_single (h : set.Accepted) {line : Text} (single : '\n' ∉ line) :
    set.openers.openings line = (set.openers.opening? 0 line).toList := by
  rw [h.openings_eq, rows_of_not_mem single, Openers.rowOpenings, Openers.rowOpenings,
    List.append_nil]

/-- The end of an opening and the start of a body name the same place. On a line that a state opens
both tell that state. On a line that the comment marker opens the end of the opening tells none, and
the body starts with the last entry of the rotation if a space follows the marker. On any other line
there is no opening, and the body starts with no entry. -/
theorem opening_identities {engine : Engine} {states : List State} {comment : Text}
    (accepted : ofStates engine states comment = .ok set) {line : Text} (single : '\n' ∉ line) :
    (set.openers.openings line = [] ∧ set.rotationPrefix (body line) = none) ∨
    ∃ opening, set.openers.openings line = [opening] ∧ opening.offset = 0 ∧
      opening.indent = indent line ∧ opening.token <+: body line ∧
      ((∃ place state, set.states[place]? = some state ∧ opening.token = state.token ∧
          set.stateEnding opening.literal = some place ∧
          (∀ w, Blank w → set.stateEnding (w ++ opening.token) = some place) ∧
          set.rotationPrefix (body line) = some place) ∨
        (opening.token = set.comment ∧ set.stateEnding opening.literal = none ∧
          (∀ w, Blank w → set.stateEnding (w ++ opening.token) = none) ∧
          set.rotationPrefix (body line) =
            if (body line)[set.comment.length]? = some ' ' then some set.states.length
            else none)) := by
  have h := accepted_of_ofStates accepted
  rw [h.openings_single single, Openers.opening?]
  rcases h.kind_cases line with ⟨-, hplain⟩ | ⟨place, literal, hplace, hopens, -⟩
  · left
    have hnone : set.openers.alternative? (body line) = none :=
      Openers.alternative?_eq_none_iff.mpr fun literal hl => hplain literal (mem_alternatives.mp hl)
    rw [hnone]
    exact ⟨rfl, rotationPrefix_of_plain hplain⟩
  · right
    have hfound := h.alternative?_eq_some_iff.mpr ⟨List.mem_of_getElem? hplace, hopens⟩
    rw [hfound]
    refine ⟨⟨0, indent line, literal⟩, rfl, rfl, rfl, hopens, ?_⟩
    have hending : ∀ w, Blank w → set.stateEnding (w ++ literal) =
        if place < set.states.length then some place else none :=
      fun w _ => h.stateEnding_of_suffix hplace (List.suffix_append w literal)
    by_cases hlt : place < set.states.length
    · left
      simp only [if_pos hlt] at hending
      obtain ⟨state, hstate, hliteral⟩ := states_getElem?_of_lt hlt
      cases Option.some.inj (hplace.symm.trans hliteral)
      exact ⟨place, state, hstate, rfl, hending _ (blank_indent line), hending,
        h.rotationPrefix_eq_some (rotation_getElem?_state hstate) hopens⟩
    · right
      simp only [if_neg hlt] at hending
      have hlast : place = set.states.length := by
        have := (List.getElem?_eq_some_iff.mp hplace).1
        rw [literals_length] at this
        omega
      subst hlast
      cases Option.some.inj (hplace.symm.trans (literals_getElem?_comment set))
      exact ⟨rfl, hending _ (blank_indent line), hending, h.rotationPrefix_comment hopens⟩

/-- An arrow behind mixed blanks, which starts as the other tokens do. -/
theorem opening_identities_standard :
    ofStates .usual defaultStates defaultComment = .ok standard ∧ '\n' ∉ " \t-> - --".toList ∧
    ∃ opening, standard.openers.openings " \t-> - --".toList = [opening] ∧
      standard.stateEnding opening.literal = some 2 ∧
      standard.rotationPrefix (body " \t-> - --".toList) = some 2 := by
  have single : '\n' ∉ " \t-> - --".toList := by decide
  refine ⟨ofStates_default, single, ?_⟩
  have hplace : standard.rotationPrefix (body " \t-> - --".toList) = some 2 := by decide
  rcases opening_identities ofStates_default single with ⟨-, hnone⟩ | ⟨opening, hfound, -, -, -, h⟩
  · rw [hplace] at hnone
    cases hnone
  · rcases h with ⟨place, state, -, -, hending, -, hprefix⟩ | ⟨-, -, -, hprefix⟩
    · cases Option.some.inj (hplace.symm.trans hprefix)
      exact ⟨opening, hfound, hending, hplace⟩
    · exact absurd (hplace.symm.trans hprefix) (by decide)

section Endings

/-- The entry of the comment marker ends with a token exactly if the token is a tail of the marker
and the space after it. The validator compares the tokens with the bare marker only. -/
theorem Accepted.stateEnding_comment_eq_some_iff (h : set.Accepted) {w : Text} (hw : Blank w)
    {place : Nat} :
    set.stateEnding (w ++ (set.comment ++ [' '])) = some place ↔
      ∃ state front tail, set.states[place]? = some state ∧ set.comment = front ++ tail ∧
        front ≠ [] ∧ tail ≠ [] ∧ state.token = tail ++ [' '] := by
  constructor
  · intro hending
    obtain ⟨hlt, hends, -⟩ := List.findIdx?_eq_some_iff_getElem.mp hending
    have hstate := List.getElem?_eq_getElem hlt
    have hliteral := literals_getElem?_state hstate
    have hvisible := h.visible _ (List.mem_of_getElem? hliteral)
    obtain ⟨c, rest, hc, hblank⟩ := hvisible.opens
    have htail := hvisible.suffix_of_suffix_append hw (List.isSuffixOf_iff_suffix.mp hends)
    rcases List.suffix_concat_iff.mp htail with hnil | ⟨tail, htoken, front, hfront⟩
    · rw [hc] at hnil
      cases hnil
    · refine ⟨_, front, tail, hstate, hfront.symm, ?_, ?_, htoken⟩
      · -- the whole marker would start the token
        rintro rfl
        have hprefix : set.comment <+: set.states[place].token := by
          rw [htoken, ← hfront]
          exact List.prefix_append tail [' ']
        have he := h.place_of_prefix hliteral (literals_getElem?_comment set) List.prefix_rfl hprefix
        omega
      · rintro rfl
        rw [hc, List.nil_append, List.cons.injEq] at htoken
        rw [htoken.1] at hblank
        cases hblank
  · intro ⟨state, front, tail, hstate, hcomment, _, _, htoken⟩
    have hends : state.token <:+ w ++ (set.comment ++ [' ']) := by
      rw [htoken, hcomment, List.append_assoc, ← List.append_assoc w]
      exact List.suffix_append (w ++ front) (tail ++ [' '])
    rw [h.stateEnding_of_suffix (literals_getElem?_state hstate) hends,
      if_pos (List.getElem?_eq_some_iff.mp hstate).1]

/-- What the scanner finds on a line that starts with the entry of the comment marker is the marker
without the space. -/
theorem Accepted.openings_comment (h : set.Accepted) {w rest : Text} (hw : Blank w)
    (single : '\n' ∉ rest) :
    set.openers.openings (w ++ (set.comment ++ [' ']) ++ rest) = [⟨0, w, set.comment⟩] := by
  have hmem : set.comment ∈ set.literals := List.mem_of_getElem? (literals_getElem?_comment set)
  have hvisible := h.visible _ hmem
  obtain ⟨c, tail, hc, hblank⟩ := hvisible.opens
  have hline : w ++ (set.comment ++ [' ']) ++ rest = w ++ c :: (tail ++ ' ' :: rest) := by
    simp [hc]
  have hbody : body (w ++ (set.comment ++ [' ']) ++ rest) = set.comment ++ ' ' :: rest := by
    rw [hline, body_append_of_blank hw hblank, hc, List.cons_append]
  have hfeed : '\n' ∉ w ++ (set.comment ++ [' ']) ++ rest := by
    simp only [List.mem_append, List.mem_singleton, not_or]
    exact ⟨⟨fun hm => absurd (hw _ hm) (by decide), hvisible.no_feed, by decide⟩, single⟩
  rw [h.openings_single hfeed, Openers.opening?, hbody,
    h.alternative?_eq_some_iff.mpr ⟨hmem, List.prefix_append _ _⟩, hline,
    indent_append_of_blank hw hblank]
  rfl

end Endings

/-- The end of a rotation entry behind an indentation tells its place where it is the token of a state.
The entry of the comment marker ends with the token of a state if that is a proper tail of the
marker and the space, and with none otherwise. A line that starts with this entry is still taken
for a comment, because what is found there is the marker without the space. -/
theorem stateEnding_rotation {engine : Engine} {states : List State} {comment : Text}
    (accepted : ofStates engine states comment = .ok set) {w : Text} (hw : Blank w) :
    set.rotation.length = set.states.length + 1 ∧
    (∀ place entry, set.rotation[place]? = some entry → place < set.states.length →
      set.stateEnding (w ++ entry) = some place) ∧
    set.rotation[set.states.length]? = some (set.comment ++ [' ']) ∧
    (∀ place, set.stateEnding (w ++ (set.comment ++ [' '])) = some place ↔
      ∃ state front tail, set.states[place]? = some state ∧ set.comment = front ++ tail ∧
        front ≠ [] ∧ tail ≠ [] ∧ state.token = tail ++ [' ']) ∧
    ∀ rest, '\n' ∉ rest →
      ∃ opening, set.openers.openings (w ++ (set.comment ++ [' ']) ++ rest) = [opening] ∧
        opening.literal = w ++ set.comment ∧ set.stateEnding opening.literal = none := by
  have h := accepted_of_ofStates accepted
  refine ⟨rotation_length set, ?_, rotation_getElem?_comment set,
    fun _ => h.stateEnding_comment_eq_some_iff hw, ?_⟩
  · intro place entry hentry hlt
    obtain ⟨state, hstate, hliteral⟩ := states_getElem?_of_lt hlt
    cases Option.some.inj (hentry.symm.trans (rotation_getElem?_state hstate))
    rw [h.stateEnding_of_suffix hliteral (List.suffix_append w state.token), if_pos hlt]
  · intro rest single
    refine ⟨⟨0, w, set.comment⟩, h.openings_comment hw single, rfl, ?_⟩
    rw [Opening.literal, h.stateEnding_of_suffix (literals_getElem?_comment set)
      (List.suffix_append w set.comment), if_neg (Nat.lt_irrefl _)]

/-- The standard marker of comments and a space end as the token of the first state does. -/
theorem stateEnding_rotation_standard :
    ofStates .usual defaultStates defaultComment = .ok standard ∧ Blank " \t".toList ∧
    standard.stateEnding (" \t".toList ++ "-> ".toList) = some 2 ∧
    standard.stateEnding (" \t".toList ++ "-- ".toList) = some 0 ∧
    ∃ opening, standard.openers.openings " \t-- - x".toList = [opening] ∧
      opening.literal = " \t--".toList ∧ standard.stateEnding opening.literal = none := by
  have hw : Blank " \t".toList := by simp [Blank, isBlank]
  obtain ⟨-, hstate, -, hcomment, hline⟩ := stateEnding_rotation ofStates_default hw
  exact ⟨ofStates_default, hw, hstate 2 "-> ".toList rfl (by decide),
    (hcomment 0).mpr ⟨⟨"todo".toList, "- ".toList⟩, ['-'], ['-'], rfl, rfl, by decide, by decide, rfl⟩,
    hline "- x".toList (by decide)⟩

/-- Not every entry of the rotation is told by its end: the standard marker of comments and a space
end with the token of a state. -/
theorem not_stateEnding_rotation :
    ¬ ∀ (states : List State) (comment : Text) (set : TokenSet),
      ofStates .usual states comment = .ok set → ∀ w, Blank w →
        ∀ place entry, set.rotation[place]? = some entry →
          set.stateEnding (w ++ entry) = if place < set.states.length then some place else none := by
  intro h
  have hfalse := h defaultStates defaultComment standard ofStates_default [] (by simp [Blank]) 3
    "-- ".toList rfl
  exact absurd hfalse (by decide)

end Checklist.TokenSet
