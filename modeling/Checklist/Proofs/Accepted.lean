import Checklist.TokenSet

namespace Checklist.TokenSet

/-- A literal that is seen where an indentation ends, and lies within one line. -/
structure Visible (literal : Text) : Prop where
  opens : ∃ c rest, literal = c :: rest ∧ Text.isBlank c = false
  no_feed : '\n' ∉ literal
  no_return : '\r' ∉ literal

/-- Neither text starts the other. -/
def PrefixApart (a b : Text) : Prop :=
  ¬ a <+: b ∧ ¬ b <+: a

/-- Neither text ends the other. -/
def SuffixApart (a b : Text) : Prop :=
  ¬ a <:+ b ∧ ¬ b <:+ a

/-- The sets whose lines can be told apart, from the left and from the right. -/
structure Accepted (set : TokenSet) : Prop where
  states_ne_nil : set.states ≠ []
  visible : ∀ literal ∈ set.literals, Visible literal
  prefix_apart : set.literals.Pairwise PrefixApart
  suffix_apart : set.literals.Pairwise SuffixApart

section Checks

theorem literalError?_eq_none_iff (name literal : Text) :
    literalError? name literal = none ↔ Visible literal := by
  constructor
  · intro h
    cases literal with
    | nil => simp [literalError?] at h
    | cons c rest =>
      simp only [literalError?, ite_eq_right_iff, reduceCtorEq, imp_false, Bool.or_eq_true,
        List.contains_iff_mem, not_or] at h
      exact ⟨⟨c, rest, rfl, by simpa using h.1.1⟩, h.1.2, h.2⟩
  · intro ⟨⟨c, rest, he, hc⟩, hfeed, hreturn⟩
    subst he
    simp only [literalError?, hc, List.contains_eq_mem, hfeed, hreturn, decide_false,
      Bool.or_false, Bool.false_eq_true, ↓reduceIte]

theorem firstRepeated?_eq_none_iff (earlier l : List Text) :
    firstRepeated? earlier l = none ↔ (∀ t ∈ l, t ∉ earlier) ∧ l.Nodup := by
  induction l generalizing earlier with
  | nil => simp [firstRepeated?]
  | cons t rest ih =>
    simp only [firstRepeated?]
    split
    · rename_i h
      simp [h]
    · rename_i h
      rw [ih, List.nodup_cons]
      constructor
      · intro ⟨hr, hn⟩
        refine ⟨?_, fun ht => hr t ht List.mem_cons_self, hn⟩
        intro u hu
        rcases List.mem_cons.mp hu with rfl | hu
        · exact h
        · exact fun he => hr u hu (List.mem_cons_of_mem _ he)
      · intro ⟨hr, ht, hn⟩
        refine ⟨?_, hn⟩
        intro u hu he
        rcases List.mem_cons.mp he with rfl | he
        · exact ht hu
        · exact hr u (List.mem_cons_of_mem _ hu) he

theorem prefixOverlap?_eq_none_iff (a b : Text) :
    prefixOverlap? a b = none ↔ PrefixApart a b := by
  unfold prefixOverlap? PrefixApart
  simp only [List.isPrefixOf_iff_prefix]
  split
  · simp [*]
  · split <;> simp [*]

theorem suffixOverlap?_eq_none_iff (a b : Text) :
    suffixOverlap? a b = none ↔ SuffixApart a b := by
  unfold suffixOverlap? SuffixApart
  simp only [List.isSuffixOf_iff_suffix]
  split
  · simp [*]
  · split <;> simp [*]

theorem overlap?_eq_none_iff (a b : Text) :
    overlap? a b = none ↔ PrefixApart a b ∧ SuffixApart a b := by
  rw [overlap?, Option.or_eq_none_iff, prefixOverlap?_eq_none_iff, suffixOverlap?_eq_none_iff]

theorem firstPair?_eq_none_iff (related? : Text → Text → Option (Text × Text)) (l : List Text) :
    firstPair? related? l = none ↔ l.Pairwise (fun a b => related? a b = none) := by
  induction l with
  | nil => simp [firstPair?]
  | cons t rest ih =>
    rw [firstPair?, Option.or_eq_none_iff, List.findSome?_eq_none_iff, ih, List.pairwise_cons]

end Checks

section Rotation

/-- Putting a space after the comment marker starts no overlap that is not there without it. -/
theorem PrefixApart.append_right {token comment : Text} (h : PrefixApart token comment)
    (separator : Text) : PrefixApart token (comment ++ separator) := by
  constructor
  · intro hp
    rcases List.prefix_or_prefix_of_prefix hp (List.prefix_append comment separator) with hp | hp
    · exact h.1 hp
    · exact h.2 hp
  · intro hp
    exact h.2 ((List.prefix_append comment separator).trans hp)

theorem rotation_apart {set : TokenSet} (h : set.literals.Pairwise PrefixApart) :
    set.rotation.Pairwise PrefixApart := by
  obtain ⟨htokens, -, hcomment⟩ := List.pairwise_append.mp h
  refine List.pairwise_append.mpr ⟨htokens, List.pairwise_singleton _ _, ?_⟩
  intro token ht entry he
  rw [List.mem_singleton.mp he]
  exact (hcomment token ht set.comment List.mem_cons_self).append_right [' ']

end Rotation

/-- The checks accept exactly these sets, and the last one, of the rotation, follows from the
others. -/
theorem error?_eq_none_iff (set : TokenSet) : set.error? = none ↔ set.Accepted := by
  have hvisible : (∀ literal ∈ set.literals, Visible literal) ↔
      (∀ state ∈ set.states, Visible state.token) ∧ Visible set.comment := by
    simp [literals, or_imp, forall_and]
  have hrotation := @rotation_apart set
  unfold error?
  split
  · rename_i hs
    simp only [reduceCtorEq, false_iff]
    exact fun h => h.states_ne_nil (List.isEmpty_iff.mp hs)
  · rename_i hs
    simp only [Option.or_eq_none_iff, List.findSome?_eq_none_iff, literalError?_eq_none_iff,
      Option.map_eq_none_iff, firstRepeated?_eq_none_iff, firstPair?_eq_none_iff,
      overlap?_eq_none_iff, prefixOverlap?_eq_none_iff, List.pairwise_and_iff]
    constructor
    · intro ⟨⟨⟨⟨htokens, hcomment⟩, _⟩, happart⟩, _⟩
      exact ⟨by simpa using hs, hvisible.mpr ⟨htokens, hcomment⟩, happart.1, happart.2⟩
    · intro h
      have hnodup : set.literals.Nodup := by
        refine h.prefix_apart.imp ?_
        rintro a _ hab rfl
        exact hab.1 List.prefix_rfl
      exact ⟨⟨⟨hvisible.mp h.visible, by simp, hnodup⟩, h.prefix_apart, h.suffix_apart⟩,
        hrotation h.prefix_apart⟩

/-- A set that passes the checks still has to be compiled. -/
theorem ofStates_eq_ok_iff {engine : Engine} {states : List State} {comment : Text}
    {set : TokenSet} :
    ofStates engine states comment = .ok set ↔
      set = ⟨states, comment⟩ ∧ set.Accepted ∧
        engine.refusal? set.openers.source = none := by
  dsimp only [ofStates]
  split
  · rename_i error he
    simp only [reduceCtorEq, false_iff, not_and]
    rintro rfl h
    rw [(error?_eq_none_iff _).mpr h] at he
    cases he
  · rename_i he
    have haccepted := (error?_eq_none_iff _).mp he
    split
    · rename_i reason hrefused
      simp only [reduceCtorEq, false_iff, not_and]
      rintro rfl -
      simp [hrefused]
    · rename_i hcompiled
      rw [Except.ok.injEq]
      constructor
      · rintro rfl
        exact ⟨rfl, haccepted, hcompiled⟩
      · intro h
        exact h.1.symm

theorem accepted_of_ofStates {engine : Engine} {states : List State} {comment : Text}
    {set : TokenSet} (h : ofStates engine states comment = .ok set) : set.Accepted :=
  (ofStates_eq_ok_iff.mp h).2.1

end Checklist.TokenSet
