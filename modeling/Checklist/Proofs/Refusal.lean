import Checklist.Proofs.Openings

namespace Checklist.TokenSet
open Text

/-- The literals in order, each with the name that a message gives its owner. -/
def owned (set : TokenSet) : List (Text × Text) :=
  set.states.map (fun state => (state.name, state.token)) ++ [("comment".toList, set.comment)]

/-- Neither text starts or ends the other. -/
def Apart (a b : Text) : Prop :=
  PrefixApart a b ∧ SuffixApart a b

/-- The places of two texts, before which in the order of pairs of places all pairs are apart. -/
structure FirstAt (apart : Text → Text → Prop) (l : List Text) (i j : Nat) (a b : Text) :
    Prop where
  lt : i < j
  left : l[i]? = some a
  right : l[j]? = some b
  earlier : ∀ i' j' a' b', i' < j' → l[i']? = some a' → l[j']? = some b' →
    i' < i ∨ i' = i ∧ j' < j → apart a' b'

/-- What is wrong with a set first: it has no states, or a literal that is empty or cannot be seen,
or a literal twice, or a literal that starts or ends another one. -/
inductive Fault (set : TokenSet) : TokenError → Prop
  | noStates (h : set.states = []) : Fault set .noStates
  | emptyToken {before after : List (Text × Text)} {name : Text} (states : set.states ≠ [])
      (split : set.owned = before ++ (name, []) :: after)
      (first : ∀ owner ∈ before, Visible owner.2) : Fault set (.emptyToken name)
  | invalidToken {before after : List (Text × Text)} {name literal : Text}
      (states : set.states ≠ []) (split : set.owned = before ++ (name, literal) :: after)
      (first : ∀ owner ∈ before, Visible owner.2) (nonempty : literal ≠ [])
      (hidden : ¬ Visible literal) : Fault set (.invalidToken literal)
  | duplicateToken {before after : List Text} {literal : Text} (states : set.states ≠ [])
      (visible : ∀ literal ∈ set.literals, Visible literal)
      (split : set.literals = before ++ literal :: after) (first : before.Nodup)
      (again : literal ∈ before) : Fault set (.duplicateToken literal)
  | overlappingTokens {i j : Nat} {a b shorter longer : Text} (states : set.states ≠ [])
      (visible : ∀ literal ∈ set.literals, Visible literal) (distinct : set.literals.Nodup)
      (first : FirstAt Apart set.literals i j a b)
      (pair : (shorter = a ∧ longer = b) ∨ (shorter = b ∧ longer = a))
      (within : shorter ≠ longer ∧ (shorter <+: longer ∨ shorter <:+ longer)) :
      Fault set (.overlappingTokens shorter longer)

section Literals

theorem literalError?_eq_some_iff (name literal : Text) (error : TokenError) :
    literalError? name literal = some error ↔
      (literal = [] ∧ error = .emptyToken name) ∨
      (literal ≠ [] ∧ ¬ Visible literal ∧ error = .invalidToken literal) := by
  rw [← literalError?_eq_none_iff name literal]
  cases literal with
  | nil => simp [literalError?, eq_comm]
  | cons c rest =>
    simp only [literalError?]
    split
    · simp [eq_comm]
    · simp

/-- The first literal that is empty or cannot be seen. -/
theorem findSome?_literalError?_eq_some_iff (owned : List (Text × Text)) (error : TokenError) :
    (owned.findSome? fun owner => literalError? owner.1 owner.2) = some error ↔
      ∃ before owner after, owned = before ++ owner :: after ∧
        literalError? owner.1 owner.2 = some error ∧ ∀ owner ∈ before, Visible owner.2 := by
  simp only [List.findSome?_eq_some_iff, literalError?_eq_none_iff]

theorem findSome?_owned (set : TokenSet) :
    (set.owned.findSome? fun owner => literalError? owner.1 owner.2) =
      (set.states.findSome? fun state => literalError? state.name state.token).or
        (literalError? "comment".toList set.comment) := by
  rw [owned, List.findSome?_append, List.findSome?_map, List.findSome?_singleton]
  rfl

theorem forall_mem_owned_iff (set : TokenSet) :
    (∀ owner ∈ set.owned, Visible owner.2) ↔ ∀ literal ∈ set.literals, Visible literal := by
  simp [owned, literals, or_imp, forall_and]

end Literals

section Repeats

/-- The split at a member is at the head of a list or within its tail. -/
theorem exists_split_cons {P : List Text → Prop} {u t : Text} {rest : List Text} :
    (∃ before after, u :: rest = before ++ t :: after ∧ P before) ↔
      (u = t ∧ P []) ∨ ∃ before after, rest = before ++ t :: after ∧ P (u :: before) := by
  constructor
  · rintro ⟨before, after, hsplit, h⟩
    cases before with
    | nil => exact .inl ⟨(List.cons.inj hsplit).1, h⟩
    | cons v before =>
      obtain ⟨rfl, hrest⟩ := List.cons.inj hsplit
      exact .inr ⟨before, after, hrest, h⟩
  · rintro (⟨rfl, h⟩ | ⟨before, after, rfl, h⟩)
    · exact ⟨[], rest, rfl, h⟩
    · exact ⟨u :: before, after, rfl, h⟩

/-- The induction moves the head of the list to the texts found earlier. -/
theorem firstRepeated?_eq_some_iff (earlier l : List Text) (t : Text) :
    firstRepeated? earlier l = some t ↔
      ∃ before after, l = before ++ t :: after ∧ before.Nodup ∧
        (∀ u ∈ before, u ∉ earlier) ∧ (t ∈ earlier ∨ t ∈ before) := by
  induction l generalizing earlier with
  | nil => simp [firstRepeated?]
  | cons u rest ih =>
    rw [firstRepeated?, exists_split_cons]
    by_cases hu : u ∈ earlier
    · rw [if_pos hu]
      constructor
      · rintro ⟨⟩
        exact .inl ⟨rfl, .nil, by simp, .inl hu⟩
      · rintro (⟨rfl, -⟩ | ⟨before, after, -, -, hfirst, -⟩)
        · rfl
        · exact absurd hu (hfirst u List.mem_cons_self)
    · have hmove (before : List Text) :
          (before.Nodup ∧ (∀ v ∈ before, v ∉ u :: earlier) ∧ (t ∈ u :: earlier ∨ t ∈ before)) ↔
            (u :: before).Nodup ∧ (∀ v ∈ u :: before, v ∉ earlier) ∧
              (t ∈ earlier ∨ t ∈ u :: before) := by
        grind
      rw [if_neg hu, ih]
      simp only [hmove]
      constructor
      · exact .inr
      · rintro (⟨rfl, -, -, h⟩ | h)
        · simp [hu] at h
        · exact h

end Repeats

section Pairs

variable {related? : Text → Text → Option (Text × Text)} {l : List Text} {t : Text}

theorem firstAt_cons_zero {apart : Text → Text → Prop} {rest : List Text} {j : Nat} {b : Text} :
    FirstAt apart (t :: rest) 0 (j + 1) t b ↔
      ∃ before after, rest = before ++ b :: after ∧ before.length = j ∧ ∀ u ∈ before, apart t u := by
  constructor
  · intro h
    have hright : rest[j]? = some b := h.right
    obtain ⟨before, after, hsplit, hlen⟩ := Text.exists_split hright
    refine ⟨before, after, hsplit, hlen, ?_⟩
    intro u hu
    obtain ⟨k, hk, rfl⟩ := List.mem_iff_getElem.mp hu
    refine h.earlier 0 (k + 1) t before[k] (Nat.succ_pos k) rfl ?_ (.inr ⟨rfl, by omega⟩)
    rw [List.getElem?_cons_succ, hsplit, List.getElem?_append_left hk, List.getElem?_eq_getElem hk]
  · rintro ⟨before, after, rfl, rfl, hbefore⟩
    refine ⟨Nat.succ_pos _, rfl, by simp, ?_⟩
    rintro i' j' a' b' hlt ha hb (hi | ⟨rfl, hj⟩)
    · exact absurd hi (Nat.not_lt_zero _)
    · obtain ⟨k, rfl⟩ := Nat.exists_eq_succ_of_ne_zero (Nat.pos_iff_ne_zero.mp hlt)
      cases Option.some.inj ha
      rw [List.getElem?_cons_succ, List.getElem?_append_left (by omega)] at hb
      exact hbefore _ (List.mem_of_getElem? hb)

theorem firstAt_cons_succ {apart : Text → Text → Prop} {rest : List Text} {i j : Nat}
    {a b : Text} :
    FirstAt apart (t :: rest) (i + 1) (j + 1) a b ↔
      (∀ u ∈ rest, apart t u) ∧ FirstAt apart rest i j a b := by
  constructor
  · intro h
    refine ⟨?_, Nat.lt_of_succ_lt_succ h.lt, h.left, h.right, ?_⟩
    · intro u hu
      obtain ⟨k, hk⟩ := List.mem_iff_getElem?.mp hu
      exact h.earlier 0 (k + 1) t u (Nat.succ_pos k) rfl hk (.inl (Nat.succ_pos i))
    · intro i' j' a' b' hlt ha hb hbefore
      exact h.earlier (i' + 1) (j' + 1) a' b' (Nat.succ_lt_succ hlt) ha hb (by omega)
  · rintro ⟨hhead, h⟩
    refine ⟨Nat.succ_lt_succ h.lt, h.left, h.right, ?_⟩
    intro i' j' a' b' hlt ha hb hbefore
    obtain ⟨n, rfl⟩ := Nat.exists_eq_succ_of_ne_zero (Nat.ne_of_gt (Nat.zero_lt_of_lt hlt))
    cases i' with
    | zero =>
      cases Option.some.inj ha
      exact hhead b' (List.mem_of_getElem? hb)
    | succ m => exact h.earlier m n a' b' (Nat.lt_of_succ_lt_succ hlt) ha hb (by omega)

theorem firstPair?_eq_some_iff (p : Text × Text) :
    firstPair? related? l = some p ↔
      ∃ i j a b, FirstAt (fun a b => related? a b = none) l i j a b ∧ related? a b = some p := by
  induction l with
  | nil =>
    simp only [firstPair?, reduceCtorEq, false_iff]
    rintro ⟨i, j, a, b, h, -⟩
    cases h.left
  | cons t rest ih =>
    rw [firstPair?, Option.or_eq_some_iff, List.findSome?_eq_some_iff, List.findSome?_eq_none_iff,
      ih]
    constructor
    · rintro (⟨before, b, after, hsplit, hb, hbefore⟩ | ⟨hnone, i, j, a, b, h, hab⟩)
      · exact ⟨0, before.length + 1, t, b,
          firstAt_cons_zero.mpr ⟨before, after, hsplit, rfl, hbefore⟩, hb⟩
      · exact ⟨i + 1, j + 1, a, b, firstAt_cons_succ.mpr ⟨hnone, h⟩, hab⟩
    · rintro ⟨i, j, a, b, h, hab⟩
      obtain ⟨n, rfl⟩ := Nat.exists_eq_succ_of_ne_zero (Nat.ne_of_gt (Nat.zero_lt_of_lt h.lt))
      cases i with
      | zero =>
        cases Option.some.inj h.left
        obtain ⟨before, after, hsplit, -, hbefore⟩ := firstAt_cons_zero.mp h
        exact .inl ⟨before, b, after, hsplit, hab, hbefore⟩
      | succ m =>
        obtain ⟨hnone, h⟩ := firstAt_cons_succ.mp h
        exact .inr ⟨hnone, m, n, a, b, h, hab⟩

end Pairs

section Overlaps

variable {a b shorter longer : Text}

theorem FirstAt.ne {apart : Text → Text → Prop} {l : List Text} {i j : Nat}
    (h : FirstAt apart l i j a b) (distinct : l.Nodup) : a ≠ b := by
  rintro rfl
  have hi := (List.getElem?_eq_some_iff.mp h.left).1
  exact Nat.ne_of_lt h.lt ((List.getElem?_inj hi distinct).mp (h.left.trans h.right.symm))

theorem length_lt_of_within (hne : shorter ≠ longer)
    (h : shorter <+: longer ∨ shorter <:+ longer) : shorter.length < longer.length := by
  rcases h with h | h
  · exact Nat.lt_of_le_of_ne h.length_le fun he => hne (h.eq_of_length he)
  · exact Nat.lt_of_le_of_ne h.length_le fun he => hne (h.eq_of_length he)

theorem overlap?_eq_some (h : overlap? a b = some (shorter, longer)) :
    ((shorter = a ∧ longer = b) ∨ (shorter = b ∧ longer = a)) ∧
      (shorter <+: longer ∨ shorter <:+ longer) := by
  rw [overlap?, Option.or_eq_some_iff, prefixOverlap?, suffixOverlap?] at h
  simp only [List.isPrefixOf_iff_prefix, List.isSuffixOf_iff_suffix] at h
  rcases h with h | ⟨-, h⟩
  · split at h
    · cases h
      exact ⟨.inl ⟨rfl, rfl⟩, .inl ‹_›⟩
    · split at h
      · cases h
        exact ⟨.inr ⟨rfl, rfl⟩, .inl ‹_›⟩
      · cases h
  · split at h
    · cases h
      exact ⟨.inl ⟨rfl, rfl⟩, .inr ‹_›⟩
    · split at h
      · cases h
        exact ⟨.inr ⟨rfl, rfl⟩, .inr ‹_›⟩
      · cases h

/-- Of two different texts the one within the other is the shorter one, so that there is no choice
which of them comes first. -/
theorem overlap?_eq_some_iff (hne : a ≠ b) :
    overlap? a b = some (shorter, longer) ↔
      ((shorter = a ∧ longer = b) ∨ (shorter = b ∧ longer = a)) ∧ shorter ≠ longer ∧
        (shorter <+: longer ∨ shorter <:+ longer) := by
  constructor
  · intro h
    obtain ⟨hpair, hwithin⟩ := overlap?_eq_some h
    refine ⟨hpair, ?_, hwithin⟩
    rcases hpair with ⟨rfl, rfl⟩ | ⟨rfl, rfl⟩
    · exact hne
    · exact hne.symm
  · rintro ⟨hpair, hneq, hwithin⟩
    cases hfound : overlap? a b with
    | none =>
      rw [overlap?_eq_none_iff] at hfound
      obtain ⟨⟨hab, hba⟩, hab', hba'⟩ := hfound
      rcases hpair with ⟨rfl, rfl⟩ | ⟨rfl, rfl⟩
      · exact (hwithin.elim hab hab').elim
      · exact (hwithin.elim hba hba').elim
    | some found =>
      obtain ⟨first, second⟩ := found
      obtain ⟨hpair', hwithin'⟩ := overlap?_eq_some hfound
      have hlt := length_lt_of_within hneq hwithin
      -- where the two pairs are the other way round, each text would be shorter than the other
      rcases hpair with ⟨rfl, rfl⟩ | ⟨rfl, rfl⟩
      · rcases hpair' with ⟨rfl, rfl⟩ | ⟨rfl, rfl⟩
        · rfl
        · have := length_lt_of_within hneq.symm hwithin'
          omega
      · rcases hpair' with ⟨rfl, rfl⟩ | ⟨rfl, rfl⟩
        · have := length_lt_of_within hneq.symm hwithin'
          omega
        · rfl

end Overlaps

section Order

variable {set : TokenSet}

/-- The check of the rotation adds nothing to the checks of the literals. -/
theorem rotation_check_eq_none (h : firstPair? overlap? set.literals = none) :
    firstPair? prefixOverlap? set.rotation = none := by
  simp only [firstPair?_eq_none_iff, overlap?_eq_none_iff, prefixOverlap?_eq_none_iff] at h ⊢
  exact rotation_apart (h.imp And.left)

theorem error?_of_no_states (h : set.states = []) : set.error? = some .noStates := by
  simp [error?, h]

theorem error?_of_states (h : set.states ≠ []) :
    set.error? =
      (((set.owned.findSome? fun owner => literalError? owner.1 owner.2).or
        ((firstRepeated? [] set.literals).map .duplicateToken)).or
        ((firstPair? overlap? set.literals).map fun (a, b) => .overlappingTokens a b)) := by
  rw [error?, if_neg (by simpa using h), findSome?_owned]
  cases hpair : firstPair? overlap? set.literals with
  | none => rw [rotation_check_eq_none hpair, Option.map_none, Option.or_none]
  | some p => rw [Option.or_assoc, Option.map_some, Option.some_or]

/-- The error tells what is wrong first. -/
theorem error?_eq_some_iff (error : TokenError) : set.error? = some error ↔ set.Fault error := by
  by_cases hs : set.states = []
  · rw [error?_of_no_states hs]
    constructor
    · rintro ⟨⟩
      exact .noStates hs
    · intro h
      cases h with
      | noStates => rfl
      | emptyToken states => exact absurd hs states
      | invalidToken states => exact absurd hs states
      | duplicateToken states => exact absurd hs states
      | overlappingTokens states => exact absurd hs states
  · rw [error?_of_states hs]
    simp only [Option.or_eq_some_iff, Option.or_eq_none_iff, Option.map_eq_some_iff,
      Option.map_eq_none_iff, findSome?_literalError?_eq_some_iff, literalError?_eq_some_iff,
      List.findSome?_eq_none_iff, literalError?_eq_none_iff, forall_mem_owned_iff,
      firstRepeated?_eq_some_iff, firstRepeated?_eq_none_iff, firstPair?_eq_some_iff,
      overlap?_eq_none_iff]
    constructor
    · rintro ((⟨before, ⟨name, literal⟩, after, hsplit, hfault, hfirst⟩ |
        ⟨hvisible, literal, ⟨before, after, hsplit, hnodup, -, hagain⟩, rfl⟩) |
        ⟨⟨hvisible, -, hdistinct⟩, ⟨shorter, longer⟩, ⟨i, j, a, b, hfirst, hpair⟩, rfl⟩)
      · rcases hfault with ⟨rfl, rfl⟩ | ⟨hne, hhidden, rfl⟩
        · exact .emptyToken hs hsplit hfirst
        · exact .invalidToken hs hsplit hfirst hne hhidden
      · exact .duplicateToken hs hvisible hsplit hnodup (by simpa using hagain)
      · obtain ⟨hpair, hwithin⟩ := (overlap?_eq_some_iff (hfirst.ne hdistinct)).mp hpair
        exact .overlappingTokens hs hvisible hdistinct hfirst hpair hwithin
    · intro h
      cases h with
      | noStates h => exact absurd h hs
      | emptyToken _ split first => exact .inl (.inl ⟨_, _, _, split, .inl ⟨rfl, rfl⟩, first⟩)
      | invalidToken _ split first nonempty hidden =>
        exact .inl (.inl ⟨_, _, _, split, .inr ⟨nonempty, hidden, rfl⟩, first⟩)
      | duplicateToken _ visible split first again =>
        exact .inl (.inr ⟨visible, _, ⟨_, _, split, first, by simp, .inr again⟩, rfl⟩)
      | overlappingTokens _ visible distinct first pair within =>
        exact .inr ⟨⟨visible, by simp, distinct⟩, _, ⟨_, _, _, _, first,
          (overlap?_eq_some_iff (first.ne distinct)).mpr ⟨pair, within⟩⟩, rfl⟩

end Order

/-- No literal equals, starts or ends one at another place. -/
theorem pairwise_apart_iff (l : List Text) :
    (l.Pairwise PrefixApart ∧ l.Pairwise SuffixApart) ↔
      ∀ (i j : Nat) (a b : Text), i ≠ j → l[i]? = some a → l[j]? = some b →
        a ≠ b ∧ ¬ a <+: b ∧ ¬ a <:+ b := by
  constructor
  · rintro ⟨hstart, hend⟩ i j a b hne hi hj
    refine ⟨?_, fun hab => hne (place_eq_of_related hstart hi hj hab),
      fun hab => hne (place_eq_of_related hend hi hj hab)⟩
    rintro rfl
    exact hne (place_eq_of_related hstart hi hj List.prefix_rfl)
  · intro h
    have hplaces : ∀ (i j : Nat) (hi : i < l.length) (hj : j < l.length), i < j →
        PrefixApart l[i] l[j] ∧ SuffixApart l[i] l[j] := by
      intro i j hi hj hlt
      obtain ⟨-, hp, hs⟩ := h i j _ _ (Nat.ne_of_lt hlt) (List.getElem?_eq_getElem hi)
        (List.getElem?_eq_getElem hj)
      obtain ⟨-, hp', hs'⟩ := h j i _ _ (Nat.ne_of_gt hlt) (List.getElem?_eq_getElem hj)
        (List.getElem?_eq_getElem hi)
      exact ⟨⟨hp, hp'⟩, hs, hs'⟩
    rw [List.pairwise_iff_getElem, List.pairwise_iff_getElem]
    exact ⟨fun i j hi hj hlt => (hplaces i j hi hj hlt).1,
      fun i j hi hj hlt => (hplaces i j hi hj hlt).2⟩

/-- A list of states and a comment marker make a set exactly if there are states, every literal is
seen and within one line, none equals, starts or ends another one, and the engine compiles the
expression of the literals. Otherwise the error is the first fault, and where there is none it is
what the engine says. The check of the rotation refuses nothing that the other checks accept. -/
theorem ofStates_outcome (engine : Engine) (states : List State) (comment : Text) :
    (∀ set, ofStates engine states comment = .ok set ↔
      set = ⟨states, comment⟩ ∧ states ≠ [] ∧ (∀ literal ∈ set.literals, Visible literal) ∧
        (∀ (i j : Nat) (a b : Text), i ≠ j →
          set.literals[i]? = some a → set.literals[j]? = some b →
          a ≠ b ∧ ¬ a <+: b ∧ ¬ a <:+ b) ∧
        engine.refusal? set.openers.source = none) ∧
    (∀ error, ofStates engine states comment = .error error ↔
      Fault ⟨states, comment⟩ error ∨
        (∀ other, ¬ Fault ⟨states, comment⟩ other) ∧ ∃ reason,
          engine.refusal? (⟨states, comment⟩ : TokenSet).openers.source = some reason ∧
          error = .pattern reason) ∧
    ∀ set : TokenSet, firstPair? overlap? set.literals = none →
      set.rotation.Nodup ∧ set.rotation.Pairwise PrefixApart ∧
        firstPair? prefixOverlap? set.rotation = none := by
  refine ⟨?_, ?_, ?_⟩
  · intro set
    rw [ofStates_eq_ok_iff, ← pairwise_apart_iff]
    constructor
    · rintro ⟨rfl, ⟨hstates, hvisible, hstart, hend⟩, hcompiled⟩
      exact ⟨rfl, hstates, hvisible, ⟨hstart, hend⟩, hcompiled⟩
    · rintro ⟨rfl, hstates, hvisible, ⟨hstart, hend⟩, hcompiled⟩
      exact ⟨rfl, ⟨hstates, hvisible, hstart, hend⟩, hcompiled⟩
  · intro error
    have hfaultless : (∀ other, ¬ Fault ⟨states, comment⟩ other) ↔
        (⟨states, comment⟩ : TokenSet).error? = none := by
      simp only [← error?_eq_some_iff, Option.eq_none_iff_forall_ne_some, Ne]
    rw [← error?_eq_some_iff, hfaultless]
    dsimp only [ofStates]
    split
    · rename_i found hfound
      simp [hfound]
    · rename_i hnone
      split
      · rename_i reason hrefused
        simp [hnone, hrefused, eq_comm]
      · rename_i hcompiled
        simp [hnone, hcompiled]
  · intro set h
    have hcheck := rotation_check_eq_none h
    have hapart : set.rotation.Pairwise PrefixApart := by
      simpa only [firstPair?_eq_none_iff, prefixOverlap?_eq_none_iff] using hcheck
    refine ⟨hapart.imp ?_, hapart, hcheck⟩
    rintro a _ hab rfl
    exact hab.1 List.prefix_rfl

section Long

theorem length_le_byteLength (t : Text) : t.length ≤ t.byteLength := by
  induction t with
  | nil => exact Nat.le_refl _
  | cons c t ih =>
    rw [List.length_cons, byteLength_cons, Nat.add_comm]
    exact Nat.add_le_add c.utf8Size_pos ih

theorem byteLength_le_join {separator piece : Text} {pieces : List Text} (h : piece ∈ pieces) :
    piece.byteLength ≤ (join separator pieces).byteLength := by
  induction pieces with
  | nil => cases h
  | cons first rest ih =>
    by_cases hr : rest = []
    · subst hr
      cases List.mem_singleton.mp h
      exact Nat.le_refl _
    · rw [join_cons _ _ hr, byteLength_append, byteLength_append]
      rcases List.mem_cons.mp h with rfl | h
      · omega
      · have := ih h
        omega

/-- The expression of a set names every literal in it. -/
theorem length_le_namedBytes {set : TokenSet} {literal : Text} (h : literal ∈ set.literals) :
    literal.length ≤ Engine.namedBytes set.openers.source := by
  rw [Openers.namedBytes_source]
  calc literal.length
      ≤ literal.byteLength := length_le_byteLength literal
    _ ≤ (join ['|'] set.openers.alternatives).byteLength :=
        byteLength_le_join (mem_alternatives.mpr h)
    _ ≤ 14 + (join ['|'] set.openers.alternatives).byteLength := Nat.le_add_left _ _

/-- A token as long as one likes passes all checks. -/
theorem accepted_replicate {n : Nat} (h : 0 < n) :
    (⟨[⟨"todo".toList, List.replicate n 'x'⟩], defaultComment⟩ : TokenSet).Accepted := by
  obtain ⟨n, rfl⟩ := Nat.exists_eq_succ_of_ne_zero (Nat.ne_of_gt h)
  have hleft : ∀ c ∈ List.replicate (n + 1) 'x', c = 'x' := fun c => List.eq_of_mem_replicate
  have hmem : 'x' ∈ List.replicate (n + 1) 'x' := List.mem_cons_self
  have htoken (hsub : List.replicate (n + 1) 'x' ⊆ defaultComment) : False :=
    absurd (hsub hmem) (by decide)
  have hcomment (hsub : defaultComment ⊆ List.replicate (n + 1) 'x') : False :=
    absurd (hleft '-' (hsub (by decide))) (by decide)
  refine ⟨List.cons_ne_nil _ _, ?_, List.pairwise_pair.mpr ⟨?_, ?_⟩,
    List.pairwise_pair.mpr ⟨?_, ?_⟩⟩
  · intro literal hliteral
    rcases List.mem_cons.mp hliteral with rfl | hliteral
    · refine ⟨⟨'x', _, rfl, by decide⟩, ?_, ?_⟩
      · exact fun hfeed => absurd (hleft _ hfeed) (by decide)
      · exact fun hreturn => absurd (hleft _ hreturn) (by decide)
    · cases List.mem_singleton.mp hliteral
      have hvisible : Visible defaultComment := ⟨⟨'-', _, rfl, by decide⟩, by decide, by decide⟩
      exact hvisible
  · exact fun hp => htoken hp.subset
  · exact fun hp => hcomment hp.subset
  · exact fun hs => htoken hs.subset
  · exact fun hs => hcomment hs.subset

/-- Whatever else is right about a literal, a set cannot have it if it is too long. -/
theorem length_le_of_ofStates {states : List State} {comment literal : Text} {set : TokenSet}
    (h : ofStates .usual states comment = .ok set) (hmem : literal ∈ set.literals) :
    Engine.stateSize * literal.length ≤ Engine.sizeLimit := by
  obtain ⟨-, -, hcompiled⟩ := ofStates_eq_ok_iff.mp h
  exact Nat.le_trans (Nat.mul_le_mul_left _ (length_le_namedBytes hmem))
    (Engine.usual_eq_none_iff.mp hcompiled)

theorem not_exists_ofStates_replicate {n : Nat} (h : Engine.sizeLimit < Engine.stateSize * n) :
    ¬ ∃ set, ofStates .usual [⟨"todo".toList, List.replicate n 'x'⟩] defaultComment = .ok set := by
  rintro ⟨set, hset⟩
  obtain ⟨rfl, -, -⟩ := ofStates_eq_ok_iff.mp hset
  have hlength := length_le_of_ofStates hset List.mem_cons_self
  dsimp only at hlength
  rw [List.length_replicate] at hlength
  exact absurd hlength (Nat.not_le_of_lt h)

end Long

/-- The checks are not all: an engine refuses a token for its length alone, though it would have to
be very long. -/
theorem not_ofStates_outcome :
    ¬ ∀ (states : List State) (comment : Text),
      (∃ set, ofStates .usual states comment = .ok set) ↔
        states ≠ [] ∧
        (∀ literal ∈ (⟨states, comment⟩ : TokenSet).literals, Visible literal) ∧
        ∀ (i j : Nat) (a b : Text), i ≠ j →
          (⟨states, comment⟩ : TokenSet).literals[i]? = some a →
          (⟨states, comment⟩ : TokenSet).literals[j]? = some b →
          a ≠ b ∧ ¬ a <+: b ∧ ¬ a <:+ b := by
  intro h
  have haccepted := @accepted_replicate 500000 (by decide)
  exact @not_exists_ofStates_replicate 500000 (by decide) ((h _ _).mpr
    ⟨haccepted.states_ne_nil, haccepted.visible,
      (pairwise_apart_iff _).mp ⟨haccepted.prefix_apart, haccepted.suffix_apart⟩⟩)

end Checklist.TokenSet
