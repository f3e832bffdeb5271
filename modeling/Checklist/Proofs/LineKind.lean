import Checklist.Advance
import Checklist.Proofs.Accepted

namespace Checklist

/-- What a line opens with: the token of the state at a place, the comment marker, or neither. -/
inductive LineKind
  | state (place : Nat)
  | comment
  | plain
  deriving DecidableEq, Repr

namespace Text

/-- A text of tabs and spaces only. -/
def Blank (w : Text) : Prop :=
  ∀ c ∈ w, isBlank c = true

theorem blank_indent (line : Text) : Blank (indent line) :=
  List.all_eq_true.mp List.all_takeWhile

theorem indent_cons (c : Char) (t : Text) :
    indent (c :: t) = if isBlank c then c :: indent t else [] :=
  List.takeWhile_cons

theorem body_cons (c : Char) (t : Text) :
    body (c :: t) = if isBlank c then body t else c :: t :=
  List.dropWhile_cons

theorem indent_append_of_blank {w : Text} (hw : Blank w) {c : Char} (hc : isBlank c = false)
    (t : Text) : indent (w ++ c :: t) = w := by
  rw [indent, List.takeWhile_append_of_pos hw, List.takeWhile_cons_of_neg (by simp [hc]),
    List.append_nil]

theorem body_append_of_blank {w : Text} (hw : Blank w) {c : Char} (hc : isBlank c = false)
    (t : Text) : body (w ++ c :: t) = c :: t := by
  rw [body, List.dropWhile_append_of_pos hw, List.dropWhile_cons_of_neg (by simp [hc])]

/-- What comes after a line leaves its indentation as it is, if it is visible at once. -/
theorem indent_append_cons {c : Char} (hc : isBlank c = false) (line t : Text) :
    indent (line ++ c :: t) = indent line := by
  rw [indent, List.takeWhile_append]
  split
  · rename_i h
    rw [List.takeWhile_cons_of_neg (by simp [hc]), List.append_nil]
    exact ((List.takeWhile_prefix _).eq_of_length h).symm
  · rfl

theorem body_append_cons {c : Char} (hc : isBlank c = false) (line t : Text) :
    body (line ++ c :: t) = body line ++ c :: t := by
  rw [body, List.dropWhile_append]
  split
  · rename_i h
    rw [List.dropWhile_cons_of_neg (by simp [hc]), body, List.isEmpty_iff.mp h, List.nil_append]
  · rfl

theorem prefix_append_cons_iff {a : Text} {c : Char} (hc : c ∉ a) (w t : Text) :
    a <+: w ++ c :: t ↔ a <+: w := by
  constructor
  · intro h
    rcases List.prefix_or_prefix_of_prefix h (List.prefix_append w (c :: t)) with h' | ⟨d, rfl⟩
    · exact h'
    · rw [List.prefix_append_right_inj] at h
      cases d with
      | nil => simp
      | cons e d =>
        have he : e = c := (List.cons_prefix_cons.mp h).1
        simp [he] at hc
  · intro h
    exact h.trans (List.prefix_append w _)

end Text

namespace TokenSet
open Text

/-- What a line opens with after its indentation. -/
def kind (set : TokenSet) (line : Text) : LineKind :=
  match set.states.findIdx? fun state => state.token.isPrefixOf (Text.body line) with
  | some place => .state place
  | none => if set.comment.isPrefixOf (Text.body line) then .comment else .plain

/-- The kind of the lines that the literal at a place opens. -/
def kindAt (set : TokenSet) (place : Nat) : LineKind :=
  if place < set.states.length then .state place else .comment

theorem literals_length (set : TokenSet) : set.literals.length = set.states.length + 1 := by
  simp [literals]

theorem literals_getElem?_state {set : TokenSet} {place : Nat} {state : State}
    (h : set.states[place]? = some state) : set.literals[place]? = some state.token := by
  have hlt : place < set.states.length := (List.getElem?_eq_some_iff.mp h).1
  rw [literals, List.getElem?_append_left (by simpa using hlt), List.getElem?_map, h]
  rfl

theorem literals_getElem?_comment (set : TokenSet) :
    set.literals[set.states.length]? = some set.comment := by
  simp [literals]

theorem states_getElem?_of_lt {set : TokenSet} {place : Nat} (h : place < set.states.length) :
    ∃ state, set.states[place]? = some state ∧ set.literals[place]? = some state.token :=
  ⟨set.states[place], List.getElem?_eq_getElem h,
    literals_getElem?_state (List.getElem?_eq_getElem h)⟩

theorem kind_eq_plain_iff (set : TokenSet) (line : Text) :
    set.kind line = .plain ↔ ∀ literal ∈ set.literals, ¬ literal <+: body line := by
  have hliterals : (∀ literal ∈ set.literals, ¬ literal <+: body line) ↔
      (∀ state ∈ set.states, ¬ state.token <+: body line) ∧ ¬ set.comment <+: body line := by
    simp [literals, or_imp, forall_and]
  rw [hliterals, kind]
  split
  · rename_i place hp
    obtain ⟨hlt, hopens, -⟩ := List.findIdx?_eq_some_iff_getElem.mp hp
    rw [List.isPrefixOf_iff_prefix] at hopens
    simp only [reduceCtorEq, false_iff, not_and]
    exact fun h => absurd hopens (h _ (List.getElem_mem hlt))
  · rename_i hn
    rw [List.findIdx?_eq_none_iff] at hn
    simp only [List.isPrefixOf_iff_prefix, ite_eq_right_iff, reduceCtorEq, imp_false]
    constructor
    · intro h
      refine ⟨fun state hs hp => ?_, h⟩
      rw [← List.isPrefixOf_iff_prefix, hn state hs] at hp
      cases hp
    · intro h
      exact h.2

/-- A search that one element alone can end finds it. -/
theorem findIdx?_eq_some_of_unique {α : Type} {p : α → Bool} {l : List α} {i : Nat} {x : α}
    (hi : l[i]? = some x) (hx : p x = true)
    (unique : ∀ (j : Nat) (y : α), l[j]? = some y → p y = true → j = i) :
    l.findIdx? p = some i := by
  obtain ⟨hlt, rfl⟩ := List.getElem?_eq_some_iff.mp hi
  refine List.findIdx?_eq_some_iff_getElem.mpr ⟨hlt, hx, ?_⟩
  intro j hji hj
  have he := unique j _ (List.getElem?_eq_getElem (Nat.lt_trans hji hlt)) hj
  omega

/-- Two places whose elements are related, where no two others are, are one. -/
theorem place_eq_of_related {related : Text → Text → Prop} {l : List Text}
    (h : l.Pairwise fun a b => ¬ related a b ∧ ¬ related b a) {i j : Nat} {a b : Text}
    (hi : l[i]? = some a) (hj : l[j]? = some b) (hab : related a b) : i = j := by
  obtain ⟨hi', rfl⟩ := List.getElem?_eq_some_iff.mp hi
  obtain ⟨hj', rfl⟩ := List.getElem?_eq_some_iff.mp hj
  have hapart := List.pairwise_iff_getElem.mp h
  rcases Nat.lt_trichotomy i j with hlt | he | hlt
  · exact absurd hab (hapart i j hi' hj' hlt).1
  · exact he
  · exact absurd hab (hapart j i hj' hi' hlt).2

/-- Of texts that are apart, the one that another text starts with has one place. -/
theorem place_eq_of_prefix {l : List Text} (h : l.Pairwise PrefixApart) {i j : Nat} {a b t : Text}
    (hi : l[i]? = some a) (hj : l[j]? = some b) (ha : a <+: t) (hb : b <+: t) : i = j := by
  rcases List.prefix_or_prefix_of_prefix ha hb with hab | hba
  · exact place_eq_of_related h hi hj hab
  · exact (place_eq_of_related h hj hi hba).symm

section Accepted

variable {set : TokenSet}

/-- The literal that a text starts with has one place. -/
theorem Accepted.place_of_prefix (h : set.Accepted) {i j : Nat} {a b t : Text}
    (hi : set.literals[i]? = some a) (hj : set.literals[j]? = some b)
    (ha : a <+: t) (hb : b <+: t) : i = j :=
  place_eq_of_prefix h.prefix_apart hi hj ha hb

/-- A visible text does not reach into the indentation before a text that it ends. -/
theorem Visible.suffix_of_suffix_append {a b w : Text} (ha : Visible a) (hw : Blank w)
    (h : a <:+ w ++ b) : a <:+ b := by
  obtain ⟨u, hu⟩ := h
  rcases List.append_eq_append_iff.mp hu with ⟨d, rfl, rfl⟩ | ⟨d, rfl, rfl⟩
  · -- a text that reaches into the indentation would start blank
    obtain ⟨c, rest, hc, hblank⟩ := ha.opens
    cases d with
    | nil => exact List.suffix_rfl
    | cons e d =>
      have he : e = c := (List.cons.inj hc).1
      rw [← he, hw e (by simp)] at hblank
      cases hblank
  · exact List.suffix_append d a

/-- The literal that a text ends with has one place. -/
theorem Accepted.place_of_suffix (h : set.Accepted) {i j : Nat} {a b t : Text}
    (hi : set.literals[i]? = some a) (hj : set.literals[j]? = some b) (ha : a <:+ t)
    (hb : b <:+ t) : i = j := by
  rcases List.suffix_or_suffix_of_suffix ha hb with hab | hba
  · exact place_eq_of_related h.suffix_apart hi hj hab
  · exact (place_eq_of_related h.suffix_apart hj hi hba).symm

/-- The end of a text tells the literal that it ends with. -/
theorem Accepted.stateEnding_of_suffix (h : set.Accepted) {place : Nat} {literal t : Text}
    (hplace : set.literals[place]? = some literal) (hends : literal <:+ t) :
    set.stateEnding t = if place < set.states.length then some place else none := by
  split
  · rename_i hlt
    obtain ⟨state, hstate, hliteral⟩ := states_getElem?_of_lt hlt
    cases Option.some.inj (hplace.symm.trans hliteral)
    apply findIdx?_eq_some_of_unique hstate
    · exact List.isSuffixOf_iff_suffix.mpr hends
    · intro j other hj ho
      exact h.place_of_suffix (literals_getElem?_state hj) hplace
        (List.isSuffixOf_iff_suffix.mp ho) hends
  · rename_i hge
    rw [stateEnding, List.findIdx?_eq_none_iff]
    intro state hs
    obtain ⟨j, hj⟩ := List.mem_iff_getElem?.mp hs
    rw [Bool.eq_false_iff]
    intro ho
    have he := h.place_of_suffix (literals_getElem?_state hj) hplace
      (List.isSuffixOf_iff_suffix.mp ho) hends
    have := (List.getElem?_eq_some_iff.mp hj).1
    omega

theorem Accepted.eq_of_prefix (h : set.Accepted) {a b t : Text} (ha : a ∈ set.literals)
    (hb : b ∈ set.literals) (hat : a <+: t) (hbt : b <+: t) : a = b := by
  obtain ⟨i, hi⟩ := List.mem_iff_getElem?.mp ha
  obtain ⟨j, hj⟩ := List.mem_iff_getElem?.mp hb
  have he := h.place_of_prefix hi hj hat hbt
  subst j
  exact Option.some.inj (hi.symm.trans hj)

theorem Accepted.kind_of_literal (h : set.Accepted) {place : Nat} {literal line : Text}
    (hplace : set.literals[place]? = some literal) (hopens : literal <+: body line) :
    set.kind line = set.kindAt place := by
  by_cases hlt : place < set.states.length
  · obtain ⟨state, hstate, hliteral⟩ := states_getElem?_of_lt hlt
    cases Option.some.inj (hplace.symm.trans hliteral)
    have hfound : (set.states.findIdx? fun s => s.token.isPrefixOf (body line)) = some place := by
      apply findIdx?_eq_some_of_unique hstate (List.isPrefixOf_iff_prefix.mpr hopens)
      intro j other hj ho
      exact h.place_of_prefix (literals_getElem?_state hj) hplace
        (List.isPrefixOf_iff_prefix.mp ho) hopens
    rw [kind, hfound, kindAt, if_pos hlt]
  · have he : place = set.states.length := by
      have := (List.getElem?_eq_some_iff.mp hplace).1
      rw [literals_length] at this
      omega
    subst he
    rw [literals_getElem?_comment, Option.some.injEq] at hplace
    subst hplace
    have hnone : (set.states.findIdx? fun s => s.token.isPrefixOf (body line)) = none := by
      rw [List.findIdx?_eq_none_iff]
      intro state hs
      obtain ⟨j, hj⟩ := List.mem_iff_getElem?.mp hs
      rw [Bool.eq_false_iff]
      intro hp
      have he := h.place_of_prefix (literals_getElem?_state hj) (literals_getElem?_comment set)
        (List.isPrefixOf_iff_prefix.mp hp) hopens
      have := (List.getElem?_eq_some_iff.mp hj).1
      omega
    rw [kind, hnone, if_pos (List.isPrefixOf_iff_prefix.mpr hopens), kindAt, if_neg hlt]

/-- A line is plain, or one literal opens it and gives it its kind. -/
theorem Accepted.kind_cases (h : set.Accepted) (line : Text) :
    (set.kind line = .plain ∧ ∀ literal ∈ set.literals, ¬ literal <+: body line) ∨
    ∃ place literal, set.literals[place]? = some literal ∧ literal <+: body line ∧
      set.kind line = set.kindAt place := by
  by_cases hp : ∃ literal ∈ set.literals, literal <+: body line
  · obtain ⟨literal, hmem, hopens⟩ := hp
    obtain ⟨place, hplace⟩ := List.mem_iff_getElem?.mp hmem
    exact .inr ⟨place, literal, hplace, hopens, h.kind_of_literal hplace hopens⟩
  · have hplain : ∀ literal ∈ set.literals, ¬ literal <+: body line :=
      fun literal hmem hopens => hp ⟨literal, hmem, hopens⟩
    exact .inl ⟨(kind_eq_plain_iff set line).mpr hplain, hplain⟩

/-- What no literal holds may follow a line without changing its kind. -/
theorem Accepted.kind_append_cons (h : set.Accepted) {c : Char} (hblank : isBlank c = false)
    (hc : ∀ literal ∈ set.literals, c ∉ literal) (line t : Text) :
    set.kind (line ++ c :: t) = set.kind line := by
  have hbody := body_append_cons hblank line t
  rcases h.kind_cases line with ⟨hplain, hnone⟩ | ⟨place, literal, hplace, hopens, hkind⟩
  · rw [hplain, kind_eq_plain_iff, hbody]
    intro literal hmem hp
    exact hnone literal hmem ((prefix_append_cons_iff (hc literal hmem) _ t).mp hp)
  · rw [hkind]
    apply h.kind_of_literal hplace
    rw [hbody]
    exact hopens.trans (List.prefix_append _ _)

end Accepted

end TokenSet

end Checklist
