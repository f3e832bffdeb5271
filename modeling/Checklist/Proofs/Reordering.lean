import Mathlib.Data.List.FinRange
import Mathlib.Logic.Equiv.Fin.Rotate
import Checklist.Proofs.Regions

namespace Checklist
open Text

/-- A kind where each place is counted as `f` tells. -/
def LineKind.moved (f : Nat → Nat) : LineKind → LineKind
  | .state place => .state (f place)
  | .comment => .comment
  | .plain => .plain

namespace Region

/-- A region where each place is counted as `f` tells, on the same lines. -/
def moved (f : Nat → Nat) (region : Region) : Region :=
  { region with state := f region.state }

theorem plainRun_map_moved (f : Nat → Nat) (kinds : List LineKind) :
    plainRun (kinds.map (LineKind.moved f)) = plainRun kinds := by
  induction kinds with
  | nil => rfl
  | cons kind rest ih =>
    cases kind with
    | state place => rfl
    | comment => rfl
    | plain => rw [List.map_cons, LineKind.moved, plainRun_cons_plain, plainRun_cons_plain, ih]

theorem ofKinds_map_moved (f : Nat → Nat) (line : Nat) (kinds : List LineKind) :
    ofKinds line (kinds.map (LineKind.moved f)) = (ofKinds line kinds).map (moved f) := by
  induction kinds generalizing line with
  | nil => rfl
  | cons kind rest ih =>
    cases kind with
    | state place =>
      rw [List.map_cons, LineKind.moved, ofKinds, ofKinds, List.map_cons, ih, plainRun_map_moved]
      rfl
    | comment => exact ih (line + 1)
    | plain => exact ih (line + 1)

end Region

/-- An engine that refuses no expression of literals but for its size. Literals of which none starts
or ends another take the same room in whatever order they stand. -/
structure Engine.SizeLimited (engine : Engine) (size : Text → Nat) (limit : Nat) : Prop where
  refusal?_eq_none_iff (openers : Openers) :
    engine.refusal? openers.source = none ↔ size openers.source ≤ limit
  size_eq_of_perm (openers twin : Openers) :
    openers.alternatives.Perm twin.alternatives →
    openers.alternatives.Pairwise TokenSet.PrefixApart →
    openers.alternatives.Pairwise TokenSet.SuffixApart → size openers.source = size twin.source

namespace Openers

theorem byteLength_perm {t u : Text} (h : t.Perm u) : t.byteLength = u.byteLength := by
  induction h with
  | nil => rfl
  | cons c _ ih => rw [byteLength_cons, byteLength_cons, ih]
  | swap c d t =>
    simp only [byteLength_cons]
    omega
  | trans _ _ ih ih' => exact ih.trans ih'

theorem byteLength_join_perm {separator : Text} {pieces pieces' : List Text}
    (h : pieces.Perm pieces') :
    (join separator pieces).byteLength = (join separator pieces').byteLength := by
  by_cases hp : pieces = []
  · subst hp
    rw [List.nil_perm.mp h]
  · have hp' : pieces' ≠ [] := fun hnil => hp (List.perm_nil.mp (hnil ▸ h))
    have hlength := byteLength_perm (h.flatMap_right (· ++ separator))
    rw [← join_append_separator hp, ← join_append_separator hp', byteLength_append,
      byteLength_append] at hlength
    exact Nat.add_right_cancel hlength

theorem namedBytes_source_perm {openers twin : Openers}
    (h : openers.alternatives.Perm twin.alternatives) :
    Engine.namedBytes openers.source = Engine.namedBytes twin.source := by
  rw [namedBytes_source, namedBytes_source, byteLength_join_perm h]

end Openers

theorem Engine.sizeLimited_usual :
    Engine.usual.SizeLimited (fun expression => stateSize * namedBytes expression) sizeLimit where
  refusal?_eq_none_iff _ := usual_eq_none_iff
  size_eq_of_perm _ _ hperm _ _ :=
    congrArg (stateSize * ·) (Openers.namedBytes_source_perm hperm)

namespace TokenSet

section Permuted

variable {set twin : TokenSet} {states states' : List State} {comment : Text}

theorem literals_perm (h : states'.Perm states) :
    (⟨states', comment⟩ : TokenSet).literals.Perm (⟨states, comment⟩ : TokenSet).literals :=
  (h.map State.token).append_right [comment]

/-- What makes a set acceptable does not ask for the order of its literals. -/
theorem Accepted.of_perm (h : set.Accepted) (states : twin.states.Perm set.states)
    (literals : twin.literals.Perm set.literals) : twin.Accepted where
  states_ne_nil hnil := h.states_ne_nil (List.nil_perm.mp (hnil ▸ states))
  visible literal hm := h.visible literal (literals.mem_iff.mp hm)
  prefix_apart := (literals.pairwise_iff fun hab => ⟨hab.2, hab.1⟩).mpr h.prefix_apart
  suffix_apart := (literals.pairwise_iff fun hab => ⟨hab.2, hab.1⟩).mpr h.suffix_apart

theorem exists_ofStates_iff_accepted {engine : Engine} :
    (∃ set, ofStates engine states comment = .ok set) ↔
      (⟨states, comment⟩ : TokenSet).Accepted ∧
        engine.refusal? (⟨states, comment⟩ : TokenSet).openers.source = none := by
  constructor
  · rintro ⟨set, hset⟩
    obtain ⟨rfl, h⟩ := ofStates_eq_ok_iff.mp hset
    exact h
  · intro h
    exact ⟨_, ofStates_eq_ok_iff.mpr ⟨rfl, h⟩⟩

/-- What passes the checks in one order passes them in another, and has the same size. -/
theorem exists_ofStates_of_perm {engine : Engine} {size : Text → Nat} {limit : Nat}
    (sized : engine.SizeLimited size limit) (h : states'.Perm states)
    (haccepts : ∃ set, ofStates engine states comment = .ok set) :
    ∃ set, ofStates engine states' comment = .ok set := by
  obtain ⟨haccepted, hcompiled⟩ := exists_ofStates_iff_accepted.mp haccepts
  have hliterals : (⟨states', comment⟩ : TokenSet).literals.Perm
      (⟨states, comment⟩ : TokenSet).literals := literals_perm h
  refine exists_ofStates_iff_accepted.mpr ⟨haccepted.of_perm h hliterals, ?_⟩
  have hperm := alternatives_perm ⟨states, comment⟩
  have hperm' := alternatives_perm ⟨states', comment⟩
  have hstart := (hperm.pairwise_iff fun hab => ⟨hab.2, hab.1⟩).mpr haccepted.prefix_apart
  have hend := (hperm.pairwise_iff fun hab => ⟨hab.2, hab.1⟩).mpr haccepted.suffix_apart
  have hsize := sized.size_eq_of_perm _ _ (hperm.trans (hliterals.symm.trans hperm'.symm)) hstart
    hend
  rw [sized.refusal?_eq_none_iff] at hcompiled ⊢
  rwa [← hsize]

theorem Accepted.alternative?_of_perm (h : set.Accepted) (h' : twin.Accepted)
    (literals : twin.literals.Perm set.literals) (t : Text) :
    twin.openers.alternative? t = set.openers.alternative? t := by
  apply Option.ext
  intro literal
  rw [h.alternative?_eq_some_iff, h'.alternative?_eq_some_iff, literals.mem_iff]

theorem Accepted.rowOpenings_of_perm (h : set.Accepted) (h' : twin.Accepted)
    (literals : twin.literals.Perm set.literals) (offset : Nat) (rows : List Text) :
    twin.openers.rowOpenings offset rows = set.openers.rowOpenings offset rows := by
  induction rows generalizing offset with
  | nil => rfl
  | cons row rest ih =>
    rw [Openers.rowOpenings, Openers.rowOpenings, Openers.opening?, Openers.opening?,
      h.alternative?_of_perm h' literals, ih]

end Permuted

/-- The states in another order, each place taken by the state that was at `order` of it. -/
def reordered (states : List State) (order : Equiv.Perm (Fin states.length)) : List State :=
  List.ofFn fun place => states[order place]

/-- Where the state of a place was before the states were reordered. The comment marker stays in its
place after them. -/
def placeBefore {count : Nat} (order : Equiv.Perm (Fin count)) (place : Nat) : Nat :=
  if h : place < count then order ⟨place, h⟩ else place

section Reordered

variable {states : List State} {comment : Text} {order : Equiv.Perm (Fin states.length)}

theorem reordered_perm : (reordered states order).Perm states := by
  have h := Equiv.Perm.ofFn_comp_perm order states.get
  rwa [List.ofFn_get] at h

theorem reordered_getElem? {place : Nat} (h : place < states.length) :
    (reordered states order)[place]? = some states[order ⟨place, h⟩] := by
  rw [reordered, List.getElem?_ofFn, dif_pos h]

theorem placeBefore_of_lt {place : Nat} (h : place < states.length) :
    placeBefore order place = order ⟨place, h⟩ :=
  dif_pos h

theorem placeBefore_lt_iff {place : Nat} :
    placeBefore order place < states.length ↔ place < states.length := by
  unfold placeBefore
  split
  · rename_i h
    exact ⟨fun _ => h, fun _ => (order ⟨place, h⟩).isLt⟩
  · rfl

/-- What opens a line stays the same: only the place at which it is listed changes. -/
theorem literals_getElem?_placeBefore {place : Nat} {literal : Text}
    (h : (⟨reordered states order, comment⟩ : TokenSet).literals[place]? = some literal) :
    (⟨states, comment⟩ : TokenSet).literals[placeBefore order place]? = some literal := by
  have hlength : (reordered states order).length = states.length := List.length_ofFn
  by_cases hlt : place < states.length
  · rw [literals_getElem?_state (reordered_getElem? hlt)] at h
    rw [placeBefore_of_lt hlt, ← h]
    exact literals_getElem?_state (List.getElem?_eq_getElem _)
  · have hlast : place = states.length := by
      have := (List.getElem?_eq_some_iff.mp h).1
      rw [literals_length, hlength] at this
      omega
    have hcomment := literals_getElem?_comment ⟨reordered states order, comment⟩
    rw [hlength, ← hlast, h, Option.some.injEq] at hcomment
    rw [placeBefore, dif_neg hlt, hlast, hcomment]
    exact literals_getElem?_comment ⟨states, comment⟩

theorem kindAt_placeBefore (place : Nat) :
    (⟨states, comment⟩ : TokenSet).kindAt (placeBefore order place) =
      ((⟨reordered states order, comment⟩ : TokenSet).kindAt place).moved (placeBefore order) := by
  have hlength : (reordered states order).length = states.length := List.length_ofFn
  simp only [kindAt, placeBefore_lt_iff, hlength]
  split
  · rfl
  · rfl

/-- A line has its kind in the one order and in the other. -/
theorem Accepted.kind_reordered (h : (⟨states, comment⟩ : TokenSet).Accepted)
    (h' : (⟨reordered states order, comment⟩ : TokenSet).Accepted) (line : Text) :
    (⟨states, comment⟩ : TokenSet).kind line =
      ((⟨reordered states order, comment⟩ : TokenSet).kind line).moved (placeBefore order) := by
  rcases h'.kind_cases line with ⟨hplain, hnone⟩ | ⟨place, literal, hplace, hopens, hkind⟩
  · rw [hplain, LineKind.moved, kind_eq_plain_iff]
    intro literal hm
    exact hnone literal ((literals_perm reordered_perm).mem_iff.mpr hm)
  · rw [hkind, h.kind_of_literal (literals_getElem?_placeBefore hplace) hopens,
      kindAt_placeBefore]

theorem Accepted.regions_reordered (h : (⟨states, comment⟩ : TokenSet).Accepted)
    (h' : (⟨reordered states order, comment⟩ : TokenSet).Accepted) (t : Text) :
    Region.ofText ⟨states, comment⟩ t =
      (Region.ofText ⟨reordered states order, comment⟩ t).map
        (Region.moved (placeBefore order)) := by
  rw [Region.ofText_eq_ofKinds h, Region.ofText_eq_ofKinds h', ← Region.ofKinds_map_moved, kinds,
    kinds, List.map_map]
  congr 1
  apply List.map_congr_left
  intro row _
  exact h.kind_reordered h' row

end Reordered

/-- The order of the states makes no difference to what is recognised. A list passes
the checks in every order or in none, and so is accepted in every order or in none where an engine
refuses literals for nothing but their size. In every order a text has the same openings, and regions on the same lines, of the same states
in their other places. -/
theorem ofStates_reordered (engine : Engine) (states : List State) (comment : Text)
    (order : Equiv.Perm (Fin states.length)) :
    ((⟨reordered states order, comment⟩ : TokenSet).error? = none ↔
      (⟨states, comment⟩ : TokenSet).error? = none) ∧
    (∀ size limit, engine.SizeLimited size limit →
      ((∃ set, ofStates engine (reordered states order) comment = .ok set) ↔
        ∃ set, ofStates engine states comment = .ok set)) ∧
    ∀ set twin, ofStates engine states comment = .ok set →
      ofStates engine (reordered states order) comment = .ok twin →
      ∀ t, twin.openers.openings t = set.openers.openings t ∧
        Region.ofText set t = (Region.ofText twin t).map (Region.moved (placeBefore order)) := by
  have hstates : (reordered states order).Perm states := reordered_perm
  have hliterals : (⟨reordered states order, comment⟩ : TokenSet).literals.Perm
      (⟨states, comment⟩ : TokenSet).literals := literals_perm hstates
  refine ⟨?_, ?_, ?_⟩
  · rw [error?_eq_none_iff, error?_eq_none_iff]
    exact ⟨fun h => h.of_perm hstates.symm hliterals.symm, fun h => h.of_perm hstates hliterals⟩
  · intro size limit sized
    exact ⟨exists_ofStates_of_perm sized hstates.symm, exists_ofStates_of_perm sized hstates⟩
  · intro set twin hset htwin t
    obtain ⟨rfl, h, -⟩ := ofStates_eq_ok_iff.mp hset
    obtain ⟨rfl, h', -⟩ := ofStates_eq_ok_iff.mp htwin
    refine ⟨?_, h.regions_reordered h' t⟩
    rw [h.openings_eq, h'.openings_eq, h.rowOpenings_of_perm h' hliterals]

/-- The first state put last, so that the others move up. -/
theorem ofStates_reordered_rotated :
    Engine.usual.SizeLimited (fun expression => Engine.stateSize * Engine.namedBytes expression)
      Engine.sizeLimit ∧
    ofStates .usual defaultStates defaultComment = .ok standard ∧
    ∃ twin, ofStates .usual (reordered defaultStates (finRotate 3)) defaultComment = .ok twin ∧
      twin.states.map State.token = ["+ ".toList, "-> ".toList, "- ".toList] ∧
      Region.ofText twin "- a\n -> b\n\n-- c\n+ d".toList = [⟨2, 0, 0⟩, ⟨1, 1, 2⟩, ⟨0, 4, 4⟩] ∧
      Region.ofText standard "- a\n -> b\n\n-- c\n+ d".toList =
        [⟨0, 0, 0⟩, ⟨2, 1, 2⟩, ⟨1, 4, 4⟩] := by
  obtain ⟨-, haccepts, hsame⟩ :=
    ofStates_reordered .usual defaultStates defaultComment (finRotate 3)
  obtain ⟨twin, htwin⟩ := (haccepts _ _ Engine.sizeLimited_usual).mpr ⟨standard, ofStates_default⟩
  obtain ⟨-, hregions⟩ := hsame standard twin ofStates_default htwin
    "- a\n -> b\n\n-- c\n+ d".toList
  obtain ⟨rfl, h, -⟩ := ofStates_eq_ok_iff.mp htwin
  have hfound : Region.ofText ⟨reordered defaultStates (finRotate 3), defaultComment⟩
      "- a\n -> b\n\n-- c\n+ d".toList = [⟨2, 0, 0⟩, ⟨1, 1, 2⟩, ⟨0, 4, 4⟩] := by
    rw [Region.ofText_eq_ofKinds h]
    decide
  refine ⟨Engine.sizeLimited_usual, ofStates_default, _, htwin, by decide, hfound, ?_⟩
  rw [hregions, hfound]
  decide

end TokenSet

end Checklist
