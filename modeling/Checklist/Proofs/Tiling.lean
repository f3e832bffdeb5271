import Mathlib.Data.List.Chain
import Checklist.Proofs.Partition
import Checklist.Proofs.Regions
import Checklist.Proofs.Search

namespace Checklist
open Text TokenSet

namespace Text

/-- The byte of a line feed stands where a line feed stands, and nowhere else. -/
theorem octets_feedOctet_iff {t : Text} {offset : Nat} :
    t.octets[offset]? = some feedOctet ↔
      ∃ before after, t = before ++ '\n' :: after ∧ before.byteLength = offset := by
  constructor
  · intro h
    induction t generalizing offset with
    | nil => cases h
    | cons c t ih =>
      have hlen := String.length_utf8EncodeChar c
      rw [octets_cons] at h
      rcases Nat.lt_or_ge offset c.utf8Size with hlt | hge
      · rw [List.getElem?_append_left (by omega)] at h
        have hc : c = '\n' := by
          by_contra hc
          exact feedOctet_not_mem_encode hc (List.mem_of_getElem? h)
        subst hc
        exact ⟨[], t, rfl, (Nat.lt_one_iff.mp hlt).symm⟩
      · rw [List.getElem?_append_right (by omega)] at h
        obtain ⟨before, after, rfl, hb⟩ := ih h
        exact ⟨c :: before, after, rfl, by rw [byteLength_cons]; omega⟩
  · rintro ⟨before, after, rfl, rfl⟩
    rw [octets_append, octets_cons, encode_feed, ← octets_length,
      List.getElem?_append_right (Nat.le_refl _), Nat.sub_self]
    rfl

/-- A line feed begins and ends at a boundary. -/
theorem boundary_of_feedOctet {t : Text} {offset : Nat} (h : t.octets[offset]? = some feedOctet) :
    t.Boundary offset ∧ t.Boundary (offset + 1) := by
  obtain ⟨before, after, rfl, rfl⟩ := octets_feedOctet_iff.mp h
  refine ⟨⟨before, _, rfl, rfl⟩, ⟨before ++ ['\n'], after, by simp, ?_⟩⟩
  rw [byteLength_append]
  rfl

theorem boundary_byteLength (t : Text) : t.Boundary t.byteLength :=
  ⟨t, [], (List.append_nil t).symm, rfl⟩

end Text

namespace Opening

/-- An opening of some bytes within a text, on a line of it. -/
structure Placed (t : Text) (opening : Opening) : Prop where
  line : ∃ before after, t = before ++ after ∧ before.byteLength = opening.offset ∧ EndsLine before
  filled : opening.offset < opening.stop
  within : opening.stop ≤ t.byteLength

variable {t : Text} {opening : Opening}

theorem Placed.boundary (h : Placed t opening) : t.Boundary opening.offset := by
  obtain ⟨before, after, ht, hoffset, -⟩ := h.line
  exact ⟨before, after, ht, hoffset⟩

/-- The byte before an opening that is not the first thing in its text. -/
theorem Placed.feed_before (h : Placed t opening) (pos : 0 < opening.offset) :
    t.octets[opening.offset - 1]? = some feedOctet := by
  obtain ⟨before, after, rfl, hoffset, hempty | hfeed⟩ := h.line
  · rw [← hoffset, hempty] at pos
    exact absurd pos (Nat.lt_irrefl 0)
  · obtain ⟨front, rfl⟩ := List.getLast?_eq_some_iff.mp hfeed
    refine octets_feedOctet_iff.mpr ⟨front, after, by simp, ?_⟩
    rw [← hoffset, byteLength_append]
    exact (Nat.add_sub_cancel (byteLength front) 1).symm

end Opening

namespace TokenSet

variable {set : TokenSet} {t : Text} {opening : Opening}

/-- An opening has no line feed, since neither an indentation nor a literal has one. -/
theorem Accepted.no_feed_opening (h : set.Accepted)
    (hmem : opening ∈ set.openers.openings t) : '\n' ∉ opening.literal := by
  obtain ⟨before, after, -, -, -, opens⟩ := Openers.exists_opens hmem
  obtain ⟨rest, -, hfound⟩ := opens.found
  have hvisible := h.allVisible _ (Openers.alternative?_eq_some hfound).1
  rw [Opening.literal, List.mem_append, not_or]
  exact ⟨fun hm => absurd (opens.blank _ hm) (by decide), hvisible.no_feed⟩

theorem Accepted.placed (h : set.Accepted) (hmem : opening ∈ set.openers.openings t) :
    opening.Placed t := by
  obtain ⟨before, after, rfl, hoffset, hline, opens⟩ := Openers.exists_opens hmem
  obtain ⟨rest, hrest⟩ := opens.literal_prefix
  obtain ⟨_, -, hfound⟩ := opens.found
  obtain ⟨c, token, htoken, -⟩ := (h.allVisible _ (Openers.alternative?_eq_some hfound).1).opens
  have hpos := c.utf8Size_pos
  refine ⟨⟨before, after, rfl, hoffset, hline⟩, ?_, ?_⟩
  · rw [Opening.stop, Opening.literal, htoken, byteLength_append, byteLength_cons]
    omega
  · rw [← hrest, Opening.stop, Opening.literal, byteLength_append before,
      byteLength_append (opening.indent ++ opening.token), hoffset]
    omega

/-- An opening ends before the line feed in front of the next one. -/
theorem Accepted.openings_pairwise (h : set.Accepted) (t : Text) :
    (set.openers.openings t).Pairwise fun opening next => opening.stop < next.offset := by
  refine List.Pairwise.imp_of_mem ?_ (Openers.openingsFrom_pairwise set.openers 0 true none t)
  intro opening next hmem hnext hle
  refine Nat.lt_of_le_of_ne hle.2.1 fun hstop => ?_
  -- otherwise the text before the next line ends with the opening
  obtain ⟨before, after, ht, hoffset, -, opens⟩ := Openers.exists_opens hmem
  obtain ⟨rest, hrest⟩ := opens.literal_prefix
  obtain ⟨before', after', ht', hoffset', hline⟩ := (h.placed hnext).line
  have hsame : before' = before ++ opening.literal := by
    have hbefore' := takeBytes_byteLength_append before' after'
    have hbefore := takeBytes_byteLength_append (before ++ opening.literal) rest
    rw [byteLength_append, hoffset, List.append_assoc, Opening.literal, hrest, ← ht] at hbefore
    rw [hoffset', ← ht', ← hstop, Opening.stop, Opening.literal, hbefore] at hbefore'
    exact hbefore'.symm
  have hfilled := (h.placed hmem).filled
  have hne : opening.literal ≠ [] := by
    intro hempty
    rw [Opening.stop, hempty] at hfilled
    exact absurd hfilled (Nat.lt_irrefl _)
  rw [hsame] at hline
  rcases hline with hempty | hfeed
  · exact hne (List.append_eq_nil_iff.mp hempty).2
  · rw [List.getLast?_append_of_ne_nil _ hne] at hfeed
    exact h.no_feed_opening hmem (List.mem_of_getLast? hfeed)

end TokenSet

namespace Stretch

/-- Openings with their spans, from the first opening to the end of the text, with the byte of a line
feed between one span and the next. -/
inductive Tiles (t : Text) : List (Opening × Span) → Prop
  | nil : Tiles t []
  | last {opening : Opening} : opening.offset < t.byteLength →
      Tiles t [(opening, ⟨opening.offset, t.byteLength⟩)]
  | cons {opening next : Opening} {stop : Nat} {span : Span} {rest : List (Opening × Span)} :
      opening.offset < stop → stop + 1 = next.offset → t.octets[stop]? = some feedOctet →
      Tiles t ((next, span) :: rest) →
      Tiles t ((opening, ⟨opening.offset, stop⟩) :: (next, span) :: rest)

section Tiles

variable {t : Text} {openings : List Opening} {tiles rest : List (Opening × Span)}
  {first tile : Opening × Span}

theorem between_map_fst (length : Nat) (openings : List Opening) :
    (between length openings).map Prod.fst = openings := by
  induction openings with
  | nil => rfl
  | cons opening rest ih => rw [between_cons, List.map_cons, ih]

theorem mem_of_mem_between {length : Nat} (h : tile ∈ between length openings) :
    tile.1 ∈ openings := by
  rw [← between_map_fst length openings]
  exact List.mem_map_of_mem h

theorem tiles_between (placed : ∀ opening ∈ openings, opening.Placed t)
    (apart : openings.Pairwise fun opening next => opening.stop < next.offset) :
    Tiles t (between t.byteLength openings) := by
  induction openings with
  | nil => exact .nil
  | cons opening rest ih =>
    obtain ⟨hapart, hrest⟩ := List.pairwise_cons.mp apart
    have hopening := placed opening List.mem_cons_self
    have htiles := ih (fun next hn => placed next (List.mem_cons_of_mem _ hn)) hrest
    cases rest with
    | nil => exact .last (Nat.lt_of_lt_of_le hopening.filled hopening.within)
    | cons next rest =>
      have hnext := placed next (List.mem_cons_of_mem _ List.mem_cons_self)
      have hlt := hapart next List.mem_cons_self
      have hfilled := hopening.filled
      have hstop : next.offset - 1 + 1 = next.offset := by omega
      have hlow : opening.offset < next.offset - 1 := by omega
      rw [between_cons] at htiles
      rw [between_cons, between_cons]
      exact .cons hlow hstop (hnext.feed_before (by omega)) htiles

theorem Tiles.start_eq (h : Tiles t tiles) (hmem : tile ∈ tiles) : tile.2.start = tile.1.offset := by
  induction h with
  | nil => cases hmem
  | last => rw [List.mem_singleton.mp hmem]
  | cons _ _ _ _ ih =>
    rcases List.mem_cons.mp hmem with rfl | hmem
    · rfl
    · exact ih hmem

theorem Tiles.span_bounds (h : Tiles t tiles) (hmem : tile ∈ tiles) :
    tile.2.start < tile.2.stop ∧ tile.2.stop ≤ t.byteLength ∧ t.Boundary tile.2.stop := by
  induction h with
  | nil => cases hmem
  | last hlt =>
    rw [List.mem_singleton.mp hmem]
    exact ⟨hlt, Nat.le_refl _, boundary_byteLength t⟩
  | cons hlt _ hfeed _ ih =>
    rcases List.mem_cons.mp hmem with rfl | hmem
    · have hbyte := (List.getElem?_eq_some_iff.mp hfeed).1
      rw [octets_length] at hbyte
      exact ⟨hlt, Nat.le_of_lt hbyte, (boundary_of_feedOctet hfeed).1⟩
    · exact ih hmem

theorem Tiles.pairwise (h : Tiles t tiles) :
    tiles.Pairwise fun tile next => tile.2.stop < next.2.start := by
  induction h with
  | nil => exact .nil
  | last => exact List.pairwise_singleton _ _
  | @cons opening next stop span rest hlt hnext _ htail ih =>
    refine .cons ?_ ih
    have hstart := htail.start_eq List.mem_cons_self
    have hspan := (htail.span_bounds List.mem_cons_self).1
    intro later hlater
    dsimp only at hstart hspan ⊢
    rcases List.mem_cons.mp hlater with rfl | hlater
    · dsimp only
      omega
    · have := (List.pairwise_cons.mp ih).1 later hlater
      dsimp only at this
      omega

/-- Every byte from the first opening on is in a span, or is the line feed before another one. -/
theorem Tiles.covers (h : Tiles t (first :: rest)) {offset : Nat} (hlow : first.1.offset ≤ offset)
    (hhigh : offset < t.byteLength) :
    (∃ tile ∈ first :: rest, tile.2.start ≤ offset ∧ offset < tile.2.stop) ∨
      ∃ next ∈ rest, offset + 1 = next.1.offset := by
  generalize htiles : first :: rest = tiles at h
  induction h generalizing first rest with
  | nil => cases htiles
  | last =>
    cases htiles
    exact .inl ⟨_, List.mem_cons_self, hlow, hhigh⟩
  | @cons opening next stop span later _ hnext _ _ ih =>
    cases htiles
    by_cases hin : offset < stop
    · exact .inl ⟨_, List.mem_cons_self, hlow, hin⟩
    by_cases hfeed : offset = stop
    · exact .inr ⟨_, List.mem_cons_self, by rw [hfeed, hnext]⟩
    rcases @ih later (next, span) (by dsimp only; omega) rfl with
      ⟨tile, hmem, htile⟩ | ⟨tile, hmem, htile⟩
    · exact .inl ⟨tile, List.mem_cons_of_mem _ hmem, htile⟩
    · exact .inr ⟨tile, List.mem_cons_of_mem _ hmem, htile⟩

/-- The stretch of a span whose opening is of a state. -/
def ofTile (state? : Opening → Option Nat) (tile : Opening × Span) : Option Stretch :=
  (state? tile.1).map (⟨tile.2, ·⟩)

variable {state? : Opening → Option Nat} {stretch next : Stretch}

theorem ofTile_eq_some (h : ofTile state? tile = some stretch) :
    state? tile.1 = some stretch.state ∧ tile.2 = stretch.toSpan := by
  obtain ⟨state, hstate, rfl⟩ := Option.map_eq_some_iff.mp h
  exact ⟨hstate, rfl⟩

theorem ofTile_eq_none_iff : ofTile state? tile = none ↔ state? tile.1 = none :=
  Option.map_eq_none_iff

/-- The first stretch of some tiles is that of the first tile, or comes after a tile without one. -/
theorem Tiles.start_of_head {second : Opening} {span : Span} {others : List Stretch}
    (h : Tiles t ((second, span) :: rest))
    (hrest : ((second, span) :: rest).filterMap (ofTile state?) = next :: others) :
    next.start = second.offset ∨ (state? second = none ∧ second.offset < next.start) := by
  have hstart := h.start_eq List.mem_cons_self
  have hfilled := (h.span_bounds List.mem_cons_self).1
  dsimp only at hstart hfilled
  cases hfound : ofTile state? (second, span) with
  | none =>
    rw [List.filterMap_cons_none hfound] at hrest
    have hnext : next ∈ rest.filterMap (ofTile state?) := hrest ▸ List.mem_cons_self
    obtain ⟨tile, hm, htile⟩ := List.mem_filterMap.mp hnext
    have hbefore := (List.pairwise_cons.mp h.pairwise).1 tile hm
    rw [(ofTile_eq_some htile).2] at hbefore
    dsimp only at hbefore
    exact .inr ⟨ofTile_eq_none_iff.mp hfound, by omega⟩
  | some found =>
    rw [List.filterMap_cons_some hfound, List.cons.injEq] at hrest
    obtain ⟨rfl, -⟩ := hrest
    obtain ⟨-, hspan⟩ := ofTile_eq_some hfound
    dsimp only at hspan
    exact .inl (by rw [← hstart, hspan])

/-- Where every opening between two stretches would have given a stretch of its own, one line feed
divides them. -/
theorem Tiles.isChain (h : Tiles t tiles) (state? : Opening → Option Nat) :
    (tiles.filterMap (ofTile state?)).IsChain fun stretch next =>
      (∀ tile ∈ tiles, stretch.start < tile.1.offset → tile.1.offset < next.start →
        state? tile.1 ≠ none) → stretch.stop + 1 = next.start := by
  induction h with
  | nil => exact .nil
  | last =>
    rw [List.filterMap_cons, List.filterMap_nil]
    split
    · exact .nil
    · exact .singleton _
  | @cons opening second stop span rest hlt hsecond hfeed htail ih =>
    have hlater := ih.imp fun stretch next (hnext : _ → _)
      (hall : ∀ tile ∈ (opening, ⟨opening.offset, stop⟩) :: (second, span) :: rest,
        stretch.start < tile.1.offset → tile.1.offset < next.start → state? tile.1 ≠ none) =>
      hnext fun tile hm => hall tile (List.mem_cons_of_mem _ hm)
    cases hfirst : ofTile state? (opening, ⟨opening.offset, stop⟩) with
    | none =>
      rw [List.filterMap_cons_none hfirst]
      exact hlater
    | some stretch =>
      obtain ⟨-, hspan⟩ := ofTile_eq_some hfirst
      have hstart : stretch.start = opening.offset := by rw [← hspan]
      have hstop : stretch.stop = stop := by rw [← hspan]
      rw [List.filterMap_cons_some hfirst]
      cases hrest : ((second, span) :: rest).filterMap (ofTile state?) with
      | nil => exact .singleton _
      | cons next others =>
        rw [hrest] at hlater
        refine .cons_cons ?_ hlater
        intro hall
        rcases htail.start_of_head hrest with hnext | ⟨hnone, hnext⟩
        · rw [hstop, hnext, hsecond]
        · have hsome := hall (second, span) (List.mem_cons_of_mem _ List.mem_cons_self)
          dsimp only at hsome
          exact absurd hnone (hsome (by omega) hnext)

end Tiles

end Stretch

namespace TokenSet

variable {set : TokenSet} {t : Text} {opening : Opening}

/-- The place of the state with a token. -/
def stateOf (set : TokenSet) (token : Text) : Option Nat :=
  set.states.findIdx? (·.token = token)

theorem Accepted.stateOf_literal (h : set.Accepted) {place : Nat} {literal : Text}
    (hplace : set.literals[place]? = some literal) :
    set.stateOf literal = if place < set.states.length then some place else none := by
  have hsame {j : Nat} {state : State} (hj : set.states[j]? = some state)
      (hs : decide (state.token = literal) = true) : j = place := by
    rw [← of_decide_eq_true hs] at hplace
    exact h.place_of_prefix (literals_getElem?_state hj) hplace List.prefix_rfl List.prefix_rfl
  split
  · rename_i hlt
    obtain ⟨state, hstate, hliteral⟩ := states_getElem?_of_lt hlt
    have htoken : decide (state.token = literal) = true :=
      decide_eq_true (Option.some.inj (hliteral.symm.trans hplace))
    exact findIdx?_eq_some_of_unique hstate htoken fun j other hj ho => hsame hj ho
  · rename_i hge
    rw [stateOf, List.findIdx?_eq_none_iff]
    intro state hs
    obtain ⟨j, hj⟩ := List.mem_iff_getElem?.mp hs
    rw [Bool.eq_false_iff]
    intro ho
    have hlt := (List.getElem?_eq_some_iff.mp hj).1
    rw [hsame hj ho] at hlt
    exact hge hlt

theorem exists_place (hmem : opening ∈ set.openers.openings t) :
    ∃ place : Nat, set.literals[place]? = some opening.token := by
  obtain ⟨_, _, -, -, -, opens⟩ := Openers.exists_opens hmem
  obtain ⟨_, -, hfound⟩ := opens.found
  exact List.mem_iff_getElem?.mp (mem_alternatives.mp (Openers.alternative?_eq_some hfound).1)

/-- The end of an opening is told by its token alone. -/
theorem Accepted.stateEnding_opening (h : set.Accepted)
    (hmem : opening ∈ set.openers.openings t) :
    set.stateEnding opening.literal = set.stateOf opening.token := by
  obtain ⟨place, hplace⟩ := exists_place hmem
  rw [h.stateOf_literal hplace]
  exact h.stateEnding_of_suffix hplace (List.suffix_append _ _)

theorem Accepted.stateOf_eq_none_iff (h : set.Accepted)
    (hmem : opening ∈ set.openers.openings t) :
    set.stateOf opening.token = none ↔ opening.token = set.comment := by
  obtain ⟨place, hplace⟩ := exists_place hmem
  have hcomment := literals_getElem?_comment set
  rw [h.stateOf_literal hplace, ite_eq_right_iff]
  simp only [reduceCtorEq, imp_false]
  constructor
  · intro hge
    have hlt := (List.getElem?_eq_some_iff.mp hplace).1
    rw [literals_length] at hlt
    rw [show place = set.states.length by omega, hcomment] at hplace
    exact (Option.some.inj hplace).symm
  · intro heq
    rw [heq] at hplace
    rw [h.place_of_prefix hplace hcomment List.prefix_rfl List.prefix_rfl]
    exact Nat.lt_irrefl _

end TokenSet

namespace Stretch

variable {set : TokenSet} {t : Text}

theorem ofText_eq (h : set.Accepted) (t : Text) :
    ofText set t = (between t.byteLength (set.openers.openings t)).filterMap
      (ofTile fun opening => set.stateOf opening.token) := by
  apply List.filterMap_congr
  intro tile hmem
  show (set.stateEnding tile.1.literal).map _ = _
  rw [h.stateEnding_opening (mem_of_mem_between hmem)]
  rfl

/-- The openings of a text tile it from the first one to the end: each span ends at the line feed
before the next opening, and the last one at the end of the text. The stretches are the spans of the
openings that are tokens of states, in order. They are not empty, begin and end between characters
and are apart, by the one line feed where no comment is between two. What is behind the first
opening and in no stretch is one of these line feeds or in the span of a comment. -/
theorem ofText_tiles {engine : Engine} {states : List State} {comment : Text}
    (accepted : ofStates engine states comment = .ok set) (t : Text) :
    (between t.byteLength (set.openers.openings t)).map Prod.fst = set.openers.openings t ∧
    Tiles t (between t.byteLength (set.openers.openings t)) ∧
    ofText set t = (between t.byteLength (set.openers.openings t)).filterMap
      (ofTile fun opening => set.stateOf opening.token) ∧
    (∀ opening ∈ set.openers.openings t,
      set.stateOf opening.token = none ↔ opening.token = set.comment) ∧
    (∀ stretch ∈ ofText set t, stretch.start < stretch.stop ∧ stretch.stop ≤ t.byteLength ∧
      t.Boundary stretch.start ∧ t.Boundary stretch.stop) ∧
    (ofText set t).Pairwise (fun stretch next => stretch.stop < next.start) ∧
    (ofText set t).IsChain (fun stretch next =>
      (∀ opening ∈ set.openers.openings t, stretch.start < opening.offset →
        opening.offset < next.start → opening.token ≠ set.comment) →
      stretch.stop + 1 = next.start) ∧
    ∀ first rest offset, set.openers.openings t = first :: rest → first.offset ≤ offset →
      offset < t.byteLength →
      (∃ stretch ∈ ofText set t, stretch.start ≤ offset ∧ offset < stretch.stop) ∨
      (∃ tile ∈ between t.byteLength (set.openers.openings t), tile.1.token = set.comment ∧
        tile.2.start ≤ offset ∧ offset < tile.2.stop) ∨
      ∃ next ∈ rest, offset + 1 = next.offset := by
  have h := accepted_of_ofStates accepted
  have placed : ∀ opening ∈ set.openers.openings t, opening.Placed t := fun _ hm => h.placed hm
  have tiles := tiles_between placed (h.openings_pairwise t)
  rw [ofText_eq h]
  refine ⟨between_map_fst _ _, tiles, rfl, fun _ hm => h.stateOf_eq_none_iff hm, ?_, ?_, ?_, ?_⟩
  · intro stretch hm
    obtain ⟨tile, htile, hs⟩ := List.mem_filterMap.mp hm
    obtain ⟨hlt, hle, hboundary⟩ := tiles.span_bounds htile
    have hstart := (placed tile.1 (mem_of_mem_between htile)).boundary
    rw [← tiles.start_eq htile] at hstart
    rw [(ofTile_eq_some hs).2] at hlt hle hboundary hstart
    exact ⟨hlt, hle, hstart, hboundary⟩
  · refine tiles.pairwise.filterMap _ ?_
    intro tile later hlt stretch hs next hn
    rwa [(ofTile_eq_some hs).2, (ofTile_eq_some hn).2] at hlt
  · refine (tiles.isChain _).imp fun stretch next hnext hall => hnext ?_
    intro tile hm hlow hhigh hnone
    have hm := mem_of_mem_between hm
    exact hall tile.1 hm hlow hhigh ((h.stateOf_eq_none_iff hm).mp hnone)
  · intro first rest offset hfirst hlow hhigh
    rw [hfirst, between_cons] at tiles ⊢
    rcases tiles.covers hlow hhigh with ⟨tile, hm, hin⟩ | ⟨next, hm, hnext⟩
    · cases hs : set.stateOf tile.1.token with
      | none =>
        have hopening : tile.1 ∈ set.openers.openings t := by
          rw [← between_cons] at hm
          exact hfirst ▸ mem_of_mem_between hm
        exact .inr (.inl ⟨tile, hm, (h.stateOf_eq_none_iff hopening).mp hs, hin⟩)
      | some state =>
        exact .inl ⟨⟨tile.2, state⟩, List.mem_filterMap.mpr ⟨tile, hm, by rw [ofTile, hs]; rfl⟩, hin⟩
    · exact .inr (.inr ⟨next.1, mem_of_mem_between hm, hnext⟩)

/-- A line before the first opening, two stretches that one line feed divides, and a comment. -/
theorem ofText_tiles_standard :
    ofStates .usual defaultStates defaultComment = .ok standard ∧
    ofText standard "x\n- é\n\n + b\n--\n-> d\n".toList = [⟨⟨2, 7⟩, 0⟩, ⟨⟨8, 12⟩, 1⟩, ⟨⟨16, 21⟩, 2⟩] ∧
    Tiles "x\n- é\n\n + b\n--\n-> d\n".toList
      (between 21 (standard.openers.openings "x\n- é\n\n + b\n--\n-> d\n".toList)) := by
  obtain ⟨-, tiles, -⟩ := ofText_tiles ofStates_default "x\n- é\n\n + b\n--\n-> d\n".toList
  exact ⟨ofStates_default, by decide +kernel, tiles⟩

end Stretch

end Checklist
