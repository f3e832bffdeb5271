import Checklist.Proofs.Effects
import Checklist.Proofs.Period

namespace Checklist
open Machine Text

namespace TokenSet

variable {set : TokenSet}

section Rows

/-- Repeated advances of a row are those of its content, and its carriage return stays. -/
theorem Accepted.advanceRow_iterate_spec (h : set.Accepted) (k : Nat) (row : Text) :
    content (set.advanceRow^[k] row) = set.advance^[k] (content row) ∧
      carriage (set.advanceRow^[k] row) = carriage row := by
  induction k with
  | zero => exact ⟨rfl, rfl⟩
  | succ k ih =>
    obtain ⟨hcontent, hcarriage⟩ := h.advanceRow_spec (set.advanceRow^[k] row)
    rw [Function.iterate_succ_apply', Function.iterate_succ_apply', hcontent, hcarriage, ih.1]
    exact ⟨rfl, ih.2⟩

theorem Accepted.advanceRow_iterate_eq_iff (h : set.Accepted) (k : Nat) (row : Text) :
    set.advanceRow^[k] row = row ↔ set.advance^[k] (content row) = content row := by
  obtain ⟨hcontent, hcarriage⟩ := h.advanceRow_iterate_spec k row
  constructor
  · intro he
    rw [← hcontent, he]
  · intro he
    rw [← content_append_carriage (set.advanceRow^[k] row), hcontent, hcarriage, he,
      content_append_carriage]

theorem Accepted.no_feed_advanceRow_iterate (h : set.Accepted) {row : Text} (hrow : '\n' ∉ row)
    (k : Nat) : '\n' ∉ set.advanceRow^[k] row := by
  induction k with
  | zero => exact hrow
  | succ k ih =>
    rw [Function.iterate_succ_apply', advanceRow, List.mem_append, not_or]
    exact ⟨h.no_feed_advance (no_feed_content ih), no_feed_carriage _⟩

end Rows

/-- A text with each line advanced as many times as `times` says. -/
def turn (set : TokenSet) (times : Nat → Nat) (t : Text) : Text :=
  join ['\n'] (t.rows.mapIdx fun i row => set.advanceRow^[times i] row)

section Turn

theorem Accepted.rows_turn (h : set.Accepted) (times : Nat → Nat) (t : Text) :
    (set.turn times t).rows = t.rows.mapIdx fun i row => set.advanceRow^[times i] row := by
  apply rows_join
  · rw [Ne, List.mapIdx_eq_nil_iff]
    exact rows_ne_nil t
  · intro row hrow
    obtain ⟨i, hi, rfl⟩ := List.mem_mapIdx.mp hrow
    exact h.no_feed_advanceRow_iterate (no_feed_of_mem_rows (List.getElem_mem hi)) _

theorem Accepted.rowwise_turn (h : set.Accepted) (times : Nat → Nat) (t : Text) :
    Document.Rowwise (fun i => set.advanceRow^[times i]) (.ofText t)
      (.ofText (set.turn times t)) :=
  ⟨Document.ofText_consistent t, Document.ofText_consistent _, h.rows_turn times t⟩

theorem turn_zero (set : TokenSet) (t : Text) : set.turn (fun _ => 0) t = t := by
  have hrows : (t.rows.mapIdx fun _ row => row) = t.rows := by
    rw [List.mapIdx_eq_iff]
    simp
  exact (congrArg (join ['\n']) hrows).trans (join_rows t)

/-- Turns of different lines and turns of one line add up, in whatever order they come. -/
theorem Accepted.turn_turn (h : set.Accepted) (later earlier : Nat → Nat) (t : Text) :
    set.turn later (set.turn earlier t) = set.turn (fun i => later i + earlier i) t := by
  rw [turn, h.rows_turn, List.mapIdx_mapIdx, turn]
  simp only [Function.comp_def, Function.iterate_add_apply]

theorem Accepted.line?_turn (h : set.Accepted) (times : Nat → Nat) (t : Text) (i : Nat) :
    (Document.ofText (set.turn times t)).line? i =
      ((Document.ofText t).line? i).map set.advance^[times i] :=
  (h.rowwise_turn times t).line?_eq (fun i => set.advance^[times i])
    (fun i row => (h.advanceRow_iterate_spec (times i) row).1) i

theorem Accepted.ending?_turn (h : set.Accepted) (times : Nat → Nat) (t : Text) (i : Nat) :
    (Document.ofText (set.turn times t)).ending? i = (Document.ofText t).ending? i :=
  (h.rowwise_turn times t).ending?_eq (fun i row => (h.advanceRow_iterate_spec (times i) row).2) i

/-- A text is itself again when every line of it is. -/
theorem Accepted.turn_eq_iff (h : set.Accepted) (times : Nat → Nat) (t : Text) :
    set.turn times t = t ↔
      ∀ i line, (Document.ofText t).line? i = some line → set.advance^[times i] line = line := by
  constructor
  · intro he i line hline
    have hturn := h.line?_turn times t i
    rw [he, hline, Option.map_some, Option.some.injEq] at hturn
    exact hturn.symm
  · intro hlines
    have hrows : (t.rows.mapIdx fun i row => set.advanceRow^[times i] row) = t.rows := by
      rw [List.mapIdx_eq_iff]
      intro i
      cases hrow : t.rows[i]? with
      | none => rfl
      | some row =>
        have hline := Document.line?_ofText t i
        rw [hrow] at hline
        rw [Option.map_some, (h.advanceRow_iterate_eq_iff _ row).mpr (hlines i _ hline)]
    exact (congrArg (join ['\n']) hrows).trans (join_rows t)

/-- What an edit of some lines leaves is the text with those lines turned once. -/
theorem turn_of_advanced {lines : List Nat} {doc doc' : Document}
    (h : Document.Advanced set lines doc doc') :
    doc'.text = set.turn (fun i => if i ∈ lines then 1 else 0) doc.text := by
  rw [← join_rows doc'.text, h.rows, turn]
  congr 2
  funext i row
  split
  · rfl
  · rfl

end Turn

end TokenSet

namespace LineRange

/-- Some of the ranges has a line, counted from zero. -/
def cover (ranges : List LineRange) (i : Nat) : Bool :=
  ranges.any fun range => range.first ≤ i + 1 && i + 1 ≤ range.last

theorem cover_iff {ranges : List LineRange} (valid : ∀ range ∈ ranges, range.Valid) (i : Nat) :
    cover ranges i = true ↔ i ∈ ranges.flatMap indices := by
  simp only [cover, List.any_eq_true, Bool.and_eq_true, decide_eq_true_eq,
    mem_flatMap_indices valid]

end LineRange

namespace Session

/-- How many of several toggles are for a line, however often each of them names it. -/
def turns (runs : List (List LineRange)) (i : Nat) : Nat :=
  runs.countP fun ranges => LineRange.cover ranges i

section Repeats

variable {engine : Engine} {machine after : Machine} {config : Config} {file : Path}
  {location : List Text}  {set : TokenSet} {t : Text} {runs : List (List LineRange)}

theorem Clear.turn {ranges : List LineRange} (h : Clear engine config file ranges set t)
    (times : Nat → Nat) : Clear engine config file ranges set (set.turn times t) where
  covered := h.covered
  tokens := h.tokens
  inRange range hrange := by
    have hset := TokenSet.accepted_of_ofStates h.tokens
    exact (h.inRange range hrange).trans (hset.rowwise_turn times t).lineCount_eq.ge

theorem turns_cons (ranges : List LineRange) (runs : List (List LineRange)) (i : Nat) :
    turns (ranges :: runs) i = turns runs i + if LineRange.cover ranges i then 1 else 0 :=
  List.countP_cons

/-- A toggle turns the lines of its ranges once. -/
theorem perform_toggle_rewritten {ranges : List LineRange}
    (h : Clear engine config file ranges set t)
    (holds : machine.files.Holds machine.directory file location t)
    (valid : ∀ range ∈ ranges, range.Valid) :
    ∃ after, machine.perform (toggle engine config file ranges) = (.ok (), after) ∧
      after.directory = machine.directory ∧
      machine.files.Rewritten after.files machine.directory file location
        (set.turn (fun i => if LineRange.cover ranges i then 1 else 0) t) := by
  obtain ⟨count, doc', -, hadvanced, hperform⟩ := perform_toggle h holds valid
  have htext : doc'.text = set.turn (fun i => if LineRange.cover ranges i then 1 else 0) t := by
    simp only [LineRange.cover_iff valid]
    exact TokenSet.turn_of_advanced hadvanced
  rw [← htext]
  exact ⟨_, hperform, rfl, holds.rewritten doc'.text⟩

/-- A toggle of a file that the configuration covers succeeds only if nothing stands in its way. -/
theorem clear_of_toggle {ranges : List LineRange} (covered : config.covers file = true)
    (tokens : config.tokenSet engine = .ok set)
    (holds : machine.files.Holds machine.directory file location t)
    (success : machine.perform (toggle engine config file ranges) = (.ok (), after)) :
    Clear engine config file ranges set t := by
  rcases toggle_cases engine machine config file ranges with
    ⟨failure, h⟩ | ⟨huncovered, -⟩ | ⟨set', t', hclear, hread⟩
  · rw [h] at success
    cases success
  · rw [covered] at huncovered
    cases huncovered
  · cases tokens.symm.trans hclear.tokens
    cases hread.symm.trans (FileTree.read_eq_ok_iff.mpr ⟨location, holds⟩)
    exact hclear

/-- Toggles one after another add up to one turn of the lines, each of them for as many toggles as
are for it. -/
theorem perform_toggles (clear : ∀ ranges ∈ runs, Clear engine config file ranges set t)
    (holds : machine.files.Holds machine.directory file location t)
    (valid : ∀ ranges ∈ runs, ∀ range ∈ ranges, range.Valid) :
    ∃ after, machine.perform (runs.forM (toggle engine config file)) = (.ok (), after) ∧
      after.directory = machine.directory ∧
      machine.files.Rewritten after.files machine.directory file location
        (set.turn (turns runs) t) := by
  induction runs generalizing machine t with
  | nil =>
    have hturn : set.turn (turns []) t = t := set.turn_zero t
    rw [hturn]
    exact ⟨machine, rfl, rfl, holds, fun _ _ => rfl⟩
  | cons ranges rest ih =>
    -- a turn keeps the number of lines, so that the other toggles stay clear after the first
    have hclear := clear ranges List.mem_cons_self
    have hset := TokenSet.accepted_of_ofStates hclear.tokens
    obtain ⟨next, hperform, hstays, hfirst⟩ :=
      perform_toggle_rewritten hclear holds (valid ranges List.mem_cons_self)
    rw [← hstays] at hfirst
    obtain ⟨after, hrest, hstays', hlater⟩ := ih
      (fun ranges hr => (clear ranges (List.mem_cons_of_mem _ hr)).turn _) hfirst.holds
      (fun ranges hr => valid ranges (List.mem_cons_of_mem _ hr))
    have hturns : turns (ranges :: rest) =
        fun i => turns rest i + if LineRange.cover ranges i then 1 else 0 :=
      funext (turns_cons ranges rest)
    rw [hset.turn_turn, ← hturns] at hlater
    refine ⟨after, ?_, hstays'.trans hstays, hstays ▸ hfirst.trans hlater⟩
    rw [List.forM, perform_bind_of_ok hperform]
    exact hrest

/-- Nothing stood in the way of toggles that have succeeded one after another, from the start. -/
theorem clear_of_toggles (covered : config.covers file = true)
    (tokens : config.tokenSet engine = .ok set)
    (holds : machine.files.Holds machine.directory file location t)
    (valid : ∀ ranges ∈ runs, ∀ range ∈ ranges, range.Valid)
    (success : machine.perform (runs.forM (toggle engine config file)) = (.ok (), after)) :
    ∀ ranges ∈ runs, Clear engine config file ranges set t := by
  induction runs generalizing machine t with
  | nil => simp
  | cons ranges rest ih =>
    have hset := TokenSet.accepted_of_ofStates tokens
    rw [List.forM, perform_bind] at success
    cases hfirst : machine.perform (toggle engine config file ranges) with
    | mk result next =>
      rw [hfirst] at success
      cases result with
      | error failure => cases success
      | ok =>
        have hclear := clear_of_toggle covered tokens holds hfirst
        obtain ⟨_, hperform, hstays, hrewritten⟩ :=
          perform_toggle_rewritten hclear holds (valid ranges List.mem_cons_self)
        cases hfirst.symm.trans hperform
        rw [← hstays] at hrewritten
        have hrest := ih hrewritten.holds
          (fun ranges hr => valid ranges (List.mem_cons_of_mem _ hr)) success
        intro other ho
        rcases List.mem_cons.mp ho with rfl | ho
        · exact hclear
        · refine ⟨covered, tokens, fun range hrange => ?_⟩
          exact ((hrest other ho).inRange range hrange).trans
            (hset.rowwise_turn _ t).lineCount_eq.le

end Repeats

/-- What toggles of one file have come to is told line by line: each line is advanced once for each
of them that is for it, and all endings stay. So their order makes no difference, and one toggle
made as often as the rotation has entries brings the file back if and only if an entry opened each
of its lines. -/
theorem toggles_linewise {engine : Engine} {machine after : Machine} {config : Config}
    {file : Path} {set : TokenSet} {t : Text} {runs : List (List LineRange)}
    (covered : config.covers file = true) (tokens : config.tokenSet engine = .ok set)
    (readable : machine.files.read machine.directory file = .ok t)
    (valid : ∀ ranges ∈ runs, ∀ range ∈ ranges, range.Valid)
    (success : machine.perform (runs.forM (toggle engine config file)) = (.ok (), after)) :
    ∃ location t', machine.files.Holds machine.directory file location t ∧
      after.files.Holds machine.directory file location t' ∧ after.directory = machine.directory ∧
      (∀ other, other ≠ location → after.files.entry? other = machine.files.entry? other) ∧
      (Document.ofText t').lineCount = (Document.ofText t).lineCount ∧
      (∀ i < (Document.ofText t).lineCount, ∃ line ending,
        (Document.ofText t).line? i = some line ∧ (Document.ofText t).ending? i = some ending ∧
        (Document.ofText t').line? i = some (set.advance^[turns runs i] line) ∧
        (Document.ofText t').ending? i = some ending) ∧
      (∀ runs', runs.Perm runs' → ∃ after',
        machine.perform (runs'.forM (toggle engine config file)) = (.ok (), after') ∧
        ∀ other, after'.files.entry? other = after.files.entry? other) ∧
      ∀ ranges, runs = List.replicate (set.states.length + 1) ranges →
        (t'.bytes = t.bytes ↔
          ∀ i line, LineRange.cover ranges i = true → (Document.ofText t).line? i = some line →
            ∃ entry ∈ set.rotation, entry <+: body line) := by
  have hset := TokenSet.accepted_of_ofStates tokens
  obtain ⟨location, holds⟩ := FileTree.read_eq_ok_iff.mp readable
  have hclear := clear_of_toggles covered tokens holds valid success
  obtain ⟨_, hperform, hstays, hrewritten⟩ := perform_toggles hclear holds valid
  cases success.symm.trans hperform
  refine ⟨location, set.turn (turns runs) t, holds, hrewritten.holds, hstays,
    hrewritten.others, (hset.rowwise_turn _ t).lineCount_eq, ?_, ?_, ?_⟩
  · intro i hi
    have hconsistent := Document.ofText_consistent t
    obtain ⟨row, hrow⟩ := hconsistent.exists_row hi
    have hline := hconsistent.line?_eq i
    have hending := hconsistent.ending?_eq i
    rw [hrow, Option.map_some] at hline hending
    refine ⟨_, _, hline, hending, ?_, ?_⟩
    · rw [hset.line?_turn, hline, Option.map_some]
    · rw [hset.ending?_turn, hending]
  · intro runs' hperm
    obtain ⟨after', hperform', -, hrewritten'⟩ := perform_toggles
      (fun ranges hr => hclear ranges (hperm.mem_iff.mpr hr)) holds
      (fun ranges hr => valid ranges (hperm.mem_iff.mpr hr))
    have hturns : turns runs' = turns runs := funext fun i => hperm.symm.countP_eq _
    rw [hturns] at hrewritten'
    exact ⟨after', hperform', hrewritten'.entry?_eq hrewritten⟩
  · rintro ranges rfl
    rw [Text.bytes_inj, hset.turn_eq_iff]
    refine forall_congr' fun i => forall_congr' fun line => ?_
    rw [turns, List.countP_replicate]
    cases LineRange.cover ranges i with
    | false => simp
    | true =>
      simp only [forall_const, ↓reduceIte]
      rw [hset.advance_iterate_rotation_eq_iff]

/-- Four toggles of a state and a comment, with all endings, beside a line that stays plain. -/
theorem toggles_linewise_standard :
    ∃ after, (Machine.start (.ofTexts [(["a.todo".toList], "+ a\r\n\t-- b\nc".toList)]) []).perform
        ((List.replicate 4 [⟨1, 2⟩, ⟨2, 2⟩]).forM (toggle .usual .default "a.todo".toList)) =
          (.ok (), after) ∧
      after.files.read [] "a.todo".toList = .ok "+ a\r\n\t-- b\nc".toList := by
  have holds : (Machine.start
      (.ofTexts [(["a.todo".toList], "+ a\r\n\t-- b\nc".toList)]) []).files.Holds [] "a.todo".toList
      ["a.todo".toList] "+ a\r\n\t-- b\nc".toList := ⟨rfl, rfl, rfl⟩
  have clear : ∀ ranges ∈ List.replicate 4 [⟨1, 2⟩, ⟨2, 2⟩], Clear .usual .default
      "a.todo".toList ranges .standard "+ a\r\n\t-- b\nc".toList := by
    intro ranges hranges
    rw [List.eq_of_mem_replicate hranges]
    exact ⟨by decide, by rfl, by decide⟩
  have valid : ∀ ranges ∈ List.replicate 4 [(⟨1, 2⟩ : LineRange), ⟨2, 2⟩],
      ∀ range ∈ ranges, range.Valid := by
    intro ranges hranges
    rw [List.eq_of_mem_replicate hranges, List.forall_mem_cons, List.forall_mem_singleton]
    exact ⟨⟨by decide, by decide⟩, ⟨by decide, by decide⟩⟩
  obtain ⟨after, success, -⟩ := perform_toggles clear holds valid
  obtain ⟨location, t', -, hafter, -, -, -, -, -, hback⟩ := toggles_linewise (by decide) (by rfl)
    (FileTree.read_eq_ok_iff.mpr ⟨_, holds⟩) valid success
  have hopens : ∀ i line, LineRange.cover [⟨1, 2⟩, ⟨2, 2⟩] i = true →
      (Document.ofText "+ a\r\n\t-- b\nc".toList).line? i = some line →
      ∃ entry ∈ TokenSet.standard.rotation, entry <+: body line := by
    intro i line hcover hline
    have hi : i = 0 ∨ i = 1 := by
      simp only [LineRange.cover, List.any_cons, List.any_nil, Bool.or_false, Bool.or_eq_true,
        Bool.and_eq_true, decide_eq_true_eq] at hcover
      omega
    rcases hi with rfl | rfl
    · cases Option.some.inj (hline.symm.trans (by decide : _ = some "+ a".toList))
      exact ⟨"+ ".toList, by decide, by decide⟩
    · cases Option.some.inj (hline.symm.trans (by decide : _ = some "\t-- b".toList))
      exact ⟨"-- ".toList, by decide, by decide⟩
  have ht := Text.bytes_inj.mp ((hback [⟨1, 2⟩, ⟨2, 2⟩] rfl).mpr hopens)
  exact ⟨after, success, FileTree.read_eq_ok_iff.mpr ⟨location, ht ▸ hafter⟩⟩

end Session

end Checklist
