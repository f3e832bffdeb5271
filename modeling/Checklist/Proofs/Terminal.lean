import Checklist.Screen
import Checklist.Proofs.Digits
import Checklist.Proofs.Rows

namespace Checklist.Screen
open Text

/-- How a terminal draws a character. Without a color it is the terminal's own one. -/
structure Pen where
  foreground : Option Paint := none
  background : Option Paint := none
  dim : Bool := false
  deriving DecidableEq, Repr

namespace Pen

/-- Nothing is set. -/
def own : Pen := {}

/-- The pen that the parameters of one sequence select, where they have a meaning. -/
def select? (pen : Pen) : List Nat → Option Pen
  | [0] => some own
  | [2] => some { pen with dim := true }
  | [22] => some { pen with dim := false }
  | [38, 2, red, green, blue] =>
    some { pen with foreground := some ⟨.ofNat red, .ofNat green, .ofNat blue⟩ }
  | [48, 2, red, green, blue] =>
    some { pen with background := some ⟨.ofNat red, .ofNat green, .ofNat blue⟩ }
  | _ => none

end Pen

/-- A character on the screen. -/
structure Cell where
  char : Char
  pen : Pen
  deriving DecidableEq, Repr

/-- A sequence begins with an escape and a bracket, and its parameters follow. -/
inductive Mode where
  | text
  | escape
  | parameters (read : Text)
  deriving DecidableEq, Repr

structure Terminal where
  pen : Pen
  mode : Mode
  shown : List Cell
  deriving DecidableEq, Repr

/-- The terminal after one more character. It knows no sequences but those that select a pen. -/
def Terminal.feed? (terminal : Terminal) (c : Char) : Option Terminal :=
  match terminal.mode with
  | .text =>
    if c = '\x1b' then some { terminal with mode := .escape }
    else some { terminal with shown := terminal.shown ++ [⟨c, terminal.pen⟩] }
  | .escape => if c = '[' then some { terminal with mode := .parameters [] } else none
  | .parameters read =>
    if c.isDigit ∨ c = ';' then some { terminal with mode := .parameters (read ++ [c]) }
    else if c = 'm' then
      (terminal.pen.select? ((splitAll ';' read).map decimalValue)).map fun pen =>
        { terminal with pen, mode := .text }
    else none

/-- A text that takes a terminal from one pen to another, and what is shown for it meanwhile. -/
def Draws (before : Pen) (t : Text) (cells : List Cell) (after : Pen) : Prop :=
  ∀ shown, t.foldlM Terminal.feed? ⟨before, .text, shown⟩ = some ⟨after, .text, shown ++ cells⟩

section Draws

variable {before between after pen : Pen} {t u : Text} {cells more : List Cell}

theorem draws_nil (pen : Pen) : Draws pen [] [] pen := by
  intro shown
  rw [List.append_nil]
  rfl

theorem Draws.append (ht : Draws before t cells between) (hu : Draws between u more after) :
    Draws before (t ++ u) (cells ++ more) after := by
  intro shown
  rw [List.foldlM_append, ht shown, Option.bind_eq_bind, Option.bind_some, hu, List.append_assoc]

/-- A text without sequences shows as it is and leaves the pen. -/
theorem draws_plain (pen : Pen) (h : '\x1b' ∉ t) : Draws pen t (t.map (⟨·, pen⟩)) pen := by
  induction t with
  | nil => exact draws_nil pen
  | cons c t ih =>
    rw [List.mem_cons, not_or] at h
    have hc : Draws pen [c] [⟨c, pen⟩] pen := by
      intro shown
      simp [Terminal.feed?, Ne.symm h.1]
    exact hc.append (ih h.2)

theorem foldlM_parameters (h : ∀ c ∈ t, c.isDigit = true ∨ c = ';') (read : Text)
    (shown : List Cell) :
    t.foldlM Terminal.feed? ⟨pen, .parameters read, shown⟩ =
      some ⟨pen, .parameters (read ++ t), shown⟩ := by
  induction t generalizing read with
  | nil =>
    rw [List.append_nil]
    rfl
  | cons c t ih =>
    have hc := h c List.mem_cons_self
    have hstep : Terminal.feed? ⟨pen, .parameters read, shown⟩ c =
        some ⟨pen, .parameters (read ++ [c]), shown⟩ := by
      simp only [Terminal.feed?, if_pos hc]
    rw [List.foldlM_cons, hstep, Option.bind_eq_bind, Option.bind_some,
      ih (fun d hd => h d (List.mem_cons_of_mem _ hd)), List.append_assoc, List.singleton_append]

/-- Parameters are read as they were written. -/
theorem splitAll_parameters {parameters : List Nat} (hne : parameters ≠ []) :
    (splitAll ';' (join [';'] (parameters.map decimal))).map decimalValue = parameters := by
  have hpiece : ∀ piece ∈ parameters.map decimal, ';' ∉ piece := by
    intro piece hpiece hc
    obtain ⟨n, -, rfl⟩ := List.mem_map.mp hpiece
    exact absurd (digits_decimal n _ hc) (by decide)
  have hmap : decimalValue ∘ decimal = id := funext decimalValue_decimal
  rw [splitAll_join (by simpa using hne) hpiece, List.map_map, hmap, List.map_id]

theorem mem_parameters {parameters : List Nat} {c : Char}
    (h : c ∈ join [';'] (parameters.map decimal)) : c.isDigit = true ∨ c = ';' := by
  rcases mem_join h with hc | ⟨piece, hpiece, hc⟩
  · exact .inr (List.mem_singleton.mp hc)
  · obtain ⟨n, -, rfl⟩ := List.mem_map.mp hpiece
    exact .inl (digits_decimal n c hc)

theorem no_feed_sequence (parameters : List Nat) : '\n' ∉ sequence parameters 'm' := by
  intro h
  rw [sequence, List.mem_append, List.mem_cons, List.mem_cons, List.mem_singleton] at h
  rcases h with (h | h | h) | h
  · exact absurd h (by decide)
  · exact absurd h (by decide)
  · exact absurd (mem_parameters h) (by decide)
  · exact absurd h (by decide)

/-- A sequence shows nothing, but selects a pen. -/
theorem draws_sequence {parameters : List Nat} (hne : parameters ≠ [])
    (h : pen.select? parameters = some after) : Draws pen (sequence parameters 'm') [] after := by
  intro shown
  have hstart : ['\x1b', '['].foldlM Terminal.feed? ⟨pen, .text, shown⟩ =
      some ⟨pen, .parameters [], shown⟩ := rfl
  have hfinal : ¬ ('m'.isDigit = true ∨ 'm' = ';') := by decide
  have hsplit : sequence parameters 'm' =
      ['\x1b', '['] ++ (join [';'] (parameters.map decimal) ++ ['m']) := rfl
  rw [hsplit, List.foldlM_append, hstart, Option.bind_eq_bind, Option.bind_some,
    List.foldlM_append, foldlM_parameters fun _ => mem_parameters, Option.bind_eq_bind, Option.bind_some,
    List.nil_append, List.foldlM_cons, Terminal.feed?]
  dsimp only
  rw [if_neg hfinal, if_pos rfl, splitAll_parameters hne, h, List.append_nil]
  rfl

theorem draws_foreground (pen : Pen) (paint : Paint) :
    Draws pen (foreground paint) [] { pen with foreground := some paint } := by
  refine draws_sequence (List.cons_ne_nil _ _) ?_
  simp [Pen.select?]

theorem draws_background (pen : Pen) (paint : Paint) :
    Draws pen (background paint) [] { pen with background := some paint } := by
  refine draws_sequence (List.cons_ne_nil _ _) ?_
  simp [Pen.select?]

theorem draws_intensity (pen : Pen) (dim : Bool) :
    Draws pen (intensity dim) [] { pen with dim } := by
  refine draws_sequence (List.cons_ne_nil _ _) ?_
  cases dim <;> rfl

theorem draws_reset (pen : Pen) : Draws pen reset [] Pen.own :=
  (draws_sequence (List.cons_ne_nil _ _) rfl).append (draws_sequence (List.cons_ne_nil _ _) rfl)

/-- Where every row leaves the terminal its own pen, so do all rows. -/
theorem draws_ended {rows : List Text}
    (h : ∀ row ∈ rows, ∃ cells, Draws Pen.own row cells Pen.own) :
    ∃ cells, Draws Pen.own (ended rows) cells Pen.own := by
  induction rows with
  | nil => exact ⟨[], draws_nil _⟩
  | cons row rows ih =>
    obtain ⟨cells, hrow⟩ := h row List.mem_cons_self
    obtain ⟨more, hrows⟩ := ih fun other hother => h other (List.mem_cons_of_mem _ hother)
    have hfeed : Draws Pen.own ['\n'] [⟨'\n', .own⟩] Pen.own := draws_plain _ (by decide)
    rw [ended_cons]
    exact ⟨_, hrow.append (hfeed.append hrows)⟩

/-- A character takes nothing from the screen. -/
theorem Terminal.prefix_of_feed? {c : Char} {terminal next : Terminal}
    (h : terminal.feed? c = some next) :
    terminal.shown <+: next.shown := by
  unfold Terminal.feed? at h
  split at h
  · split at h
    · cases h
      exact List.prefix_rfl
    · cases h
      exact List.prefix_append _ _
  · split at h
    · cases h
      exact List.prefix_rfl
    · cases h
  · split at h
    · cases h
      exact List.prefix_rfl
    · split at h
      · obtain ⟨pen, -, rfl⟩ := Option.map_eq_some_iff.mp h
        exact List.prefix_rfl
      · cases h

/-- What has been shown stays at the front of what is shown. -/
theorem Terminal.prefix_of_foldlM {terminal last : Terminal}
    (h : t.foldlM Terminal.feed? terminal = some last) : terminal.shown <+: last.shown := by
  induction t generalizing terminal with
  | nil =>
    cases h
    exact List.prefix_rfl
  | cons c t ih =>
    rw [List.foldlM_cons, Option.bind_eq_bind, Option.bind_eq_some_iff] at h
    obtain ⟨next, hnext, h⟩ := h
    exact (Terminal.prefix_of_feed? hnext).trans (ih h)

/-- A character that starts no sequence is the first one that is shown. -/
theorem Draws.prefix_of_cons {c : Char} (hc : c ≠ '\x1b') (h : Draws before (c :: t) cells after) :
    [⟨c, before⟩] <+: cells := by
  have hrun := h []
  have hstep : Terminal.feed? ⟨before, .text, []⟩ c = some ⟨before, .text, [⟨c, before⟩]⟩ := by
    simp [Terminal.feed?, hc]
  rw [List.foldlM_cons, hstep, Option.bind_eq_bind, Option.bind_some, List.nil_append] at hrun
  exact Terminal.prefix_of_foldlM hrun

theorem Draws.eq_nil_of_nil (h : Draws before [] cells after) : cells = [] := by
  have hrun := h []
  cases hrun
  rfl

end Draws

end Checklist.Screen
