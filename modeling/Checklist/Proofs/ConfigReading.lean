import Checklist.Config.Reader
import Checklist.Proofs.ColorText
import Checklist.Proofs.Widening

namespace Checklist

open Toml

section Except

variable {ε α β : Type}

theorem exists_of_bind_eq_ok {read : Except ε α} {next : α → Except ε β} {b : β}
    (h : read >>= next = .ok b) : ∃ a, read = .ok a ∧ next a = .ok b := by
  cases read with
  | error e => cases h
  | ok a => exact ⟨a, rfl, h⟩

/-- The errors of most results cannot be told apart by a decision procedure, but options can. -/
theorem eq_ok_of_toOption {result : Except ε α} {a : α} (h : result.toOption = some a) :
    result = .ok a := by
  cases result with
  | error e => cases h
  | ok b => exact congrArg Except.ok (Option.some.inj h)

/-- What every step keeps holds after all of them. -/
theorem foldlM_keeps {P : β → Prop} {step : β → α → Except ε β}
    (hstep : ∀ b a b', P b → step b a = .ok b' → P b') {l : List α} {b b' : β} (hb : P b)
    (h : l.foldlM step b = .ok b') : P b' := by
  induction l generalizing b with
  | nil =>
    cases h
    exact hb
  | cons a l ih =>
    rw [List.foldlM_cons] at h
    obtain ⟨c, hc, h⟩ := exists_of_bind_eq_ok h
    exact ih (hstep b a c hb hc) h

theorem forall_of_mapM {P : β → Prop} {read : α → Except ε β}
    (hread : ∀ a b, read a = .ok b → P b) {l : List α} {found : List β}
    (h : l.mapM read = .ok found) : ∀ b ∈ found, P b := by
  induction l generalizing found with
  | nil =>
    cases h
    simp
  | cons a l ih =>
    rw [List.mapM_cons] at h
    obtain ⟨b, hb, h⟩ := exists_of_bind_eq_ok h
    obtain ⟨rest, hrest, h⟩ := exists_of_bind_eq_ok h
    cases h
    exact List.forall_mem_cons.mpr ⟨hread a b hb, ih hrest⟩

end Except

/-- What a state may say about its look, as it is read. Its opacity may be any number. -/
structure ProperLook (color ruler : Option Color) (opacity : Option Binary32) : Prop where
  color : ∀ c ∈ color, c.Proper
  ruler : ∀ c ∈ ruler, c.Proper
  opacity : ∀ x ∈ opacity, x ≠ .nan → x.Canonical

namespace Toml.Value

theorem proper_of_asColor {value : Value} {color : Color} (h : value.asColor = .ok color) :
    color.Proper := by
  obtain ⟨text, -, h⟩ := exists_of_bind_eq_ok h
  split at h
  · rename_i found hfound
    cases h
    exact Color.proper_of_ofText? hfound
  · cases h

theorem canonical_of_asOpacity {value : Value} {opacity : Binary32}
    (h : value.asOpacity = .ok opacity) (hnan : opacity ≠ .nan) : opacity.Canonical := by
  cases value with
  | float value =>
    cases h
    apply Binary.canonical_convert
    rintro rfl
    exact hnan rfl
  | integer value =>
    cases h
    exact Binary.canonical_ofRatio _ _ _
  | _ => cases h

end Toml.Value

theorem sameOption_self {α : Type} {same : α → α → Bool} {value : Option α}
    (h : ∀ a ∈ value, same a a) : sameOption same value value := by
  cases value with
  | none => rfl
  | some a => exact h a rfl

namespace StateConfig

/-- A state as it is read. -/
def Proper (state : StateConfig) : Prop :=
  ProperLook state.color state.ruler state.opacity

theorem proper_of_set {draft next : Draft} {key : Text} {value : Value}
    (hdraft : ProperLook draft.color draft.ruler draft.opacity)
    (h : draft.set key value = .ok next) : ProperLook next.color next.ruler next.opacity := by
  simp only [Draft.set] at h
  repeat' split at h
  · obtain ⟨name, -, h⟩ := exists_of_bind_eq_ok h
    cases h
    exact hdraft
  · obtain ⟨token, -, h⟩ := exists_of_bind_eq_ok h
    cases h
    exact hdraft
  · obtain ⟨color, hcolor, h⟩ := exists_of_bind_eq_ok h
    cases h
    exact { hdraft with color := by simpa using Value.proper_of_asColor hcolor }
  · obtain ⟨ruler, hruler, h⟩ := exists_of_bind_eq_ok h
    cases h
    exact { hdraft with ruler := by simpa using Value.proper_of_asColor hruler }
  · obtain ⟨opacity, hopacity, h⟩ := exists_of_bind_eq_ok h
    cases h
    exact { hdraft with opacity := by simpa using Value.canonical_of_asOpacity hopacity }
  · -- a key that is not known is passed over
    cases h
    exact hdraft

theorem proper_of_finish {draft : Draft} {state : StateConfig}
    (hdraft : ProperLook draft.color draft.ruler draft.opacity) (h : draft.finish = .ok state) :
    state.Proper := by
  simp only [Draft.finish] at h
  split at h
  · cases h
  · cases h
  · cases h
    exact hdraft

theorem forall_of_element {α : Type} {P : α → Prop} {read : Value → Except ConfigError α}
    (hread : ∀ value a, read value = .ok a → P a) {value : Option Value} {found : Option α}
    (h : element read value = .ok found) : ∀ a ∈ found, P a := by
  cases value with
  | none =>
    cases h
    simp
  | some value =>
    obtain ⟨a, ha, h⟩ := exists_of_bind_eq_ok h
    cases h
    simpa using hread value a ha

theorem proper_of_ofValue {value : Value} {state : StateConfig} (h : ofValue value = .ok state) :
    state.Proper := by
  have hnone : ProperLook none none none := ⟨by simp, by simp, by simp⟩
  simp only [ofValue] at h
  split at h
  · obtain ⟨draft, hdraft, h⟩ := exists_of_bind_eq_ok h
    refine proper_of_finish ?_ h
    exact foldlM_keeps (P := fun draft : Draft => ProperLook draft.color draft.ruler draft.opacity)
      (fun draft entry next => proper_of_set) hnone hdraft
  · cases h
  · cases h
  · obtain ⟨name, -, h⟩ := exists_of_bind_eq_ok h
    split at h
    · cases h
    · obtain ⟨token, -, h⟩ := exists_of_bind_eq_ok h
      obtain ⟨color, hcolor, h⟩ := exists_of_bind_eq_ok h
      obtain ⟨ruler, hruler, h⟩ := exists_of_bind_eq_ok h
      obtain ⟨opacity, hopacity, h⟩ := exists_of_bind_eq_ok h
      cases h
      exact ⟨forall_of_element (fun _ _ => Value.proper_of_asColor) hcolor,
        forall_of_element (fun _ _ => Value.proper_of_asColor) hruler,
        forall_of_element (fun _ _ => Value.canonical_of_asOpacity) hopacity⟩
  · cases h

theorem Proper.same {state : StateConfig} (h : state.Proper) (hopacity : state.opacity ≠ some .nan) :
    state.same state := by
  have hcolor := sameOption_self fun color hc => (h.color color hc).same
  have hruler := sameOption_self fun ruler hr => (h.ruler ruler hr).same
  have hlast : sameOption Binary.same state.opacity state.opacity :=
    sameOption_self fun opacity ho => Binary.same_self fun hnan => hopacity (hnan ▸ ho)
  simp [StateConfig.same, hcolor, hruler, hlast]

end StateConfig

namespace Config

/-- A configuration as it is read. -/
structure Proper (config : Config) : Prop where
  todoColor : config.todoColor.Proper
  doneColor : config.doneColor.Proper
  outcomeColor : config.outcomeColor.Proper
  states : ∀ state ∈ config.states, state.Proper

theorem proper_translucent (red green blue : UInt8) : (translucent red green blue).Proper := by
  have hshare : Binary.Share (.ofRatio false 3 10 : Binary32) :=
    Binary.share_ofRatio (by decide) (by decide) (by decide)
  rw [Color.Proper, translucent, Color.withAlpha, hshare.clamp_eq]
  exact hshare

theorem proper_default : default.Proper := by
  refine ⟨proper_translucent _ _ _, proper_translucent _ _ _, proper_translucent _ _ _, ?_⟩
  intro state hstate
  obtain ⟨token, -, rfl⟩ := List.mem_map.mp hstate
  exact ⟨by simp, by simp, by simp⟩

theorem proper_of_statesOf {value : Value} {states : List StateConfig}
    (h : statesOf value = .ok states) : ∀ state ∈ states, state.Proper := by
  cases value with
  | array items => exact forall_of_mapM (fun _ _ => StateConfig.proper_of_ofValue) h
  | _ => cases h

theorem proper_of_set {config next : Config} {key : Text} {value : Value} (hconfig : config.Proper)
    (h : config.set key value = .ok next) : next.Proper := by
  simp only [set] at h
  repeat' split at h
  · obtain ⟨extension, -, h⟩ := exists_of_bind_eq_ok h
    cases h
    exact { hconfig with }
  · obtain ⟨comment, -, h⟩ := exists_of_bind_eq_ok h
    cases h
    exact { hconfig with }
  · obtain ⟨todoColor, hcolor, h⟩ := exists_of_bind_eq_ok h
    cases h
    exact { hconfig with todoColor := Value.proper_of_asColor hcolor }
  · obtain ⟨doneColor, hcolor, h⟩ := exists_of_bind_eq_ok h
    cases h
    exact { hconfig with doneColor := Value.proper_of_asColor hcolor }
  · obtain ⟨outcomeColor, hcolor, h⟩ := exists_of_bind_eq_ok h
    cases h
    exact { hconfig with outcomeColor := Value.proper_of_asColor hcolor }
  · obtain ⟨states, hstates, h⟩ := exists_of_bind_eq_ok h
    cases h
    exact { hconfig with states := proper_of_statesOf hstates }
  · cases h
    exact hconfig

theorem proper_of_ofToml {t : Text} {config : Config} (h : ofToml t = .ok config) :
    config.Proper := by
  simp only [ofToml] at h
  split at h
  · cases h
  · exact foldlM_keeps (fun config entry next => proper_of_set) proper_default h

/-- What was read equals itself, where no opacity is NaN. -/
theorem Proper.same {config : Config} (h : config.Proper)
    (hopacity : ∀ state ∈ config.states, state.opacity ≠ some .nan) : config.same config := by
  have hstates : (config.states.zip config.states).all fun pair => pair.1.same pair.2 := by
    rw [List.all_eq_true]
    rintro ⟨a, b⟩ hmem
    obtain ⟨i, hi, heq⟩ := List.mem_iff_getElem.mp hmem
    rw [List.getElem_zip, Prod.mk.injEq] at heq
    have hin := (List.of_mem_zip hmem).1
    rw [← heq.1.symm.trans heq.2]
    exact (h.states a hin).same (hopacity a hin)
  simp [Config.same, h.todoColor.same, h.doneColor.same, h.outcomeColor.same, hstates]

end Config

end Checklist
