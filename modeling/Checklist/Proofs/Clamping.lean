import Checklist.Proofs.ConfigReading

namespace Checklist

open Toml

namespace Binary

/-- From zero to one in value: `2 ^ scale` units at most, and none after a minus sign. -/
def UpToOne {f : BinaryFormat} (x : Binary f) : Prop :=
  ∃ negative rank, x = number negative rank ∧ f.units rank ≤ 2 ^ f.scale ∧
    (negative = true → f.units rank = 0)

/-- The rank of one in single precision. -/
def rankOfOne : Nat :=
  BinaryFormat.nearest .binary32 (1 * 2 ^ BinaryFormat.scale .binary32) 1

variable {x : Binary32} {negative : Bool} {rank : Nat}

theorem units_rankOfOne :
    BinaryFormat.units .binary32 rankOfOne = 2 ^ BinaryFormat.scale .binary32 := by
  decide +kernel

theorem upToOne_number_iff : (number negative rank : Binary32).UpToOne ↔
    rank ≤ rankOfOne ∧ (negative = true → rank = 0) := by
  have hmono := BinaryFormat.units_strictMono .binary32
  have hone : BinaryFormat.units .binary32 rank ≤ 2 ^ BinaryFormat.scale .binary32 ↔
      rank ≤ rankOfOne := by
    rw [← units_rankOfOne, hmono.le_iff_le]
  have hzero : BinaryFormat.units .binary32 rank = 0 ↔ rank = 0 := by
    have h := hmono.injective.eq_iff (a := rank) (b := 0)
    rwa [BinaryFormat.units_zero] at h
  rw [← hone, ← hzero]
  constructor
  · rintro ⟨_, _, heq, h⟩
    cases heq
    exact h
  · intro h
    exact ⟨_, _, rfl, h⟩

theorem not_upToOne_nan : ¬ (nan : Binary32).UpToOne := by
  rintro ⟨_, _, h, -⟩
  cases h

theorem Share.upToOne (h : x.Share) : x.UpToOne := by
  obtain ⟨rank, rfl, hle⟩ := h
  exact upToOne_number_iff.mpr ⟨hle, nofun⟩

theorem less_zero_iff :
    (number negative rank : Binary32).less zero = true ↔ negative = true ∧ 0 < rank := by
  cases negative <;> simp [less, place, zero]

theorem one_less_iff :
    one.less (number negative rank : Binary32) = true ↔ negative = false ∧ rankOfOne < rank := by
  have hone : (one : Binary32) = number false rankOfOne := rfl
  cases negative with
  | false => simp [hone, less, place]
  | true => simp [hone, less, place]

/-- What lies below zero becomes zero and what lies above one becomes one, infinities included. NaN
lies on neither side. -/
theorem upToOne_clamp_iff : (x.clamp zero one).UpToOne ↔ x ≠ nan := by
  cases x with
  | nan => exact iff_of_false not_upToOne_nan (fun h => h rfl)
  | number negative rank =>
    refine iff_of_true ?_ (by simp)
    unfold clamp
    split
    · exact upToOne_number_iff.mpr ⟨Nat.zero_le _, nofun⟩
    · rename_i hlow
      rw [less_zero_iff] at hlow
      split
      · exact share_one.upToOne
      · rename_i hhigh
        rw [one_less_iff] at hhigh
        rw [upToOne_number_iff]
        cases negative with
        | false => exact ⟨by simpa using hhigh, nofun⟩
        | true =>
          have hzero : rank = 0 := by simpa using hlow
          exact ⟨hzero ▸ Nat.zero_le _, fun _ => hzero⟩

theorem UpToOne.clamp_eq (h : x.UpToOne) : x.clamp zero one = x := by
  obtain ⟨negative, rank, rfl, -⟩ := id h
  obtain ⟨hle, hzero⟩ := upToOne_number_iff.mp h
  unfold clamp
  rw [if_neg, if_neg]
  · rw [one_less_iff]
    omega
  · rw [less_zero_iff]
    intro ⟨hnegative, hpos⟩
    have := hzero hnegative
    omega

theorem ofRatio_ne_nan (negative : Bool) (n d : Nat) : (ofRatio negative n d : Binary32) ≠ nan := by
  simp [ofRatio]

theorem convert_eq_nan_iff {f g : BinaryFormat} {x : Binary f} :
    (x.convert : Binary g) = nan ↔ x = nan := by
  cases x with
  | nan => exact iff_of_true rfl rfl
  | number negative rank =>
    refine iff_of_false ?_ (by simp)
    simp only [convert]
    split <;> simp [infinity, ofRatio]

end Binary

namespace Toml.Value

/-- Of all that a configuration can give as an opacity only one value is not a number. -/
theorem eq_nan_of_asOpacity {value : Value} {opacity : Binary32}
    (h : value.asOpacity = .ok opacity) : opacity = .nan ↔ value = .float .nan := by
  cases value with
  | float x =>
    cases h
    rw [Binary.convert_eq_nan_iff, float.injEq]
  | integer i =>
    cases h
    exact iff_of_false (Binary.ofRatio_ne_nan _ _ _) (by simp)
  | _ => cases h

end Toml.Value

namespace Style

/-- Every share in a style is from nothing to all. -/
structure Proper (style : Style) : Prop where
  background : style.background.Proper
  ruler : style.ruler.Proper
  opacity : style.opacity.UpToOne

theorem upToOne_withOpacity_iff {style : Style} {opacity : Binary32} :
    (style.withOpacity opacity).opacity.UpToOne ↔ opacity ≠ .nan :=
  Binary.upToOne_clamp_iff

end Style

namespace Config

variable {config : Config} {state : StateConfig}

theorem proper_namedStyle (h : config.Proper) (name : Text) :
    (config.namedStyle name).Proper := by
  have hone : (Binary.one : Binary32).UpToOne := Binary.share_one.upToOne
  unfold namedStyle
  split_ifs
  · exact ⟨h.todoColor, Color.proper_solid _ _ _, hone⟩
  · exact ⟨h.doneColor, Color.proper_solid _ _ _,
      Style.upToOne_withOpacity_iff.mpr (Binary.ofRatio_ne_nan _ _ _)⟩
  · exact ⟨h.outcomeColor, Color.proper_solid _ _ _, hone⟩
  · exact ⟨proper_translucent _ _ _, Color.proper_solid _ _ _, hone⟩

theorem proper_getD {color : Option Color} {named : Color} (hnamed : named.Proper)
    (hcolor : ∀ c ∈ color, c.Proper) : (color.getD named).Proper := by
  cases color with
  | none => exact hnamed
  | some c => exact hcolor c rfl

theorem upToOne_opacity_iff (h : config.Proper) :
    (config.styleOf state).opacity.UpToOne ↔ state.opacity ≠ some .nan := by
  have hnamed : (config.namedStyle state.name).opacity ≠ .nan := by
    intro hnan
    exact Binary.not_upToOne_nan (hnan ▸ (proper_namedStyle h state.name).opacity)
  rw [styleOf, Style.upToOne_withOpacity_iff]
  cases state.opacity with
  | none => exact iff_of_true hnamed nofun
  | some opacity => simp

/-- Whatever text a configuration was read from, there is one style for each state, in order, and
its colors cover from nothing to all. Its opacity is in that range unless it is configured to be
NaN: of all that can stand for an opacity in a text, only NaN is not brought there. What is there
already is left as it is. -/
theorem styles_upToOne {t : Text} (h : ofToml t = .ok config) :
    config.styles.length = config.states.length ∧
    (∀ (i : Nat) (state : StateConfig), config.states[i]? = some state →
      config.styles[i]? = some (config.styleOf state) ∧
      (config.styleOf state).background.alpha.UpToOne ∧
      (config.styleOf state).ruler.alpha.UpToOne ∧
      ((config.styleOf state).opacity.UpToOne ↔ state.opacity ≠ some .nan)) ∧
    ∀ (style : Style) (value : Value) (opacity : Binary32), value.asOpacity = .ok opacity →
      ((style.withOpacity opacity).opacity.UpToOne ↔ value ≠ .float .nan) ∧
      (opacity.UpToOne → (style.withOpacity opacity).opacity = opacity) := by
  have hconfig := proper_of_ofToml h
  refine ⟨List.length_map _, ?_, ?_⟩
  · intro i state hstate
    have hlook := hconfig.states state (List.mem_of_getElem? hstate)
    have hnamed := proper_namedStyle hconfig state.name
    refine ⟨?_, (proper_getD hnamed.background hlook.color).upToOne,
      (proper_getD hnamed.ruler hlook.ruler).upToOne, upToOne_opacity_iff hconfig⟩
    rw [styles, List.getElem?_map, hstate, Option.map_some]
  · intro style value opacity hvalue
    refine ⟨?_, Binary.UpToOne.clamp_eq⟩
    rw [Style.upToOne_withOpacity_iff, Ne, Value.eq_nan_of_asOpacity hvalue]

/-- Opacities far out of range on either side, and one that is on neither. -/
def boundless : Config :=
  { default with
    todoColor := { Color.solid 255 128 0 with alpha := .ofRatio false 204 255 }
    states := [
      { name := "todo".toList, token := "- ".toList, opacity := some (.ofInt 7) },
      { name := "done".toList, token := "+ ".toList, opacity := some (.infinity true) },
      { name := "late".toList, token := "! ".toList, opacity := some .nan }] }

def boundlessText : Text :=
  "todoColor = '#ff8000cc'\n".toList ++
    "[[states]]\nname = 'todo'\ntoken = '- '\nopacity = 7\n".toList ++
    "[[states]]\nname = 'done'\ntoken = '+ '\nopacity = -1e400\n".toList ++
    "[[states]]\nname = 'late'\ntoken = '! '\nopacity = nan\n".toList

theorem styles_upToOne_boundless : ofToml boundlessText = .ok boundless ∧
    boundless.styles.length = 3 ∧
    (∃ style, boundless.styles[1]? = some style ∧ style.background.alpha.UpToOne ∧
      style.ruler.alpha.UpToOne ∧ style.opacity.UpToOne) ∧
    (∃ style, boundless.styles[2]? = some style ∧ ¬ style.opacity.UpToOne) ∧
    Value.asOpacity (.integer (-3)) = .ok (.ofInt (-3)) ∧
    (Style.withOpacity ⟨.solid 0 0 0, .solid 0 0 0, .one⟩ (.ofInt (-3))).opacity.UpToOne := by
  have hread : ofToml boundlessText = .ok boundless := eq_ok_of_toOption (by decide +kernel)
  obtain ⟨hlength, hstyles, hvalues⟩ := styles_upToOne hread
  obtain ⟨hdone, hbackground, hruler, hopacity⟩ := hstyles 1 _ rfl
  obtain ⟨hlate, -, -, hnan⟩ := hstyles 2 _ rfl
  refine ⟨hread, hlength, ⟨_, hdone, hbackground, hruler, hopacity.mpr (by decide)⟩,
    ⟨_, hlate, fun h => hnan.mp h rfl⟩, rfl, ?_⟩
  exact (hvalues _ (.integer (-3)) _ rfl).1.mpr nofun

/-- An opacity of NaN stays out of the range. -/
theorem not_styles_upToOne : ¬ ∀ t config, ofToml t = .ok config →
    ∀ style ∈ config.styles, style.opacity.UpToOne := by
  intro h
  have hread : ofToml "[[states]]\nname = 'todo'\ntoken = '* '\nopacity = nan".toList =
      .ok { default with
        states := [{ name := "todo".toList, token := "* ".toList, opacity := some .nan }] } :=
    eq_ok_of_toOption (by decide +kernel)
  exact Binary.not_upToOne_nan (h _ _ hread _ List.mem_cons_self)

end Config

end Checklist
