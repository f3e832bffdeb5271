import Checklist.Config.Printer
import Checklist.Proofs.Assembling
import Checklist.Proofs.ConfigReading
import Checklist.Proofs.DocumentText

namespace Checklist

open Toml

section Except

variable {ε α β : Type}

theorem mapM_map_eq {write : β → α} {read : α → Except ε β} {l : List β}
    (h : ∀ b ∈ l, read (write b) = .ok b) : (l.map write).mapM read = .ok l := by
  induction l with
  | nil => rfl
  | cons b l ih =>
    obtain ⟨hb, hl⟩ := List.forall_mem_cons.mp h
    rw [List.map_cons, List.mapM_cons, hb, ih hl]
    rfl

/-- An entry that is written only where there is something to write. -/
theorem foldlM_elim {γ : Type} {step : β → γ → Except ε β} {write : α → γ} {value : Option α}
    (put : Option α → β) (h : ∀ a ∈ value, step (put none) (write a) = .ok (put (some a))) :
    (value.elim [] fun a => [write a]).foldlM step (put none) = .ok (put value) := by
  cases value with
  | none => rfl
  | some a =>
    change step (put none) (write a) >>= pure = _
    rw [h a rfl]
    rfl

end Except

/-- The line of an entry that is written only where there is something to write. -/
theorem reads_elim {α : Type} {key : String} {written : α → Text} {value : α → Value}
    {part : Option α} (hkey : Bare key.toList) (hvalue : ∀ a ∈ part, Writes (written a) (value a))
    {t : Text} {found : List Statement} (h : Reads t found) :
    Reads ((part.elim [] fun a => line key (written a)) ++ t)
      (pairs (part.elim [] fun a => [(key.toList, value a)]) ++ found) := by
  cases part with
  | none => exact h
  | some a => exact h.line hkey (hvalue a rfl)

namespace Toml.Value

theorem asColor_text {color : Color} (h : color.Proper) :
    (Value.string color.text).asColor = .ok color := by
  simp only [asColor, asText, bind, Except.bind, Color.ofText?_text h]

theorem asOpacity_convert {opacity : Binary32} (h : opacity.Canonical) :
    (Value.float opacity.convert).asOpacity = .ok opacity := by
  rw [asOpacity, Binary.convert_convert BinaryFormat.embeds_binary32 (by decide) h]

/-- What becomes of a color that was written. -/
theorem asColor_bind {β : Type} {color : Color} (h : color.Proper) (put : Color → β) :
    ((string color.text).asColor >>= fun color => .ok (put color)) = .ok (put color) := by
  rw [asColor_text h]
  rfl

end Toml.Value

namespace StateConfig

/-- The entries that a state is written as. -/
def entries (state : StateConfig) : List (Text × Value) :=
  [("name".toList, .string state.name), ("token".toList, .string state.token)] ++
    (state.color.elim [] fun color => [("color".toList, .string color.text)]) ++
    (state.ruler.elim [] fun ruler => [("ruler".toList, .string ruler.text)]) ++
    (state.opacity.elim [] fun opacity => [("opacity".toList, .float opacity.convert)])

theorem nodup_entries (state : StateConfig) : (state.entries.map Prod.fst).Nodup := by
  have hkeys : ["name".toList, "token".toList, "color".toList, "ruler".toList,
      "opacity".toList].Nodup := by decide
  rcases state with ⟨name, token, _ | color, _ | ruler, _ | opacity⟩ <;>
    exact hkeys.sublist (by simp [entries])

section Draft

variable (draft : Draft)

theorem set_color {color : Color} (h : color.Proper) :
    draft.set "color".toList (.string color.text) = .ok { draft with color := some color } :=
  Value.asColor_bind h fun color => ({ draft with color := some color } : Draft)

theorem set_ruler {ruler : Color} (h : ruler.Proper) :
    draft.set "ruler".toList (.string ruler.text) = .ok { draft with ruler := some ruler } :=
  Value.asColor_bind h fun ruler => ({ draft with ruler := some ruler } : Draft)

theorem set_opacity {opacity : Binary32} (h : opacity.Canonical) :
    draft.set "opacity".toList (.float opacity.convert) =
      .ok { draft with opacity := some opacity } := by
  change (Value.float opacity.convert).asOpacity >>=
    (fun opacity => pure { draft with opacity := some opacity }) = _
  rw [Value.asOpacity_convert h]
  rfl

end Draft

/-- The draft with the texts of a state and what is known of its look. -/
def drafted (state : StateConfig) (color ruler : Option Color) (opacity : Option Binary32) :
    Draft :=
  ⟨some state.name, some state.token, color, ruler, opacity⟩

theorem foldlM_entries {state : StateConfig} (h : state.Proper)
    (hopacity : state.opacity ≠ some .nan) :
    state.entries.foldlM (fun draft entry => Draft.set draft entry.1 entry.2) {} =
      .ok (state.drafted state.color state.ruler state.opacity) := by
  have hcanonical : ∀ opacity ∈ state.opacity, opacity.Canonical :=
    fun opacity ho => h.opacity opacity ho fun hnan => hopacity (hnan ▸ ho)
  have hcolor : (state.color.elim [] fun color => [("color".toList, Value.string color.text)]).foldlM
      (fun draft entry => Draft.set draft entry.1 entry.2) (state.drafted none none none) = _ :=
    foldlM_elim (fun color => state.drafted color none none)
      fun color hc => set_color _ (h.color color hc)
  have hruler : (state.ruler.elim [] fun ruler => [("ruler".toList, Value.string ruler.text)]).foldlM
      (fun draft entry => Draft.set draft entry.1 entry.2) (state.drafted state.color none none) = _ :=
    foldlM_elim (fun ruler => state.drafted state.color ruler none)
      fun ruler hr => set_ruler _ (h.ruler ruler hr)
  have hlast : (state.opacity.elim [] fun opacity =>
      [("opacity".toList, Value.float opacity.convert)]).foldlM
      (fun draft entry => Draft.set draft entry.1 entry.2)
      (state.drafted state.color state.ruler none) = _ :=
    foldlM_elim (fun opacity => state.drafted state.color state.ruler opacity)
      fun opacity ho => set_opacity _ (hcanonical opacity ho)
  rw [entries, List.foldlM_append, List.foldlM_append, List.foldlM_append]
  change List.foldlM _ (state.drafted none none none) _ >>= _ >>= _ = _
  rw [hcolor]
  change List.foldlM _ (state.drafted state.color none none) _ >>= _ = _
  rw [hruler]
  exact hlast

/-- The lines of a state, and those after it. -/
theorem reads_toToml {state : StateConfig} (h : state.opacity ≠ some .nan) {t : Text}
    {found : List Statement} (ht : Reads t found) :
    Reads (state.toToml ++ t)
      (.element ⟨[], "states".toList⟩ :: (pairs state.entries ++ found)) := by
  have hwrites : ∀ opacity ∈ state.opacity, Writes (number opacity.convert)
      (.float opacity.convert) := by
    intro opacity ho
    apply writes_number
    apply Binary.canonical_convert
    rintro rfl
    exact h ho
  have hopacity := reads_elim (bare_of_all "opacity" (by decide)) hwrites ht
  have hruler := reads_elim (bare_of_all "ruler" (by decide))
    (fun (ruler : Color) (_ : ruler ∈ state.ruler) => writes_quote ruler.text) hopacity
  have hcolor := reads_elim (bare_of_all "color" (by decide))
    (fun (color : Color) (_ : color ∈ state.color) => writes_quote color.text) hruler
  have htoken := hcolor.line (bare_of_all "token" (by decide)) (writes_quote state.token)
  have hname := htoken.line (bare_of_all "name" (by decide)) (writes_quote state.name)
  have hheader := (hname.element (bare_of_all "states" (by decide))).blankLine
  have htext : "\n[[states]]\n".toList =
      '\n' :: '[' :: '[' :: ("states".toList ++ [']', ']', '\n']) := rfl
  unfold toToml
  rw [htext, entries, pairs_append, pairs_append, pairs_append]
  simp only [List.append_assoc]
  exact hheader

theorem ofValue_entries {state : StateConfig} (h : state.Proper)
    (hopacity : state.opacity ≠ some .nan) : ofValue (.table state.entries) = .ok state := by
  change state.entries.foldlM (fun draft entry => Draft.set draft entry.1 entry.2) {} >>=
    Draft.finish = .ok state
  rw [foldlM_entries h hopacity]
  rfl

end StateConfig

namespace Config

/-- The entries that a configuration is written as before its states. -/
def rootEntries (config : Config) : List (Text × Value) :=
  [("extension".toList, .string config.extension), ("comment".toList, .string config.comment),
    ("todoColor".toList, .string config.todoColor.text),
    ("doneColor".toList, .string config.doneColor.text),
    ("outcomeColor".toList, .string config.outcomeColor.text)]

def entries (config : Config) : List (Text × Value) :=
  config.rootEntries ++
    [("states".toList, .array (config.states.map fun state => .table state.entries))]

section Set

variable (config : Config)

theorem set_todoColor {color : Color} (h : color.Proper) :
    config.set "todoColor".toList (.string color.text) = .ok { config with todoColor := color } :=
  Value.asColor_bind h fun color => ({ config with todoColor := color } : Config)

theorem set_doneColor {color : Color} (h : color.Proper) :
    config.set "doneColor".toList (.string color.text) = .ok { config with doneColor := color } :=
  Value.asColor_bind h fun color => ({ config with doneColor := color } : Config)

theorem set_outcomeColor {color : Color} (h : color.Proper) :
    config.set "outcomeColor".toList (.string color.text) =
      .ok { config with outcomeColor := color } :=
  Value.asColor_bind h fun color => ({ config with outcomeColor := color } : Config)

theorem set_states {states : List StateConfig} (h : ∀ state ∈ states, state.Proper)
    (hopacity : ∀ state ∈ states, state.opacity ≠ some .nan) :
    config.set "states".toList (.array (states.map fun state => .table state.entries)) =
      .ok { config with states } := by
  change (states.map fun state => .table state.entries).mapM StateConfig.ofValue >>=
    (fun states => pure { config with states }) = _
  rw [mapM_map_eq fun state hs => StateConfig.ofValue_entries (h state hs) (hopacity state hs)]
  rfl

end Set

/-- Whatever there was before, all of it is overwritten. -/
theorem foldlM_entries {config : Config} (h : config.Proper)
    (hopacity : ∀ state ∈ config.states, state.opacity ≠ some .nan) (start : Config) :
    config.entries.foldlM (fun config entry => Config.set config entry.1 entry.2) start =
      .ok config := by
  have hextension : start.set "extension".toList (.string config.extension) =
      .ok { start with extension := config.extension } := rfl
  have hcomment (c : Config) : c.set "comment".toList (.string config.comment) =
      .ok { c with comment := config.comment } := rfl
  simp only [entries, rootEntries, List.cons_append, List.nil_append, List.foldlM_cons,
    List.foldlM_nil, bind, Except.bind, hextension, hcomment, set_todoColor _ h.todoColor,
    set_doneColor _ h.doneColor, set_outcomeColor _ h.outcomeColor, set_states _ h.states hopacity]
  rfl

theorem reads_states {states : List StateConfig}
    (h : ∀ state ∈ states, state.opacity ≠ some .nan) :
    Reads (states.flatMap StateConfig.toToml)
      (states.flatMap fun state => .element ⟨[], "states".toList⟩ :: pairs state.entries) := by
  induction states with
  | nil => exact reads_nil
  | cons state states ih =>
    obtain ⟨hstate, hstates⟩ := List.forall_mem_cons.mp h
    simpa using StateConfig.reads_toToml hstate (ih hstates)

/-- The lines that a configuration is written as. -/
def statements (config : Config) : List Statement :=
  pairs config.rootEntries ++
    if config.states.isEmpty then pairs [("states".toList, .array [])]
    else config.states.flatMap fun state =>
      .element ⟨[], "states".toList⟩ :: pairs state.entries

theorem reads_toToml {config : Config}
    (h : ∀ state ∈ config.states, state.opacity ≠ some .nan) :
    Reads config.toToml config.statements := by
  have hstates : Reads (if config.states.isEmpty then line "states" "[]".toList
      else config.states.flatMap StateConfig.toToml) (if config.states.isEmpty then
        pairs [("states".toList, .array [])]
      else config.states.flatMap fun state =>
        .element ⟨[], "states".toList⟩ :: pairs state.entries) := by
    split
    · have hline := reads_nil.line (bare_of_all "states" (by decide)) writes_empty
      rwa [List.append_nil] at hline
    · exact reads_states h
  have houtcome := hstates.line (bare_of_all "outcomeColor" (by decide))
    (writes_quote config.outcomeColor.text)
  have hdone := houtcome.line (bare_of_all "doneColor" (by decide))
    (writes_quote config.doneColor.text)
  have htodo := hdone.line (bare_of_all "todoColor" (by decide))
    (writes_quote config.todoColor.text)
  have hcomment := htodo.line (bare_of_all "comment" (by decide)) (writes_quote config.comment)
  have hextension := hcomment.line (bare_of_all "extension" (by decide))
    (writes_quote config.extension)
  unfold toToml
  simp only [List.append_assoc]
  exact hextension

theorem toToml_ne_mark (config : Config) (u : Text) : config.toToml ≠ '\ufeff' :: u := by
  unfold toToml line
  simp only [List.append_assoc]
  exact (bare_of_all "extension" (by decide)).ne_cons (by decide) _ u

theorem nodup_entries (config : Config) : (config.entries.map Prod.fst).Nodup := by
  have hkeys : ["extension".toList, "comment".toList, "todoColor".toList, "doneColor".toList,
      "outcomeColor".toList, "states".toList].Nodup := by decide
  exact hkeys

theorem assemble_statements (config : Config) :
    assemble config.statements = some config.entries := by
  have hkeys := config.nodup_entries
  by_cases hs : config.states = []
  · -- no header is written for no states, and the empty array is a line like the others
    have hassemble := assemble_pairs hkeys
    simp only [entries, pairs_append, hs] at hassemble
    simp only [statements, entries, hs]
    exact hassemble
  · rw [entries, List.map_append, List.nodup_append] at hkeys
    obtain ⟨hroot, -, hapart⟩ := hkeys
    have hkey : ∀ entry ∈ config.rootEntries, entry.1 ≠ "states".toList :=
      fun entry he => hapart _ (List.mem_map_of_mem he) _ (List.mem_singleton.mpr rfl)
    have htables : ∀ table ∈ config.states.map StateConfig.entries,
        (table.map Prod.fst).Nodup := by
      intro table htable
      obtain ⟨state, -, rfl⟩ := List.mem_map.mp htable
      exact state.nodup_entries
    have hassemble := assemble_elements hroot hkey htables (by simpa using hs)
    rw [List.flatMap_map, List.map_map] at hassemble
    rw [statements, if_neg (by simpa using hs), entries]
    exact hassemble

/-- Every configuration that was read, or is the default one, is read back from its text as it was,
and equals itself, unless an opacity is NaN. -/
theorem ofToml_toToml {config : Config} (h : config = default ∨ ∃ t, ofToml t = .ok config)
    (hopacity : ∀ state ∈ config.states, state.opacity ≠ some .nan) :
    ofToml config.toToml = .ok config ∧ config.same config := by
  have hproper : config.Proper := by
    rcases h with rfl | ⟨t, h⟩
    · exact proper_default
    · exact proper_of_ofToml h
  refine ⟨?_, hproper.same hopacity⟩
  rw [ofToml, (reads_toToml hopacity).document? config.toToml_ne_mark, config.assemble_statements]
  exact foldlM_entries hproper hopacity default

/-- Texts that are not written without escapes, and numbers that are not held exactly. -/
def awkward : Config :=
  { default with
    extension := "\x01'\"\"\"\r\n".toList
    states := [{
      name := []
      token := "\\\"".toList
      ruler := some { Color.solid 1 255 0 with alpha := .ofRatio false 128 255 }
      opacity := some (.ofRatio true 1 10) }] }

def awkwardText : Text :=
  "extension = \"\\u0001'\\\"\\\"\\\"\\r\\n\"\n".toList ++
    "[[states]]\ntoken = '\\\"'\nname = \"\"\nopacity = -0.1\nruler = \"#01fF0080\"\n".toList

theorem ofToml_toToml_awkward : ofToml awkwardText = .ok awkward ∧
    (∀ state ∈ awkward.states, state.opacity ≠ some .nan) ∧
    ofToml awkward.toToml = .ok awkward ∧ awkward.same awkward := by
  have hread : ofToml awkwardText = .ok awkward := eq_ok_of_toOption (by decide +kernel)
  have hopacity : ∀ state ∈ awkward.states, state.opacity ≠ some .nan := by decide +kernel
  exact ⟨hread, hopacity, ofToml_toToml (.inr ⟨_, hread⟩) hopacity⟩

end Config

end Checklist
