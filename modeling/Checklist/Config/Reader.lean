import Checklist.Color.Reader
import Checklist.Config
import Checklist.Toml.Reader

namespace Checklist

/-- Why a text is not a configuration. -/
inductive ConfigError
  | notToml
  | wrongKind (found : Toml.Value) (expected : String)
  | invalidColor (text : Text)
  | missingField (name : String)
  | tooFewElements (count : Nat)

namespace ConfigError

def message : ConfigError → Text
  | notToml => "invalid document".toList
  | wrongKind found expected =>
    "invalid type: ".toList ++ found.description ++ ", expected ".toList ++ expected.toList
  | invalidColor text => "Invalid color: ".toList ++ text
  | missingField name => "missing field `".toList ++ name.toList ++ "`".toList
  | tooFewElements count =>
    "invalid length ".toList ++ Text.decimal count ++
      ", expected struct StateConfig with 5 elements".toList

end ConfigError

namespace Toml.Value

def asText : Value → Except ConfigError Text
  | string text => .ok text
  | other => .error (.wrongKind other "a string")

def asColor (value : Value) : Except ConfigError Color := do
  let text ← value.asText
  match Color.ofText? text with
  | some color => .ok color
  | none => .error (.invalidColor text.trim)

def asOpacity : Value → Except ConfigError Binary32
  | float value => .ok value.convert
  | integer value => .ok (.ofInt value)
  | other => .error (.wrongKind other "f32")

end Toml.Value

namespace StateConfig

/-- What the entries of a table have said about a state so far. -/
structure Draft where
  name : Option Text := none
  token : Option Text := none
  color : Option Color := none
  ruler : Option Color := none
  opacity : Option Binary32 := none

namespace Draft

def set (draft : Draft) (key : Text) (value : Toml.Value) : Except ConfigError Draft := do
  if key = "name".toList then return { draft with name := ← value.asText }
  else if key = "token".toList then return { draft with token := ← value.asText }
  else if key = "color".toList then return { draft with color := ← value.asColor }
  else if key = "ruler".toList then return { draft with ruler := ← value.asColor }
  else if key = "opacity".toList then return { draft with opacity := ← value.asOpacity }
  else return draft

def finish (draft : Draft) : Except ConfigError StateConfig :=
  match draft.name, draft.token with
  | none, _ => .error (.missingField "name")
  | _, none => .error (.missingField "token")
  | some name, some token =>
    .ok { name, token, color := draft.color, ruler := draft.ruler, opacity := draft.opacity }

end Draft

/-- The element of an array, if it is that long. -/
def element (read : Toml.Value → Except ConfigError α) :
    Option Toml.Value → Except ConfigError (Option α)
  | none => .ok none
  | some value => return some (← read value)

/-- A state from a table, or from an array of its fields in order. A date passes for a table of none
of them. -/
def ofValue : Toml.Value → Except ConfigError StateConfig
  | .table entries => do
    let draft ← entries.foldlM (fun draft (key, value) => draft.set key value) ({} : Draft)
    draft.finish
  | .date => ({} : Draft).finish
  | .array [] => .error (.tooFewElements 0)
  | .array (name :: rest) => do
    let name ← name.asText
    match rest with
    | [] => .error (.tooFewElements 1)
    | token :: rest =>
      let token ← token.asText
      let color ← element Toml.Value.asColor rest[0]?
      let ruler ← element Toml.Value.asColor rest[1]?
      let opacity ← element Toml.Value.asOpacity rest[2]?
      return { name, token, color, ruler, opacity }
  | other => .error (.wrongKind other "struct StateConfig")

end StateConfig

namespace Config

def statesOf : Toml.Value → Except ConfigError (List StateConfig)
  | .array items => items.mapM StateConfig.ofValue
  | other => .error (.wrongKind other "a sequence")

/-- The configuration with one entry of the document. Other keys mean nothing. -/
def set (config : Config) (key : Text) (value : Toml.Value) : Except ConfigError Config := do
  if key = "extension".toList then return { config with extension := ← value.asText }
  else if key = "comment".toList then return { config with comment := ← value.asText }
  else if key = "todoColor".toList then return { config with todoColor := ← value.asColor }
  else if key = "doneColor".toList then return { config with doneColor := ← value.asColor }
  else if key = "outcomeColor".toList then return { config with outcomeColor := ← value.asColor }
  else if key = "states".toList then return { config with states := ← statesOf value }
  else return config

/-- The configuration that a TOML text holds. What it leaves out is as in the default one, and the
first bad value is the error. -/
def ofToml (t : Text) : Except ConfigError Config :=
  match Toml.document? t with
  | none => .error .notToml
  | some entries => entries.foldlM (fun config (key, value) => config.set key value) default

end Config

end Checklist
