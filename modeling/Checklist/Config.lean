import Checklist.Path
import Checklist.Style
import Checklist.TokenSet

namespace Checklist

/-- A state as it is configured. What is left out depends on the name. -/
structure StateConfig where
  name : Text
  token : Text
  color : Option Color := none
  ruler : Option Color := none
  opacity : Option Binary32 := none
  deriving DecidableEq, Repr

structure Config where
  extension : Text
  comment : Text
  todoColor : Color
  doneColor : Color
  outcomeColor : Color
  states : List StateConfig
  deriving DecidableEq, Repr

namespace Config

/-- Three tenths of cover. -/
def translucent (red green blue : UInt8) : Color :=
  (Color.solid red green blue).withAlpha (.ofRatio false 3 10)

def default : Config where
  extension := "todo".toList
  comment := TokenSet.defaultComment
  todoColor := translucent 230 130 130
  doneColor := translucent 130 230 130
  outcomeColor := translucent 130 130 230
  states := TokenSet.defaultStates.map fun state => { name := state.name, token := state.token }

def tokenSet (engine : Engine) (config : Config) : Except TokenError TokenSet :=
  TokenSet.ofStates engine (config.states.map fun state => ⟨state.name, state.token⟩) config.comment

/-- How a state is drawn where its own configuration does not say. -/
def namedStyle (config : Config) (name : Text) : Style :=
  if name = "todo".toList then .new config.todoColor (.solid 255 0 0)
  else if name = "done".toList then
    (Style.new config.doneColor (.solid 0 128 0)).withOpacity (.ofRatio false 4 10)
  else if name = "outcome".toList then .new config.outcomeColor (.solid 0 0 255)
  else .new (translucent 128 128 128) (.solid 128 128 128)

def styleOf (config : Config) (state : StateConfig) : Style :=
  let named := config.namedStyle state.name
  (Style.new (state.color.getD named.background) (state.ruler.getD named.ruler)).withOpacity
    (state.opacity.getD named.opacity)

/-- One style for each state, in order. -/
def styles (config : Config) : List Style :=
  config.states.map config.styleOf

/-- Whether a file is drawn with highlights, and its lines can be advanced. -/
def covers (config : Config) (path : Path) : Bool :=
  match path.fileName? with
  | some name => ('.' :: config.extension).isSuffixOf name
  | none => false

end Config

/-- Both left out, or equal as `same` says. -/
def sameOption (same : α → α → Bool) : Option α → Option α → Bool
  | none, none => true
  | some a, some b => same a b
  | _, _ => false

namespace StateConfig

def same (a b : StateConfig) : Bool :=
  a.name == b.name && a.token == b.token && sameOption Color.same a.color b.color &&
    sameOption Color.same a.ruler b.ruler && sameOption Binary.same a.opacity b.opacity

end StateConfig

namespace Config

/-- Equal texts, and colors and opacities equal in value. -/
def same (a b : Config) : Bool :=
  a.extension == b.extension && a.comment == b.comment && a.todoColor.same b.todoColor &&
    a.doneColor.same b.doneColor && a.outcomeColor.same b.outcomeColor &&
    a.states.length == b.states.length &&
    (a.states.zip b.states).all fun (x, y) => x.same y

end Config

end Checklist
