import Checklist.Config
import Checklist.Toml.Printer

namespace Checklist

namespace StateConfig

def toToml (state : StateConfig) : Text :=
  "\n[[states]]\n".toList ++ Toml.line "name" (Toml.quote state.name) ++
    Toml.line "token" (Toml.quote state.token) ++
    (state.color.elim [] fun color => Toml.line "color" (Toml.quote color.text)) ++
    (state.ruler.elim [] fun ruler => Toml.line "ruler" (Toml.quote ruler.text)) ++
    (state.opacity.elim [] fun opacity => Toml.line "opacity" (Toml.number opacity.convert))

end StateConfig

namespace Config

/-- The configuration as a TOML text, which reads back as the same one. -/
def toToml (config : Config) : Text :=
  Toml.line "extension" (Toml.quote config.extension) ++
    Toml.line "comment" (Toml.quote config.comment) ++
    Toml.line "todoColor" (Toml.quote config.todoColor.text) ++
    Toml.line "doneColor" (Toml.quote config.doneColor.text) ++
    Toml.line "outcomeColor" (Toml.quote config.outcomeColor.text) ++
    if config.states.isEmpty then Toml.line "states" "[]".toList
    else config.states.flatMap StateConfig.toToml

end Config

end Checklist
