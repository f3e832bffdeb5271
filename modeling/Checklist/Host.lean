import Checklist.Path

namespace Checklist

/-- Why a file cannot be read or written. -/
inductive IoError
  | notFound
  | notDirectory
  | isDirectory
  | notText
  | noFilename
  | other (description : Text)
  deriving DecidableEq, Repr

namespace IoError

def message : IoError → Text
  | notFound => "No such file or directory (os error 2)".toList
  | notDirectory => "Not a directory (os error 20)".toList
  | isDirectory => "Is a directory (os error 21)".toList
  | notText => "stream did not contain valid UTF-8".toList
  | noFilename => "No filename set".toList
  | other description => description

end IoError

inductive Level
  | off
  | error
  | warn
  | info
  | debug
  | trace
  deriving DecidableEq, Repr

/-- The part of the program that reports something. -/
inductive Reporter
  | command
  | document
  deriving DecidableEq, Repr

/-- What a run reports beside its output. -/
structure Record where
  level : Level
  reporter : Reporter
  message : Text
  deriving DecidableEq, Repr

/-- What a run needs from the world around it. -/
class Host (m : Type → Type) where
  present : Path → m Bool
  read : Path → m (Except IoError Text)
  write : Path → Text → m (Except IoError Unit)
  print : Text → m Unit
  report : Record → m Unit

end Checklist
