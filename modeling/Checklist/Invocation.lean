import Checklist.LineRange

namespace Checklist

inductive Command
  | scan (file : Path)
  | draw (file : Path) (lineNumbers : Bool)
  | toggle (file : Path) (ranges : List LineRange)
  | config
  | help
  | version
  deriving DecidableEq, Repr

/-- A command line: what to do, and with which configuration file if not the usual one. -/
structure Invocation where
  config : Option Path
  command : Command
  deriving DecidableEq, Repr

/-- Why a command line means nothing. -/
inductive UsageError
  | missingConfigPath
  | unknownOption (option : Text)
  | missingFile (command : Text)
  | missingLines
  | invalidRange (text : Text)
  | unknownCommand (name : Text)
  | unexpectedArgument (argument : Text)
  deriving DecidableEq, Repr

namespace UsageError

def message : UsageError → Text
  | missingConfigPath => "--config needs a path".toList
  | unknownOption option => "Unknown option: ".toList ++ option
  | missingFile command => command ++ " needs a file".toList
  | missingLines => "toggle needs at least one line".toList
  | invalidRange text => "Invalid line range: ".toList ++ text
  | unknownCommand name => "Unknown command: ".toList ++ name
  | unexpectedArgument argument => "Unexpected argument: ".toList ++ argument

end UsageError

namespace Command

/-- The command if nothing is left over. -/
def alone (command : Command) : List Text → Except UsageError Command
  | [] => .ok command
  | extra :: _ => .error (.unexpectedArgument extra)

def ranges : List Text → Except UsageError (List LineRange)
  | [] => .ok []
  | t :: rest =>
    match LineRange.ofText? t with
    | some range => (ranges rest).map (range :: ·)
    | none => .error (.invalidRange t)

/-- A command from its name and what follows, options set aside. -/
def ofWords (lineNumbers : Bool) : List Text → Except UsageError Command
  | [] => .ok help
  | name :: rest =>
    if name = "scan".toList then
      match rest with
      | [] => .error (.missingFile name)
      | file :: rest => (scan file).alone rest
    else if name = "show".toList then
      match rest with
      | [] => .error (.missingFile name)
      | file :: rest => (draw file lineNumbers).alone rest
    else if name = "toggle".toList then
      match rest with
      | [] => .error (.missingFile name)
      | file :: rest =>
        match ranges rest with
        | .error error => .error error
        | .ok [] => .error .missingLines
        | .ok found => .ok (toggle file found)
    else if name = "config".toList then config.alone rest
    else if name = "help".toList then help.alone rest
    else .error (.unknownCommand name)

end Command

namespace Invocation

/-- Reads arguments, after a configuration path, a wish for line numbers and other words. Asking for
help or the version ends the reading. -/
def ofArguments (path : Option Path) (lineNumbers : Bool) (words : List Text) :
    List Text → Except UsageError Invocation
  | [] => (Command.ofWords lineNumbers words).map fun command => ⟨path, command⟩
  | argument :: rest =>
    if argument = "--help".toList || argument = "-h".toList then .ok ⟨path, .help⟩
    else if argument = "--version".toList || argument = "-V".toList then .ok ⟨path, .version⟩
    else if argument = "--config".toList || argument = "-c".toList then
      match rest with
      | [] => .error .missingConfigPath
      | path :: rest => ofArguments (some path) lineNumbers words rest
    else if argument = "--line-numbers".toList || argument = "-n".toList then
      ofArguments path true words rest
    else if argument.head? = some '-' && 1 < argument.length then .error (.unknownOption argument)
    else ofArguments path lineNumbers (words ++ [argument]) rest

def parse (arguments : List Text) : Except UsageError Invocation :=
  ofArguments none false [] arguments

end Invocation

end Checklist
