import Checklist.LogFilter
import Checklist.Session

namespace Checklist

namespace IoError

def ofSystem : IO.Error → IoError
  | .noFileOrDirectory _ _ _ => notFound
  | .inappropriateType _ code _ => if code = 21 then isDirectory else notDirectory
  | error => other error.toString.toList

end IoError

/-- The files and streams of the process. Records that the filter shows go to the error stream. -/
abbrev Console := ReaderT LogFilter IO

namespace Console

/-- What an action gives, or why the system refuses it. -/
def attempt (action : IO α) : IO (Except IoError α) := do
  return (← action.toBaseIO).mapError IoError.ofSystem

def present (path : Path) : Console Bool := do
  return (← attempt (IO.FS.realPath (String.ofList path))).isOk

def read (path : Path) : Console (Except IoError Text) := do
  match ← attempt (IO.FS.readBinFile (String.ofList path)) with
  | .error error => return .error error
  | .ok content =>
    match String.fromUTF8? content with
    | some text => return .ok text.toList
    | none => return .error .notText

def write (path : Path) (text : Text) : Console (Except IoError Unit) :=
  attempt (IO.FS.writeFile (String.ofList path) (String.ofList text))

def print (text : Text) : Console Unit :=
  IO.print (String.ofList text)

def report (record : Record) : Console Unit := fun filter => do
  if filter.shows record then IO.eprint (String.ofList record.line)

instance : Host Console := ⟨present, read, write, print, report⟩

/-- The columns of a stream that is no terminal. -/
def columns : Nat := 80

/-- Carries out a command line and gives the exit code. -/
def run (home : Option Path) (arguments : List Text) : Console UInt32 := do
  match ← (Session.run .usual home columns arguments : Run Console Unit).run with
  | .ok _ => return 0
  | .error failure =>
    IO.eprintln ("Error: " ++ String.ofList failure.message)
    return 1

end Console

end Checklist

open Checklist in
def main (arguments : List String) : IO UInt32 := do
  let home ← IO.getEnv "HOME"
  let filter := match ← IO.getEnv "RUST_LOG" with
    | some text => LogFilter.ofText text.toList
    | none => LogFilter.default
  Console.run (home.map String.toList) (arguments.map String.toList) filter
