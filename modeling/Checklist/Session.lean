import Checklist.Config.Printer
import Checklist.Config.Reader
import Checklist.Display
import Checklist.Host
import Checklist.Invocation

namespace Checklist

/-- Why a run stops. -/
inductive Failure
  | io (error : IoError)
  | tokens (error : TokenError)
  | config (path : Path) (error : ConfigError)
  | outOfRange (error : OutOfRange)
  | usage (error : UsageError)

namespace Failure

def message : Failure → Text
  | io error => "I/O error: ".toList ++ error.message
  | tokens error => error.message
  | config path error =>
    "Failed to parse config file at ".toList ++ path ++ ": TOML parse error: ".toList ++ error.message
  | outOfRange error => error.message
  | usage error => error.message

end Failure

/-- An action in a world, which may stop early; what it did up to then stays done. -/
abbrev Run (m : Type → Type) := ExceptT Failure m

namespace Run

variable {m : Type → Type} [Monad m] [Host m]

def orStop (wrap : ε → Failure) : Except ε α → Run m α
  | .ok a => pure a
  | .error error => throw (wrap error)

def print (text : Text) : Run m Unit :=
  ExceptT.lift (Host.print text)

def report (level : Level) (reporter : Reporter) (message : Text) : Run m Unit :=
  ExceptT.lift (Host.report ⟨level, reporter, message⟩)

end Run

namespace Document

variable {m : Type → Type} [Monad m] [Host m]

def load (path : Path) : Run m Document := do
  let text ← Run.orStop .io (← ExceptT.lift (Host.read path))
  return ofFile path text

def writeTo (doc : Document) (path : Path) : Run m Unit := do
  Run.orStop .io (← ExceptT.lift (Host.write path doc.text))
  Run.report .info .document ("wrote ".toList ++ path)

/-- Writes the document to its file; it counts as unmodified then. -/
def save (doc : Document) : Run m Document := do
  match doc.filename with
  | none => throw (.io .noFilename)
  | some path =>
    doc.writeTo path
    return { doc with modified := false }

end Document

namespace Config

variable {m : Type → Type} [Monad m] [Host m]

/-- The configuration of a file. Where there is no file, the default one. -/
def load (path : Path) : Run m Config := do
  if ← ExceptT.lift (Host.present path) then
    let text ← Run.orStop .io (← ExceptT.lift (Host.read path))
    Run.orStop (.config path) (ofToml text)
  else return default

/-- The usual place of the configuration in a home directory. -/
def usualPath (home : Path) : Path :=
  home.child ".todo-highlight.toml".toList

end Config

namespace Session

def version : Text := "0.1.0".toList

def versionText : Text :=
  "todo-highlight ".toList ++ version ++ ['\n']

def usage : Text :=
  "todo-highlight ".toList ++ version ++
    (" - highlight and cycle states in .todo files\n" ++
    "\n" ++
    "Usage: todo-highlight [OPTIONS] <COMMAND>\n" ++
    "\n" ++
    "Commands:\n" ++
    "  scan FILE                 Print the highlighted regions of FILE\n" ++
    "  show FILE                 Render FILE with highlights\n" ++
    "  toggle FILE LINE[:END]... Cycle the state of the given lines\n" ++
    "  config                    Print the effective configuration\n" ++
    "\n" ++
    "Options:\n" ++
    "  -c, --config PATH  Use PATH instead of ~/.todo-highlight.toml\n" ++
    "  -n, --line-numbers Show line numbers (show)\n" ++
    "  -h, --help         Show this help message\n" ++
    "  -V, --version      Show version information\n").toList

/-- A region as its state's name and its lines counted from one. -/
def regionLine (set : TokenSet) (region : Region) : Text :=
  let name := match set.states[region.state]? with
    | some state => state.name
    | none => ['?']
  name ++ ' ' :: Text.decimal (region.startLine + 1) ++ '-' :: Text.decimal (region.endLine + 1) ++
    ['\n']

variable {m : Type → Type} [Monad m] [Host m]

/-- Reports that a file is none of those the configuration covers, and what follows from it. -/
def reportUncovered (config : Config) (file : Path) (consequence : String) : Run m Unit :=
  Run.report .warn .command
    (file ++ " is not a .".toList ++ config.extension ++ " file, ".toList ++ consequence.toList)

def scan (engine : Engine) (config : Config) (file : Path) : Run m Unit := do
  if config.covers file then
    let set ← Run.orStop .tokens (config.tokenSet engine)
    let doc ← Document.load file
    Run.print ((doc.regions set).flatMap (regionLine set))
  else reportUncovered config file "skipping"

def draw (engine : Engine) (config : Config) (columns : Nat) (file : Path) (lineNumbers : Bool) :
    Run m Unit := do
  let doc ← Document.load file
  let display : Display := { lineNumbers, columns }
  if config.covers file then
    let set ← Run.orStop .tokens (config.tokenSet engine)
    Run.print (display.render doc (doc.regions set) config.styles)
  else
    reportUncovered config file "not highlighting"
    Run.print (display.render doc [] config.styles)

def toggle (engine : Engine) (config : Config) (file : Path) (ranges : List LineRange) :
    Run m Unit := do
  if config.covers file then
    let set ← Run.orStop .tokens (config.tokenSet engine)
    let doc ← Document.load file
    ranges.forM fun range => Run.orStop .outOfRange (range.check doc.lineCount)
    let (result, doc) := doc.advanceLines set (ranges.flatMap LineRange.indices)
    let count ← Run.orStop .outOfRange result
    let _ ← doc.save
    Run.print ("Toggled ".toList ++ Text.decimal count ++ " line(s)\n".toList)
  else reportUncovered config file "nothing toggled"

def execute (engine : Engine) (config : Config) (columns : Nat) : Command → Run m Unit
  | .scan file => scan engine config file
  | .draw file lineNumbers => draw engine config columns file lineNumbers
  | .toggle file ranges => toggle engine config file ranges
  | .config => Run.print config.toToml
  | .help => Run.print usage
  | .version => Run.print versionText

/-- The configuration that an invocation runs with. Help and the version need none. -/
def configOf (home : Option Path) (invocation : Invocation) : Run m Config :=
  match invocation.command, invocation.config, home with
  | .help, _, _ => return .default
  | .version, _, _ => return .default
  | _, some path, _ => Config.load path
  | _, none, some home => Config.load (Config.usualPath home)
  | _, none, none => return .default

/-- Carries out a command line on a screen of `columns`. -/
def run (engine : Engine) (home : Option Path) (columns : Nat) (arguments : List Text) :
    Run m Unit := do
  let invocation ← Run.orStop .usage (Invocation.parse arguments)
  let config ← configOf home invocation
  execute engine config columns invocation.command

end Session

end Checklist
