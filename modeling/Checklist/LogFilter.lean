import Checklist.Host
import Checklist.Text.Trim

namespace Checklist

namespace Level

/-- More of it shows as the number grows. -/
def verbosity : Level → Nat
  | off => 0
  | error => 1
  | warn => 2
  | info => 3
  | debug => 4
  | trace => 5

def named : List (Text × Level) := [
  ("off".toList, off), ("error".toList, error), ("warn".toList, warn), ("info".toList, info),
  ("debug".toList, debug), ("trace".toList, trace)]

def ofText? (t : Text) : Option Level :=
  named.lookup (t.map Char.toLower)

/-- The name in five columns. -/
def label (level : Level) : Text :=
  let name := ((named.find? (·.2 == level)).map (·.1)).getD []
  name.map Char.toUpper ++ List.replicate (5 - name.length) ' '

end Level

namespace Reporter

def target : Reporter → Text
  | command => "todo_highlight::command".toList
  | document => "todo_highlight::document".toList

end Reporter

namespace Record

/-- The record as a line of the log. -/
def line (record : Record) : Text :=
  '[' :: record.level.label ++ ' ' :: record.reporter.target ++ "] ".toList ++ record.message ++ ['\n']

end Record

/-- How much to show of the reporters whose target begins with `target`. -/
structure LogRule where
  target : Text
  level : Level
  deriving DecidableEq, Repr

/-- Rules on what to show. Of those that apply, the one with the longest target decides. -/
structure LogFilter where
  rules : List LogRule
  deriving DecidableEq, Repr

namespace LogRule

/-- A level, a target, or a target and a level with an equals sign between them. White space may
stand around the level. -/
def ofText? (t : Text) : Option LogRule :=
  match t.splitAll '=' with
  | [word] =>
    match Level.ofText? word with
    | some level => some ⟨[], level⟩
    | none => some ⟨word, .trace⟩
  | [target, word] =>
    if word.trim = [] then some ⟨target, .trace⟩
    else (Level.ofText? word.trim).map fun level => ⟨target, level⟩
  | _ => none

end LogRule

namespace LogFilter

/-- Warnings and errors. -/
def default : LogFilter := ⟨[⟨[], .warn⟩]⟩

/-- Puts a rule in place of the one with its target. -/
def set (filter : LogFilter) (rule : LogRule) : LogFilter :=
  ⟨filter.rules.filter (·.target != rule.target) ++ [rule]⟩

/-- The default with the rules of a text, which stand between commas. -/
def ofText (t : Text) : LogFilter :=
  ((((t.splitAll ',').map Text.trim).filter (· != [])).filterMap LogRule.ofText?).foldl set default

def levelOf (filter : LogFilter) (target : Text) : Level :=
  (filter.rules.foldl (fun (best : LogRule) rule =>
    if rule.target.isPrefixOf target && best.target.length ≤ rule.target.length then rule else best)
    ⟨[], .off⟩).level

def shows (filter : LogFilter) (record : Record) : Bool :=
  record.level.verbosity ≤ (filter.levelOf record.reporter.target).verbosity

end LogFilter

end Checklist
