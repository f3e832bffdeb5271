import Checklist.Toml.Value
import Checklist.Toml.Quote

namespace Checklist.Toml

/-- The form a string is written in. -/
inductive Form
  | basic
  | literal
  | basicLines
  | literalLines
  deriving DecidableEq, Repr

/-- The longest run of a character. -/
def longestRun (c : Char) (t : Text) : Nat :=
  (t.foldl (fun (longest, run) d =>
    let run := if d = c then run + 1 else 0
    (max longest run, run)) (0, 0)).1

/-- The plainest form that needs few escapes. -/
def Form.of (t : Text) : Form :=
  let controls := t.any fun c => isControl c && c != '\n'
  let lines := t.contains '\n'
  if !controls && !lines && !t.contains '\\' && !t.contains '"' then .basic
  else if !controls && !lines && !t.contains '\'' then .literal
  else if !controls && !t.contains '\\' && longestRun '"' t ≤ 2 then .basicLines
  else if !controls && longestRun '\'' t ≤ 2 then .literalLines
  else if lines then .basicLines
  else .basic

/-- A code point as four hexadecimal digits in capitals. -/
def fourDigits (n : Nat) : Text :=
  let digits := (Nat.toDigits 16 n).map Char.toUpper
  List.replicate (4 - digits.length) '0' ++ digits

/-- A character between double quotes, other than a quote or a line feed. -/
def escape (c : Char) : Text :=
  match c with
  | '\x08' => ['\\', 'b']
  | '\t' => ['\\', 't']
  | '\x0c' => ['\\', 'f']
  | '\r' => ['\\', 'r']
  | '\\' => ['\\', '\\']
  | c => if isControl c then '\\' :: 'u' :: fourDigits c.toNat else [c]

def escapeInLine (c : Char) : Text :=
  match c with
  | '"' => ['\\', '"']
  | '\n' => ['\\', 'n']
  | c => escape c

/-- The text between three double quotes. Every third quote in a row is escaped. -/
def escapeLines (run : Nat) : Text → Text
  | [] => []
  | '"' :: t =>
    if run = 2 then '\\' :: '"' :: escapeLines 0 t else '"' :: escapeLines (run + 1) t
  | '\n' :: t => '\n' :: escapeLines 0 t
  | c :: t => escape c ++ escapeLines 0 t

/-- A string as a document holds it. A text of several lines begins on a line of its own. -/
def quote (t : Text) : Text :=
  let lines (mark inner : Text) : Text :=
    mark ++ (if t.contains '\n' then ['\n'] else []) ++ inner ++ mark
  match Form.of t with
  | .basic => '"' :: t.flatMap escapeInLine ++ ['"']
  | .literal => '\'' :: t ++ ['\'']
  | .basicLines => lines ['"', '"', '"'] (escapeLines 0 t)
  | .literalLines => lines ['\'', '\'', '\''] t

/-- A number as a document holds it. -/
def number (x : Binary64) : Text :=
  match x with
  | .nan => "nan".toList
  | x => pointed x

/-- A line of a document. -/
def line (key : String) (value : Text) : Text :=
  key.toList ++ " = ".toList ++ value ++ ['\n']

end Checklist.Toml
