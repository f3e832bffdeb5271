import Checklist.Advance
import Checklist.Path
import Checklist.Region
import Checklist.Text.Digits

namespace Checklist

/-- A line, counted from one, that a text of `count` lines does not have. -/
structure OutOfRange where
  line : Nat
  count : Nat
  deriving DecidableEq, Repr

namespace OutOfRange

def message (error : OutOfRange) : Text :=
  "Line ".toList ++ Text.decimal error.line ++ " out of range (document has ".toList ++
    Text.decimal error.count ++ " lines)".toList

end OutOfRange

/-- A text whose lines are being edited, with its line index at hand. -/
structure Document where
  text : Text
  index : LineIndex
  filename : Option Path
  modified : Bool
  deriving DecidableEq, Repr

namespace Document

def ofText (t : Text) : Document :=
  ⟨t, .ofText t, none, false⟩

/-- The text of a file, not modified yet. -/
def ofFile (path : Path) (t : Text) : Document :=
  { ofText t with filename := some path }

def lineCount (doc : Document) : Nat :=
  doc.index.lineCount

/-- A line without its ending. -/
def line? (doc : Document) (i : Nat) : Option Text :=
  (doc.index.lineSpan i).map fun span => (doc.text.slice span).stripEnding

def lines (doc : Document) : List Text :=
  (List.range doc.lineCount).filterMap doc.line?

def regions (doc : Document) (set : TokenSet) : List Region :=
  Region.ofText set doc.text

/-- Replaces a line and keeps its ending. -/
def replaceLine (doc : Document) (i : Nat) (new : Text) : Except OutOfRange Unit × Document :=
  match doc.index.contentSpan doc.text i with
  | none => (.error ⟨i + 1, doc.lineCount⟩, doc)
  | some span =>
    let text := doc.text.splice span new
    (.ok (), { doc with text, index := .ofText text, modified := true })

/-- Replaces several lines one after another, up to the first that is not there. -/
def replaceLines (doc : Document) : List (Nat × Text) → Except OutOfRange Unit × Document
  | [] => (.ok (), doc)
  | (i, new) :: rest =>
    match doc.replaceLine i new with
    | (.ok _, doc) => doc.replaceLines rest
    | failed => failed

/-- Puts a number in its place among ascending ones, unless it is there. -/
def insertDistinct (n : Nat) : List Nat → List Nat
  | [] => [n]
  | m :: rest =>
    if n < m then n :: m :: rest
    else if n = m then m :: rest
    else m :: insertDistinct n rest

/-- The numbers of a list in ascending order, each once. -/
def sortDistinct (numbers : List Nat) : List Nat :=
  numbers.foldr insertDistinct []

/-- The listed lines as they are once advanced. -/
def advancedLines (doc : Document) (set : TokenSet) :
    List Nat → Except OutOfRange (List (Nat × Text))
  | [] => .ok []
  | i :: rest =>
    match doc.line? i with
    | none => .error ⟨i + 1, doc.lineCount⟩
    | some line => (doc.advancedLines set rest).map ((i, set.advance line) :: ·)

/-- Advances every listed line once and counts them. All lines are computed first and then replaced
from the last to the first, so that no replacement moves another one's line. -/
def advanceLines (doc : Document) (set : TokenSet) (lines : List Nat) :
    Except OutOfRange Nat × Document :=
  match doc.advancedLines set (sortDistinct lines) with
  | .error error => (.error error, doc)
  | .ok edits =>
    match doc.replaceLines edits.reverse with
    | (.ok _, doc) => (.ok edits.length, doc)
    | (.error error, doc) => (.error error, doc)

end Document

end Checklist
