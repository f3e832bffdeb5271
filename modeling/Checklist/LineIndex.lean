import Checklist.Text

namespace Checklist

/-- A stretch of a text, from one byte offset up to another. -/
structure Span where
  start : Nat
  stop : Nat
  deriving DecidableEq, Repr

namespace Text

/-- A line without its ending: one line feed is dropped, then one carriage return. -/
def stripEnding (line : Text) : Text :=
  dropFinal '\r' (dropFinal '\n' line)

def slice (t : Text) (span : Span) : Text :=
  (t.dropBytes span.start).takeBytes (span.stop - span.start)

/-- The text with the bytes of `span` replaced. -/
def splice (t : Text) (span : Span) (new : Text) : Text :=
  t.takeBytes span.start ++ new ++ t.dropBytes span.stop

end Text

/-- Where the lines of a text begin. A line feed ends a line and always starts another. -/
structure LineIndex where
  starts : List Nat
  length : Nat
  deriving DecidableEq, Repr

namespace LineIndex

/-- The offsets just after the line feeds of a text that begins at `offset`. -/
def startsAfter (offset : Nat) : Text → List Nat
  | [] => []
  | c :: t =>
    if c = '\n' then (offset + 1) :: startsAfter (offset + 1) t
    else startsAfter (offset + c.utf8Size) t

def ofText (t : Text) : LineIndex :=
  ⟨0 :: startsAfter 0 t, t.byteLength⟩

def lineCount (index : LineIndex) : Nat :=
  index.starts.length

/-- The line that holds an offset; past the end, the last line. -/
def lineOf (index : LineIndex) (offset : Nat) : Nat :=
  (index.starts.drop 1).countP (· ≤ offset)

/-- The bytes of a line, its ending included. -/
def lineSpan (index : LineIndex) (line : Nat) : Option Span :=
  index.starts[line]?.map fun start => ⟨start, index.starts[line + 1]?.getD index.length⟩

/-- The bytes of a line of `t`, its ending excluded. -/
def contentSpan (index : LineIndex) (t : Text) (line : Nat) : Option Span :=
  (index.lineSpan line).map fun span =>
    ⟨span.start, span.start + (t.slice span).stripEnding.byteLength⟩

end LineIndex

end Checklist
