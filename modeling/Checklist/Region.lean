import Checklist.LineIndex
import Checklist.TokenSet

namespace Checklist

/-- Lines in one state, the last one included. -/
structure Region where
  state : Nat
  startLine : Nat
  endLine : Nat
  deriving DecidableEq, Repr

namespace Region

def contains (region : Region) (line : Nat) : Bool :=
  region.startLine ≤ line && line ≤ region.endLine

end Region

/-- A region in bytes, up to the line feed of its last line or the end of the text. -/
structure Stretch extends Span where
  state : Nat
  deriving DecidableEq, Repr

namespace Stretch

/-- Each opening reaches to the line feed before the next one, the last to `length`. -/
def between (length : Nat) : List Opening → List (Opening × Span)
  | [] => []
  | [last] => [(last, ⟨last.offset, length⟩)]
  | opening :: next :: rest =>
    (opening, ⟨opening.offset, next.offset - 1⟩) :: between length (next :: rest)

/-- The stretches that states open; a comment only ends the one before it. -/
def ofText (set : TokenSet) (t : Text) : List Stretch :=
  (between t.byteLength (set.openers.openings t)).filterMap fun (opening, span) =>
    (set.stateEnding opening.literal).map fun state => ⟨span, state⟩

end Stretch

namespace Region

def ofText (set : TokenSet) (t : Text) : List Region :=
  let index := LineIndex.ofText t
  (Stretch.ofText set t).map fun stretch =>
    ⟨stretch.state, index.lineOf stretch.start, index.lineOf stretch.stop⟩

end Region

end Checklist
