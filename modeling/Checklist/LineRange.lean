import Checklist.Document
import Checklist.Text.Trim

namespace Checklist

/-- Lines counted from one, the last one included. -/
structure LineRange where
  first : Nat
  last : Nat
  deriving DecidableEq, Repr

namespace LineRange

/-- A whole number from one up to the largest word of 64 bits, with white space around it and
perhaps a plus sign. -/
def number? (t : Text) : Option Nat :=
  let digits := match Text.trim t with
    | '+' :: digits => digits
    | digits => digits
  let n := Text.decimalValue digits
  if !digits.isEmpty && digits.all Char.isDigit && 0 < n && n < UInt64.size then some n else none

/-- One number, or two with a colon between them, the second not below the first. -/
def ofText? (t : Text) : Option LineRange :=
  match t.splitFirst ':' with
  | none => (number? t).map fun n => ⟨n, n⟩
  | some (first, last) => do
    let first ← number? first
    let last ← number? last
    if last < first then none else return ⟨first, last⟩

def check (range : LineRange) (lineCount : Nat) : Except OutOfRange Unit :=
  if lineCount < range.last then .error ⟨range.last, lineCount⟩ else .ok ()

/-- The first lines of the range counted from zero, at most `limit`. -/
def firstIndices (limit : Nat) (range : LineRange) : List Nat :=
  List.range' (range.first - 1) (min limit (range.last + 1 - range.first))

/-- The lines of the range counted from zero. -/
def indices (range : LineRange) : List Nat :=
  range.firstIndices (range.last + 1 - range.first)

end LineRange

end Checklist
