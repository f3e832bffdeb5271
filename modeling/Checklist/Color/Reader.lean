import Checklist.Color
import Checklist.Text.Trim

namespace Checklist.Color

/-- Two hexadecimal digits, or a plus sign and one. -/
def hexPair? (first second : Char) : Option UInt8 := do
  let low ← Text.hexValue? second
  if first = '+' then return UInt8.ofNat low
  return UInt8.ofNat (16 * (← Text.hexValue? first) + low)

/-- Six or eight digits after a number sign. -/
def hex? : Text → Option Color
  | [r, r', g, g', b, b'] => do
    return solid (← hexPair? r r') (← hexPair? g g') (← hexPair? b b')
  | [r, r', g, g', b, b', a, a'] => do
    return { solid (← hexPair? r r') (← hexPair? g g') (← hexPair? b b') with
      alpha := .ofRatio false (← hexPair? a a').toNat 255 }
  | _ => none

/-- The lower case of a letter, where that is a basic Latin letter. Besides the capitals only the
Kelvin sign has one. -/
def lowerLatin (c : Char) : Char :=
  if c == '\u212a' then 'k' else c.toLower

def names : List (Text × Color) := [
  ("black".toList, solid 0 0 0),
  ("white".toList, solid 255 255 255),
  ("red".toList, solid 255 0 0),
  ("green".toList, solid 0 128 0),
  ("blue".toList, solid 0 0 255),
  ("yellow".toList, solid 255 255 0),
  ("magenta".toList, solid 255 0 255),
  ("cyan".toList, solid 0 255 255),
  ("gray".toList, solid 128 128 128),
  ("grey".toList, solid 128 128 128)]

def named? (t : Text) : Option Color :=
  names.lookup (t.map lowerLatin)

/-- One to three digits of a value below 256, and the text after them. -/
def channel? (t : Text) : Option (UInt8 × Text) :=
  let digits := t.takeWhile Char.isDigit
  if digits.isEmpty || 3 < digits.length || 255 < Text.decimalValue digits then none
  else some (UInt8.ofNat (Text.decimalValue digits), t.dropWhile Char.isDigit)

/-- Digits with at most one point, which a digit follows, and the text after them. -/
def alpha? (t : Text) : Option (Binary32 × Text) :=
  let whole := t.takeWhile Char.isDigit
  match t.dropWhile Char.isDigit with
  | '.' :: rest =>
    let fraction := rest.takeWhile Char.isDigit
    if fraction.isEmpty then none
    else some (.ofDecimal false (Text.decimalValue (whole ++ fraction)) (-fraction.length),
      rest.dropWhile Char.isDigit)
  | rest =>
    if whole.isEmpty then none else some (.ofDecimal false (Text.decimalValue whole) 0, rest)

/-- The text after a comma and the white space around it. -/
def comma? (t : Text) : Option Text :=
  match Text.trimStart t with
  | ',' :: rest => some (Text.trimStart rest)
  | _ => none

/-- Three channels and perhaps an alpha as arguments of `rgb` or `rgba`. -/
def function? (t : Text) : Option Color := do
  let rest ← (Text.after? "rgb(".toList t).or (Text.after? "rgba(".toList t)
  let (red, rest) ← channel? (Text.trimStart rest)
  let (green, rest) ← channel? (← comma? rest)
  let (blue, rest) ← channel? (← comma? rest)
  let color := solid red green blue
  match Text.trimStart rest with
  | [')'] => return color
  | ',' :: rest =>
    let (alpha, rest) ← alpha? (Text.trimStart rest)
    if Text.trimStart rest = [')'] && !Binary.one.less alpha then return { color with alpha }
    else none
  | _ => none

/-- A color in one of its spellings, with white space around it. -/
def ofText? (t : Text) : Option Color :=
  match Text.trim t with
  | '#' :: digits => hex? digits
  | t => (named? t).or (function? t)

end Checklist.Color
