import Checklist.Binary.Basic
import Checklist.Text

namespace Checklist

/-- The number `digits * 10 ^ exponent`. -/
structure Decimal where
  digits : Nat
  exponent : Int
  deriving DecidableEq, Repr

namespace Decimal

/-- Digits with a point where needed, and never an exponent. -/
def positional (d : Decimal) : Text :=
  let digits := Nat.toDigits 10 d.digits
  if 0 ≤ d.exponent then digits ++ List.replicate d.exponent.toNat '0'
  else
    let places := (-d.exponent).toNat
    let padded := List.replicate (places + 1 - digits.length) '0' ++ digits
    padded.take (padded.length - places) ++ '.' :: padded.drop (padded.length - places)

end Decimal

namespace BinaryFormat

/-- Whether `point * 10 ^ exponent` rounds to the magnitude of `rank`: it lies between the halfway
points to the ranks next to it, of which an even rank owns both. -/
def owns (f : BinaryFormat) (rank point : Nat) (exponent : Int) : Bool :=
  let twice := 2 * (point * Nat.pow 10 exponent.toNat * Nat.pow 2 f.scale)
  let low := (f.units (rank - 1) + f.units rank) * Nat.pow 10 (-exponent).toNat
  let high := (f.units rank + f.units (rank + 1)) * Nat.pow 10 (-exponent).toNat
  if rank % 2 = 0 then low ≤ twice && twice ≤ high else low < twice && twice < high

/-- The multiple of `10 ^ exponent` that the rank owns, if it owns any: of the two next to its
magnitude the nearer one, and the upper one from halfway. -/
def pointOn? (f : BinaryFormat) (rank : Nat) (exponent : Int) : Option Nat :=
  let n := f.units rank * Nat.pow 10 (-exponent).toNat
  let d := Nat.pow 10 exponent.toNat * Nat.pow 2 f.scale
  let low := n / d
  let preferUp := d ≤ 2 * (n % d)
  let ownsLow := f.owns rank low exponent
  let ownsHigh := f.owns rank (low + 1) exponent
  if ownsLow && !(preferUp && ownsHigh) then some low
  else if ownsHigh then some (low + 1)
  else none

/-- The point on the coarsest grid, from `10 ^ exponent` down. -/
def coarsest (f : BinaryFormat) (rank : Nat) : Nat → Int → Decimal
  | 0, exponent => ⟨f.units rank * Nat.pow 10 (-exponent).toNat / Nat.pow 2 f.scale, exponent⟩
  | more + 1, exponent =>
    match f.pointOn? rank exponent with
    | some point => ⟨point, exponent⟩
    | none => coarsest f rank more (exponent - 1)

/-- The shortest decimal that rounds to a magnitude, and the nearest one of that length. Every
magnitude is a multiple of `10 ^ -scale`, so the search ends there at the latest. -/
def shortest (f : BinaryFormat) (rank : Nat) : Decimal :=
  if rank = 0 then ⟨0, 0⟩
  else
    let first := f.scale / 3
    f.coarsest rank (first + f.scale) first

end BinaryFormat

namespace Binary

variable {f : BinaryFormat}

/-- The shortest digits that read back, without an exponent. -/
def text : Binary f → Text
  | nan => "NaN".toList
  | number negative rank =>
    let magnitude := if rank = f.top then "inf".toList else (f.shortest rank).positional
    if negative then '-' :: magnitude else magnitude

end Binary

end Checklist
