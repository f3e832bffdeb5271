namespace Checklist

/-- A binary floating-point format of IEEE 754. -/
structure BinaryFormat where
  precision : Nat
  exponentBits : Nat
  deriving DecidableEq, Repr

namespace BinaryFormat

def binary32 : BinaryFormat := ⟨24, 8⟩

def binary64 : BinaryFormat := ⟨53, 11⟩

/-- How many magnitudes share one exponent. -/
def binade (f : BinaryFormat) : Nat :=
  Nat.pow 2 (f.precision - 1)

/-- The rank of infinity among the magnitudes, counted from zero. -/
def top (f : BinaryFormat) : Nat :=
  (Nat.pow 2 f.exponentBits - 1) * f.binade

/-- A unit is the least positive number, and one is `2 ^ scale` units. -/
def scale (f : BinaryFormat) : Nat :=
  Nat.pow 2 (f.exponentBits - 1) + f.precision - 3

/-- The magnitude of a rank, which is a whole number of units. -/
def units (f : BinaryFormat) (rank : Nat) : Nat :=
  let step := rank / f.binade - 1
  (rank - step * f.binade) * Nat.pow 2 step

end BinaryFormat

/-- The quotient to the nearest whole number, a half to the even one. -/
def roundHalfEven (n d : Nat) : Nat :=
  let low := n / d
  let twice := 2 * (n % d)
  if twice < d then low else if d < twice then low + 1 else low + low % 2

/-- The rank of the magnitude nearest to `n / d` units, a half to the even rank. -/
def BinaryFormat.nearest (f : BinaryFormat) (n d : Nat) : Nat :=
  let step := (n / d).log2 + 1 - f.precision
  min f.top (step * f.binade + roundHalfEven n (d * Nat.pow 2 step))

/-- A number of a format, by its sign and the rank of its magnitude. All NaNs are one. -/
inductive Binary (f : BinaryFormat)
  | nan
  | number (negative : Bool) (rank : Nat)
  deriving DecidableEq, Repr

abbrev Binary32 := Binary .binary32

abbrev Binary64 := Binary .binary64

namespace Binary

variable {f : BinaryFormat}

def zero : Binary f := number false 0

/-- The number nearest to the fraction `n / d`. -/
def ofRatio (negative : Bool) (n d : Nat) : Binary f :=
  number negative (f.nearest (n * Nat.pow 2 f.scale) d)

def ofNat (n : Nat) : Binary f := ofRatio false n 1

def ofInt (i : Int) : Binary f := ofRatio (i < 0) i.natAbs 1

def one : Binary f := ofNat 1

/-- The number nearest to `digits * 10 ^ exponent`. -/
def ofDecimal (negative : Bool) (digits : Nat) (exponent : Int) : Binary f :=
  ofRatio negative (digits * Nat.pow 10 exponent.toNat) (Nat.pow 10 (-exponent).toNat)

def infinity (negative : Bool) : Binary f := number negative f.top

/-- The number of another format nearest to this one. -/
def convert {g : BinaryFormat} : Binary f → Binary g
  | nan => nan
  | number negative rank =>
    if rank = f.top then infinity negative else ofRatio negative (f.units rank) (Nat.pow 2 f.scale)

/-- The place in the order of the numbers; both zeros have the same. -/
def place : Binary f → Option Int
  | nan => none
  | number negative rank => some (if negative then -rank else rank)

/-- Less in value. Nothing compares with NaN. -/
def less (x y : Binary f) : Bool :=
  match x.place, y.place with
  | some a, some b => a < b
  | _, _ => false

/-- Equal in value: zeros are equal, and NaN does not equal itself. -/
def same (x y : Binary f) : Bool :=
  match x.place, y.place with
  | some a, some b => a == b
  | _, _ => false

/-- The nearest number from `low` to `high`; NaN stays. -/
def clamp (x low high : Binary f) : Binary f :=
  if x.less low then low else if high.less x then high else x

end Binary

end Checklist
