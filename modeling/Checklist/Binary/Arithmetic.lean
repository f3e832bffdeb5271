import Checklist.Binary.Basic

namespace Checklist.Binary

variable {f : BinaryFormat}

/-- The number nearest to a fraction of units; a sum of exactly nothing has the given sign. -/
def ofUnits (ifZero : Bool) (units : Int) (d : Nat) : Binary f :=
  if units = 0 then number ifZero 0 else number (units < 0) (f.nearest units.natAbs d)

def signedUnits (negative : Bool) (rank : Nat) : Int :=
  if negative then -(f.units rank) else f.units rank

def negate : Binary f → Binary f
  | nan => nan
  | number negative rank => number (!negative) rank

def add : Binary f → Binary f → Binary f
  | number s a, number t b =>
    if a = f.top then if b = f.top && s != t then nan else infinity s
    else if b = f.top then infinity t
    else ofUnits (s && t) (signedUnits (f := f) s a + signedUnits (f := f) t b) 1
  | _, _ => nan

def sub (x y : Binary f) : Binary f :=
  x.add y.negate

def mul : Binary f → Binary f → Binary f
  | number s a, number t b =>
    let negative := s != t
    if a = f.top || b = f.top then if a = 0 || b = 0 then nan else infinity negative
    else number negative (f.nearest (f.units a * f.units b) (Nat.pow 2 f.scale))
  | _, _ => nan

/-- The nearest byte, a half away from zero. What lies outside goes to the nearer end, and NaN to
zero. -/
def toByte : Binary f → UInt8
  | nan => 0
  | number true _ => 0
  | number false rank =>
    UInt8.ofNat (min 255 ((2 * f.units rank + Nat.pow 2 f.scale) / Nat.pow 2 (f.scale + 1)))

end Checklist.Binary
