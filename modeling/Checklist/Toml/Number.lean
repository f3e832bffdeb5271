import Checklist.Toml.Value

namespace Checklist.Toml

/-- The digits at the start of a text without the single underscores between them, and the rest. -/
def digitRun (isDigit : Char → Bool) : Text → Text × Text
  | '_' :: c :: t =>
    if isDigit c then
      let (digits, rest) := digitRun isDigit t
      (c :: digits, rest)
    else ([], '_' :: c :: t)
  | c :: t =>
    if isDigit c then
      let (digits, rest) := digitRun isDigit t
      (c :: digits, rest)
    else ([], c :: t)
  | [] => ([], [])

/-- At least one digit, with underscores only between digits. -/
def digits? (isDigit : Char → Bool) : Text → Option (Text × Text)
  | c :: t => if isDigit c then some (digitRun isDigit (c :: t)) else none
  | [] => none

def sign : Text → Bool × Text
  | '-' :: t => (true, t)
  | '+' :: t => (false, t)
  | t => (false, t)

/-- Decimal digits without a leading zero. -/
def wholeDigits? : Text → Option (Text × Text)
  | '0' :: t => some (['0'], t)
  | t => digits? Char.isDigit t

/-- The whole numbers of 64 bits. -/
def inRange (i : Int) : Bool :=
  Int64.minValue.toInt ≤ i && i ≤ Int64.maxValue.toInt

def radixValue (radix : Nat) (digits : Text) : Nat :=
  digits.foldl (fun n c => radix * n + (Text.hexValue? c).getD 0) 0

def isHexadecimal (c : Char) : Bool := (Text.hexValue? c).isSome

def isOctal (c : Char) : Bool := '0' ≤ c && c ≤ '7'

def isBinary (c : Char) : Bool := c == '0' || c == '1'

def integer? (t : Text) : Option (Int × Text) := do
  let prefixed (radix : Nat) (isDigit : Char → Bool) (t : Text) : Option (Int × Text) := do
    let (digits, rest) ← digits? isDigit t
    let value : Int := radixValue radix digits
    if inRange value then return (value, rest) else none
  match t with
  | '0' :: 'x' :: t => prefixed 16 isHexadecimal t
  | '0' :: 'o' :: t => prefixed 8 isOctal t
  | '0' :: 'b' :: t => prefixed 2 isBinary t
  | t =>
    let (negative, t) := sign t
    let (digits, rest) ← wholeDigits? t
    let magnitude : Int := Text.decimalValue digits
    let value := if negative then -magnitude else magnitude
    if inRange value then return (value, rest) else none

/-- The exponent after its letter. -/
def exponent? : Text → Option (Int × Text)
  | c :: t => do
    if c != 'e' && c != 'E' then none
    let (negative, t) := sign t
    let (digits, rest) ← digits? Char.isDigit t
    let magnitude : Int := Text.decimalValue digits
    return (if negative then -magnitude else magnitude, rest)
  | [] => none

/-- A power of ten beyond the reach of every format does not grow further. -/
def boundedExponent (digits : Text) (exponent : Int) : Int :=
  max (-(2000 + digits.length)) (min 2000 exponent)

def special? (negative : Bool) : Text → Option (Binary64 × Text)
  | 'i' :: 'n' :: 'f' :: t => some (.infinity negative, t)
  | 'n' :: 'a' :: 'n' :: t => some (.nan, t)
  | _ => none

/-- A number with a fraction or an exponent. One too large for the format is refused, unless it is
negative. -/
def float? (t : Text) : Option (Binary64 × Text) := do
  let (negative, t) := sign t
  match special? negative t with
  | some found => return found
  | none =>
    let (whole, t) ← wholeDigits? t
    let (fraction, exponent, rest) ← match t with
      | '.' :: t => do
        let (fraction, t) ← digits? Char.isDigit t
        match exponent? t with
        | some (exponent, t) => some (fraction, exponent, t)
        | none => some (fraction, 0, t)
      | t => (exponent? t).map fun (exponent, t) => ([], exponent, t)
    let digits := whole ++ fraction
    let value : Binary64 := .ofDecimal negative (Text.decimalValue digits)
      (boundedExponent digits (exponent - fraction.length))
    if value = .infinity false then none else return (value, rest)

/-- A number of exactly `count` digits, from `low` to `high`. -/
def fixed? (count low high : Nat) (t : Text) : Option (Nat × Text) :=
  let digits := t.take count
  let value := Text.decimalValue digits
  if digits.length = count && digits.all Char.isDigit && low ≤ value && value ≤ high then
    some (value, t.drop count)
  else none

def expect? (c : Char) : Text → Option Text
  | d :: t => if d = c then some t else none
  | [] => none

def daysInMonth (year month : Nat) : Nat :=
  if month = 2 then
    if year % 4 = 0 && (year % 100 != 0 || year % 400 = 0) then 29 else 28
  else if month = 4 || month = 6 || month = 9 || month = 11 then 30
  else 31

def day? (t : Text) : Option Text := do
  let (year, t) ← fixed? 4 0 9999 t
  let (month, t) ← fixed? 2 1 12 (← expect? '-' t)
  let (_, t) ← fixed? 2 1 (daysInMonth year month) (← expect? '-' t)
  return t

/-- A time of day, in which a minute may have a leap second. -/
def time? (t : Text) : Option Text := do
  let (_, t) ← fixed? 2 0 23 t
  let (_, t) ← fixed? 2 0 59 (← expect? ':' t)
  let (_, t) ← fixed? 2 0 60 (← expect? ':' t)
  match t with
  | '.' :: rest =>
    if (rest.takeWhile Char.isDigit).isEmpty then none else return rest.dropWhile Char.isDigit
  | t => return t

def zone? : Text → Option Text
  | 'Z' :: t => some t
  | 'z' :: t => some t
  | c :: t => do
    if c != '+' && c != '-' then none
    let (_, t) ← fixed? 2 0 23 t
    let (_, t) ← fixed? 2 0 59 (← expect? ':' t)
    return t
  | [] => none

/-- A day, a day and a time with or without a zone, or a time. -/
def date? (t : Text) : Option Text :=
  match day? t with
  | some rest =>
    match rest with
    | c :: after =>
      if c == 'T' || c == 't' || c == ' ' then
        match time? after with
        | some rest => some ((zone? rest).getD rest)
        | none => some rest
      else some rest
    | [] => some []
  | none => time? t

/-- A value that stands on its own, other than a string. -/
def word? (t : Text) : Option (Value × Text) :=
  match t with
  | 't' :: 'r' :: 'u' :: 'e' :: t => some (.boolean true, t)
  | 'f' :: 'a' :: 'l' :: 's' :: 'e' :: t => some (.boolean false, t)
  | t =>
    ((date? t).map fun rest => (Value.date, rest))
    |>.or ((float? t).map fun (value, rest) => (.float value, rest))
    |>.or ((integer? t).map fun (value, rest) => (.integer value, rest))

end Checklist.Toml
