import Checklist.Text.Digits

namespace Checklist.Toml

/-- Controls other than the tab stand in a document only as line ends. -/
def isControl (c : Char) : Bool :=
  (c.toNat < 0x20 && c != '\t') || c == '\x7f'

/-- The character of a code point, unless that is a surrogate or too large. -/
def scalar? (n : Nat) : Option Char :=
  if n.isValidChar then some (Char.ofNat n) else none

def codePoint? (digits : List Char) : Option Char := do
  scalar? ((← digits.mapM Text.hexValue?).foldl (fun n d => 16 * n + d) 0)

def prepend (c : Char) (read : Text × Text) : Text × Text :=
  (c :: read.1, read.2)

/-- The text up to a double quote, escapes resolved, and what follows it. -/
def basic? : Text → Option (Text × Text)
  | '"' :: t => some ([], t)
  | '\\' :: 'b' :: t => (basic? t).map (prepend '\x08')
  | '\\' :: 't' :: t => (basic? t).map (prepend '\t')
  | '\\' :: 'n' :: t => (basic? t).map (prepend '\n')
  | '\\' :: 'f' :: t => (basic? t).map (prepend '\x0c')
  | '\\' :: 'r' :: t => (basic? t).map (prepend '\r')
  | '\\' :: '"' :: t => (basic? t).map (prepend '"')
  | '\\' :: '\\' :: t => (basic? t).map (prepend '\\')
  | '\\' :: 'u' :: a :: b :: c :: d :: t =>
    (codePoint? [a, b, c, d]).bind fun x => (basic? t).map (prepend x)
  | '\\' :: 'U' :: a :: b :: c :: d :: e :: f :: g :: h :: t =>
    (codePoint? [a, b, c, d, e, f, g, h]).bind fun x => (basic? t).map (prepend x)
  | c :: t => if isControl c || c == '\\' then none else (basic? t).map (prepend c)
  | [] => none

/-- The text up to an apostrophe, and what follows it. -/
def literal? : Text → Option (Text × Text)
  | '\'' :: t => some ([], t)
  | c :: t => if isControl c then none else (literal? t).map (prepend c)
  | [] => none

/-- Whether a backslash at the end of a line is being followed. -/
inductive Fold
  | none
  | beforeBreak
  | afterBreak
  deriving DecidableEq

/-- The text up to three double quotes, before which two more may stand, and what follows. A
backslash at the end of a line removes all white space up to the next character. -/
def basicLines? : Fold → Text → Option (Text × Text)
  | .beforeBreak, ' ' :: t => basicLines? .beforeBreak t
  | .beforeBreak, '\t' :: t => basicLines? .beforeBreak t
  | .beforeBreak, '\n' :: t => basicLines? .afterBreak t
  | .beforeBreak, '\r' :: '\n' :: t => basicLines? .afterBreak t
  | .beforeBreak, _ => .none
  | .afterBreak, ' ' :: t => basicLines? .afterBreak t
  | .afterBreak, '\t' :: t => basicLines? .afterBreak t
  | .afterBreak, '\n' :: t => basicLines? .afterBreak t
  | .afterBreak, '\r' :: '\n' :: t => basicLines? .afterBreak t
  | _, '"' :: '"' :: '"' :: '"' :: '"' :: t => some (['"', '"'], t)
  | _, '"' :: '"' :: '"' :: '"' :: t => some (['"'], t)
  | _, '"' :: '"' :: '"' :: t => some ([], t)
  | _, '\\' :: 'b' :: t => (basicLines? .none t).map (prepend '\x08')
  | _, '\\' :: 't' :: t => (basicLines? .none t).map (prepend '\t')
  | _, '\\' :: 'n' :: t => (basicLines? .none t).map (prepend '\n')
  | _, '\\' :: 'f' :: t => (basicLines? .none t).map (prepend '\x0c')
  | _, '\\' :: 'r' :: t => (basicLines? .none t).map (prepend '\r')
  | _, '\\' :: '"' :: t => (basicLines? .none t).map (prepend '"')
  | _, '\\' :: '\\' :: t => (basicLines? .none t).map (prepend '\\')
  | _, '\\' :: 'u' :: a :: b :: c :: d :: t =>
    (codePoint? [a, b, c, d]).bind fun x => (basicLines? .none t).map (prepend x)
  | _, '\\' :: 'U' :: a :: b :: c :: d :: e :: f :: g :: h :: t =>
    (codePoint? [a, b, c, d, e, f, g, h]).bind fun x => (basicLines? .none t).map (prepend x)
  | _, '\\' :: t => basicLines? .beforeBreak t
  | _, '\n' :: t => (basicLines? .none t).map (prepend '\n')
  | _, '\r' :: '\n' :: t => (basicLines? .none t).map (prepend '\n')
  | _, c :: t => if isControl c then .none else (basicLines? .none t).map (prepend c)
  | _, [] => .none

/-- The text up to three apostrophes, before which two more may stand, and what follows. -/
def literalLines? : Text → Option (Text × Text)
  | '\'' :: '\'' :: '\'' :: '\'' :: '\'' :: t => some (['\'', '\''], t)
  | '\'' :: '\'' :: '\'' :: '\'' :: t => some (['\''], t)
  | '\'' :: '\'' :: '\'' :: t => some ([], t)
  | '\n' :: t => (literalLines? t).map (prepend '\n')
  | '\r' :: '\n' :: t => (literalLines? t).map (prepend '\n')
  | c :: t => if isControl c then none else (literalLines? t).map (prepend c)
  | [] => none

/-- A line end directly after three quotes does not count. -/
def skipFirstBreak : Text → Text
  | '\n' :: t => t
  | '\r' :: '\n' :: t => t
  | t => t

/-- A string in quotes of any kind, and what follows it. -/
def string? : Text → Option (Text × Text)
  | '"' :: '"' :: '"' :: t => basicLines? .none (skipFirstBreak t)
  | '"' :: t => basic? t
  | '\'' :: '\'' :: '\'' :: t => literalLines? (skipFirstBreak t)
  | '\'' :: t => literal? t
  | _ => none

end Checklist.Toml
