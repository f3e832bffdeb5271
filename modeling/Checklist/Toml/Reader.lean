import Checklist.Toml.Number
import Checklist.Toml.Quote
import Checklist.Toml.Table

namespace Checklist.Toml

/-- How deep values nest, and how many parts a key has, at most. -/
def depthLimit : Nat := 79

def skipBlanks (t : Text) : Text :=
  t.dropWhile Text.isBlank

/-- What follows the rest of a line that holds no more than a comment. -/
def lineEnd? (t : Text) : Option Text :=
  let atEnd : Text → Option Text
    | [] => some []
    | '\n' :: t => some t
    | '\r' :: '\n' :: t => some t
    | _ => none
  match skipBlanks t with
  | '#' :: t => atEnd (t.dropWhile fun c => !isControl c)
  | t => atEnd t

/-- What follows blanks, line ends and comments between brackets. -/
def skipLines? (inComment : Bool) : Text → Option Text
  | '\n' :: t => skipLines? false t
  | '\r' :: '\n' :: t => skipLines? false t
  | c :: t =>
    if inComment then if isControl c then none else skipLines? true t
    else if Text.isBlank c then skipLines? false t
    else if c = '#' then skipLines? true t
    else some (c :: t)
  | [] => if inComment then none else some []

def isBare (c : Char) : Bool :=
  c.isAlphanum || c == '_' || c == '-'

def keyPart? : Text → Option (Text × Text)
  | '"' :: t => basic? t
  | '\'' :: t => literal? t
  | t => if (t.takeWhile isBare).isEmpty then none else some (t.takeWhile isBare, t.dropWhile isBare)

/-- The parts of a key, at most `limit`, and what follows them and the blanks after. -/
def keyParts? : Nat → Text → Option (List Text × Text)
  | 0, _ => none
  | limit + 1, t => do
    let (part, t) ← keyPart? (skipBlanks t)
    match skipBlanks t with
    | '.' :: t =>
      let (parts, t) ← keyParts? limit t
      return (part :: parts, t)
    | t => return ([part], t)

def key? (t : Text) : Option (Key × Text) := do
  let (parts, t) ← keyParts? depthLimit t
  return (⟨parts.dropLast, ← parts.getLast?⟩, t)

/-- The items of an array up to its bracket; the last may have a comma after it. -/
def items? (item? : Text → Option (Value × Text)) : Nat → Text → Option (List Value × Text)
  | 0, _ => none
  | fuel + 1, t => do
    match ← skipLines? false t with
    | ']' :: t => return ([], t)
    | t =>
      let (item, t) ← item? t
      match ← skipLines? false t with
      | ',' :: t =>
        let (items, t) ← items? item? fuel t
        return (item :: items, t)
      | ']' :: t => return ([item], t)
      | _ => none

/-- A key, its equals sign and its value. -/
def pair? (value? : Text → Option (Value × Text)) (t : Text) : Option ((Key × Value) × Text) := do
  let (key, t) ← key? t
  let (value, t) ← value? (skipBlanks (← expect? '=' t))
  return ((key, value), t)

/-- The pairs of an inline table up to its brace. -/
def pairs? (value? : Text → Option (Value × Text)) : Nat → Text → Option (List (Key × Value) × Text)
  | 0, _ => none
  | fuel + 1, t => do
    let (pair, t) ← pair? value? t
    match skipBlanks t with
    | ',' :: t =>
      let (pairs, t) ← pairs? value? fuel t
      return (pair :: pairs, t)
    | '}' :: t => return ([pair], t)
    | _ => none

def scalarValue? (t : Text) : Option (Value × Text) :=
  match t with
  | '"' :: _ | '\'' :: _ => (string? t).map fun (text, rest) => (.string text, rest)
  | t => word? t

/-- A value in which brackets and braces nest at most `levels` deep, and what follows it. -/
def value? : Nat → Text → Option (Value × Text)
  | 0, t => scalarValue? t
  | levels + 1, t =>
    match t with
    | '[' :: t => (items? (value? levels) (t.length + 1) t).map fun (items, rest) => (.array items, rest)
    | '{' :: t =>
      match skipBlanks t with
      | '}' :: rest => some (.table [], rest)
      | _ => do
        let (pairs, rest) ← pairs? (value? levels) (t.length + 1) t
        return (← inlineTable pairs, rest)
    | t => scalarValue? t

def statement? : Text → Option (Statement × Text)
  | '[' :: '[' :: t => do
    let (key, t) ← key? t
    return (.element key, ← expect? ']' (← expect? ']' t))
  | '[' :: t => do
    let (key, t) ← key? t
    return (.table key, ← expect? ']' t)
  | t => do
    let ((key, value), t) ← pair? (value? depthLimit) t
    return (.pair key value, t)

/-- The lines of a document; there are fewer than `fuel`. -/
def statements? : Nat → Text → Option (List Statement)
  | 0, _ => none
  | fuel + 1, t =>
    match skipBlanks t with
    | [] => some []
    | c :: t =>
      if c == '#' || c == '\n' || c == '\r' then do statements? fuel (← lineEnd? (c :: t))
      else do
        let (statement, t) ← statement? (c :: t)
        return statement :: (← statements? fuel (← lineEnd? t))

/-- The table of a document. A byte order mark may stand before it. -/
def document? (t : Text) : Option (List (Text × Value)) :=
  let t := match t with
    | '\ufeff' :: t => t
    | t => t
  (statements? (t.length + 1) t).bind assemble

end Checklist.Toml
