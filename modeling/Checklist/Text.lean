namespace Checklist

/-- Text is a list of characters. Offsets and lengths count its bytes in UTF-8. -/
abbrev Text := List Char

namespace Text

def byteLength (t : Text) : Nat :=
  t.foldr (fun c length => c.utf8Size + length) 0

@[simp] theorem byteLength_nil : byteLength [] = 0 := rfl

@[simp] theorem byteLength_cons (c : Char) (t : Text) :
    byteLength (c :: t) = c.utf8Size + t.byteLength := by
  simp [byteLength]

@[simp] theorem byteLength_append (t u : Text) :
    byteLength (t ++ u) = t.byteLength + u.byteLength := by
  induction t with
  | nil => simp
  | cons c t ih => simp [ih, Nat.add_assoc]

/-- The longest initial part of at most `n` bytes. -/
def takeBytes : Nat → Text → Text
  | _, [] => []
  | n, c :: t => if c.utf8Size ≤ n then c :: takeBytes (n - c.utf8Size) t else []

/-- What `takeBytes` leaves. -/
def dropBytes : Nat → Text → Text
  | _, [] => []
  | n, c :: t => if c.utf8Size ≤ n then dropBytes (n - c.utf8Size) t else c :: t

theorem takeBytes_append_dropBytes (n : Nat) (t : Text) : t.takeBytes n ++ t.dropBytes n = t := by
  induction t generalizing n with
  | nil => rfl
  | cons c t ih =>
    simp only [takeBytes, dropBytes]
    split
    · simp [ih]
    · rfl

/-- Tabs and spaces indent a line. -/
def isBlank (c : Char) : Bool :=
  c == ' ' || c == '\t'

def indent (line : Text) : Text :=
  line.takeWhile isBlank

/-- The line after its indentation. -/
def body (line : Text) : Text :=
  line.dropWhile isBlank

theorem indent_append_body (line : Text) : indent line ++ body line = line :=
  List.takeWhile_append_dropWhile

/-- The text without its last character, if that is `c`. -/
def dropFinal (c : Char) (t : Text) : Text :=
  if t.getLast? = some c then t.dropLast else t

/-- The text before and after the first `separator`. -/
def splitFirst (separator : Char) : Text → Option (Text × Text)
  | [] => none
  | c :: t =>
    if c = separator then some ([], t)
    else (splitFirst separator t).map fun (before, after) => (c :: before, after)

/-- The pieces between separators, as many as there are separators and one more. -/
def splitAll (separator : Char) : Text → List Text
  | [] => [[]]
  | c :: t =>
    match splitAll separator t with
    | [] => [[c]]
    | piece :: pieces => if c = separator then [] :: piece :: pieces else (c :: piece) :: pieces

def join (separator : Text) : List Text → Text
  | [] => []
  | [t] => t
  | t :: rest => t ++ separator ++ join separator rest

end Text

end Checklist
