import Checklist.Text
import Checklist.Text.Extenders
import Checklist.Text.Unprintable

namespace Checklist.Text

namespace Quoted

/-- A character by its code point in lower-case hexadecimal digits. -/
def byCodePoint (c : Char) : Text :=
  ['\\', 'u', '{'] ++ Nat.toDigits 16 c.toNat ++ ['}']

/-- An extender is spelled out, since it would merge with the character before it. -/
def escaped (c : Char) : Text :=
  match c with
  | '\x00' => ['\\', '0']
  | '\t' => ['\\', 't']
  | '\n' => ['\\', 'n']
  | '\r' => ['\\', 'r']
  | '"' => ['\\', '"']
  | '\\' => ['\\', '\\']
  | c => if extenders.covers c || unprintable.covers c then byCodePoint c else [c]

end Quoted

/-- The text between double quotes, on one line, every character visible. -/
def quoted (t : Text) : Text :=
  '"' :: t.flatMap Quoted.escaped ++ ['"']

end Checklist.Text
