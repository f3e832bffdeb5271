import Checklist.Color

namespace Checklist.Screen

/-- A control sequence of a terminal: parameters and a final letter. -/
def sequence (parameters : List Nat) (final : Char) : Text :=
  '\x1b' :: '[' :: Text.join [';'] (parameters.map Text.decimal) ++ [final]

def foreground (paint : Paint) : Text :=
  sequence [38, 2, paint.red.toNat, paint.green.toNat, paint.blue.toNat] 'm'

def background (paint : Paint) : Text :=
  sequence [48, 2, paint.red.toNat, paint.green.toNat, paint.blue.toNat] 'm'

/-- Dim text, or text of normal intensity. -/
def intensity (dim : Bool) : Text :=
  sequence [if dim then 2 else 22] 'm'

/-- Back to the terminal's own colors, and then to its own attributes. -/
def reset : Text :=
  sequence [0] 'm' ++ sequence [0] 'm'

end Checklist.Screen
