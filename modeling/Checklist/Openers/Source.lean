import Checklist.Openers
import Checklist.Text.Digits

namespace Checklist

namespace Openers

/-- Characters with a meaning of their own in a regular expression. -/
def isMeta (c : Char) : Bool :=
  "\\.+*?()|[]\x7b\x7d^$#&-~".toList.contains c

/-- A literal as a regular expression that matches it alone. -/
def escape (t : Text) : Text :=
  t.flatMap fun c => if isMeta c then ['\\', c] else [c]

/-- The openers as a regular expression: group 1 is the indentation, group 2 the literal. -/
def source (openers : Openers) : Text :=
  "(?m)^([\\t ]*)(".toList ++ Text.join ['|'] (openers.alternatives.map escape) ++ [')']

end Openers

/-- What compiles expressions. It says why it refuses the ones that it does not compile. -/
structure Engine where
  refusal? : Text → Option Text

namespace Engine

/-- The bytes that a compiled expression may take. -/
def sizeLimit : Nat := 10485760

/-- The bytes that a compiled expression takes for each byte that it names, or about as many. -/
def stateSize : Nat := 32

/-- The bytes of the characters that an expression names. An escape names the one behind it. -/
def namedBytes : Text → Nat
  | [] => 0
  | '\\' :: c :: rest => c.utf8Size + namedBytes rest
  | c :: rest => c.utf8Size + namedBytes rest

/-- Refuses nothing but expressions that are too large. -/
def usual : Engine where
  refusal? expression :=
    if sizeLimit < stateSize * namedBytes expression then
      some ("Compiled regex exceeds size limit of ".toList ++ Text.decimal sizeLimit ++
        " bytes.".toList)
    else none

theorem usual_eq_none_iff {expression : Text} :
    usual.refusal? expression = none ↔ stateSize * namedBytes expression ≤ sizeLimit := by
  unfold usual
  dsimp only
  split
  · rename_i h
    exact iff_of_false (Option.some_ne_none _) (Nat.not_le.mpr h)
  · rename_i h
    exact iff_of_true rfl (Nat.not_lt.mp h)

end Engine

end Checklist
