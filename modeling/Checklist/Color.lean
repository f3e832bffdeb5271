import Checklist.Binary.Arithmetic
import Checklist.Binary.Shortest
import Checklist.Text.Digits

namespace Checklist

/-- Channels of a color that hides what is under it. -/
structure Paint where
  red : UInt8
  green : UInt8
  blue : UInt8
  deriving DecidableEq, Repr

/-- A color with a share of cover, from nothing at zero to all at one. -/
structure Color extends Paint where
  alpha : Binary32
  deriving DecidableEq, Repr

namespace Color

def solid (red green blue : UInt8) : Color :=
  ⟨⟨red, green, blue⟩, .one⟩

def withAlpha (color : Color) (alpha : Binary32) : Color :=
  { color with alpha := alpha.clamp .zero .one }

/-- One channel over another, mixed in single precision. -/
def mix (alpha : Binary32) (front back : UInt8) : UInt8 :=
  (((Binary.ofNat front.toNat).mul alpha).add
    ((Binary.ofNat back.toNat).mul (Binary.one.sub alpha))).toByte

/-- The color painted over `base`, whose own alpha does not count. -/
def onto (color base : Color) : Paint :=
  ⟨mix color.alpha color.red base.red, mix color.alpha color.green base.green,
    mix color.alpha color.blue base.blue⟩

/-- The color as a function of its channels and alpha, which reads back as the same color. -/
def text (color : Color) : Text :=
  "rgb(".toList ++ Text.join ", ".toList
    [Text.decimal color.red.toNat, Text.decimal color.green.toNat, Text.decimal color.blue.toNat,
      color.alpha.text] ++ [')']

/-- Equal channels, and alphas equal in value. -/
def same (a b : Color) : Bool :=
  a.toPaint == b.toPaint && a.alpha.same b.alpha

end Color

end Checklist
