import Checklist.Color

namespace Checklist

/-- How the lines in a state are drawn. -/
structure Style where
  background : Color
  ruler : Color
  opacity : Binary32
  deriving DecidableEq, Repr

namespace Style

def new (background ruler : Color) : Style :=
  ⟨background, ruler, .one⟩

def withOpacity (style : Style) (opacity : Binary32) : Style :=
  { style with opacity := opacity.clamp .zero .one }

/-- Text that is not fully opaque is drawn dim. -/
def isDim (style : Style) : Bool :=
  style.opacity.less .one

end Style

end Checklist
