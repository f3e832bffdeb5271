import Checklist.TokenSet

namespace Checklist.TokenSet

/-- The line with its token replaced by the next entry of the rotation. A line that opens with no
entry gets the first one. Indentation and the rest of the line stay. -/
def advance (set : TokenSet) (line : Text) : Text :=
  let body := Text.body line
  match set.rotationPrefix body with
  | some place =>
    Text.indent line ++ set.entry (place + 1) ++ body.drop (set.entry place).length
  | none => Text.indent line ++ set.entry 0 ++ body

end Checklist.TokenSet
