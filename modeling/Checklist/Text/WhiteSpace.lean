import Checklist.Text.CodeRanges

namespace Checklist.Text

/-- Unicode `White_Space`. -/
def whiteSpace : CodeRanges := [
  (0x0009, 0x000d), (0x0020, 0x0020), (0x0085, 0x0085), (0x00a0, 0x00a0), (0x1680, 0x1680),
  (0x2000, 0x200a), (0x2028, 0x2029), (0x202f, 0x202f), (0x205f, 0x205f), (0x3000, 0x3000)]

end Checklist.Text
