import Checklist.Text
import Checklist.Text.WhiteSpace

namespace Checklist.Text

def isWhite (c : Char) : Bool :=
  whiteSpace.covers c

def trimStart (t : Text) : Text :=
  t.dropWhile isWhite

def trim (t : Text) : Text :=
  (trimStart (trimStart t).reverse).reverse

end Checklist.Text
