import Checklist.Binary.Shortest
import Checklist.Text.Digits
import Checklist.Text.Quoted

namespace Checklist.Toml

/-- A value of a TOML document. The entries of a table stand in the order of their first mention. -/
inductive Value
  | string (text : Text)
  | integer (value : Int)
  | float (value : Binary64)
  | boolean (value : Bool)
  | date
  | array (items : List Value)
  | table (entries : List (Text × Value))

/-- A number as TOML and its messages write it: whole numbers keep a zero after the point. -/
def pointed (x : Binary64) : Text :=
  match x with
  | .nan => x.text
  | .number _ rank =>
    if rank = BinaryFormat.top .binary64 || x.text.contains '.' then x.text
    else x.text ++ ".0".toList

def signed (i : Int) : Text :=
  if i < 0 then '-' :: Text.decimal i.natAbs else Text.decimal i.natAbs

/-- What a message calls a value. A date passes for a table. -/
def Value.description : Value → Text
  | string text => "string ".toList ++ text.quoted
  | integer value => "integer `".toList ++ signed value ++ "`".toList
  | float value => "floating point `".toList ++ pointed value ++ "`".toList
  | boolean value => (if value then "boolean `true`" else "boolean `false`").toList
  | date => "map".toList
  | array _ => "sequence".toList
  | table _ => "map".toList

end Checklist.Toml
