import Mathlib.Data.Finset.Union
import Mathlib.Order.Interval.Finset.Nat
import Checklist.Proofs.Effects

namespace Checklist
open Machine Text

namespace LineRange

end LineRange

namespace Session

variable {engine : Engine} {machine : Machine} {config : Config} {file : Path}
  {ranges : List LineRange} {set : TokenSet} {t : Text}

end Session

end Checklist
