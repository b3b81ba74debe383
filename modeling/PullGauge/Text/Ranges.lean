/-!
# Sets of characters given by ranges

A property of characters beyond ASCII is a list of closed ranges of code points
in increasing order.
-/

namespace PullGauge.Text

abbrev Range := Nat × Nat

/-- Whether the code point lies in one of the ranges; the rows increase, so the
search stops at the first row that begins beyond it. -/
def inRanges (n : Nat) : List Range → Bool
  | [] => false
  | r :: rows => if n < r.1 then false else if n ≤ r.2 then true else inRanges n rows

end PullGauge.Text
