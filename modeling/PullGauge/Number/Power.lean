/-!
# Powers

The powers of two and of ten by which binary and decimal numbers are scaled.
-/

namespace PullGauge

abbrev twoTo (k : Nat) : Nat := Nat.pow 2 k

abbrev tenTo (k : Nat) : Nat := Nat.pow 10 k

end PullGauge
