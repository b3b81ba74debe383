import PullGauge.Number.Scalar

/-!
# Exact scalars

The rationals as scalars: nothing rounds but the rounding itself.
-/

namespace PullGauge.Exact

def roundMagnitude (r step : Rat) : Rat := ((r / step + 1 / 2).floor : Rat) * step

def roundHalfUp (r : Rat) (places : Int) : Rat :=
  let step := Decimal.scaleTen 1 (-places)
  if r < 0 then -roundMagnitude (-r) step else roundMagnitude r step

instance : Scalar Rat where
  ofDouble := Binary64.value
  whole n := (n : Rat)
  ofInt? i := some (i : Rat)
  quotient? a b := some ((a : Rat) / (b : Rat))
  less x y := decide (x < y)
  lessThanInt x i := decide (x < (i : Rat))
  intLessThan i x := decide ((i : Rat) < x)
  isZero x := decide (x = 0)
  ofDecimal := Decimal.value
  roundHalfUp x places := .ok (roundHalfUp x places)

end PullGauge.Exact
