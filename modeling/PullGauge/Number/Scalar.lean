import PullGauge.Number.Shortest
import PullGauge.Fault

/-!
# Scalars

The arithmetic that measurements are made with. A program runs on doubles, where every
operation rounds; the same definitions over the rationals say what they compute exactly.
Rounding half up starts from the printed decimal of a double, and from the value itself
of a rational.
-/

namespace PullGauge

class Scalar (F : Type) extends Add F, Sub F, Mul F, Div F where
  ofDouble : Float → F
  whole : Nat → F
  ofInt? : Int → Option F
  quotient? : Int → Int → Option F
  less : F → F → Bool
  lessThanInt : F → Int → Bool
  intLessThan : Int → F → Bool
  isZero : F → Bool
  ofDecimal : Decimal → F
  roundHalfUp : F → Int → Outcome F

namespace Decimal

def ofInt (i : Int) : Decimal := ⟨decide (i < 0), i.natAbs, 0⟩

def round (d : Decimal) (places : Int) : Outcome Decimal :=
  match d.round? places with
  | some r => .ok r
  | none => .error .tooPrecise

end Decimal

namespace Binary64

def lessThanInt (x : Float) (i : Int) : Bool :=
  if isNaN x then false
  else if isFinite x then decide (value x < i)
  else isNegative x

def intLessThan (i : Int) (x : Float) : Bool :=
  if isNaN x then false
  else if isFinite x then decide ((i : Rat) < value x)
  else !isNegative x

def roundHalfUp (x : Float) (places : Int) : Outcome Float :=
  if isNaN x then if Decimal.allowsPlaces places then .ok x else .error .tooPrecise
  else if isFinite x then ((Shortest.decimal x).round places).map Decimal.toDouble
  else .error .tooPrecise

end Binary64

instance : Scalar Float where
  ofDouble := id
  whole n := (Binary64.ofInt? n).getD Binary64.infinity
  ofInt? := Binary64.ofInt?
  quotient? := Binary64.quotient?
  less x y := decide (x < y)
  lessThanInt := Binary64.lessThanInt
  intLessThan := Binary64.intLessThan
  isZero x := Binary64.magnitude x == 0
  ofDecimal := Decimal.toDouble
  roundHalfUp := Binary64.roundHalfUp

end PullGauge
