import PullGauge.Text.Basic
import PullGauge.Number.Binary64

/-!
# Decimal numbers

A decimal is a sign, a coefficient and a power of ten. It is rounded to a number of
places with a half going away from zero, as long as the coefficient of the result has
at most twenty-eight digits and the number of places is not beyond all bounds.
-/

namespace PullGauge

structure Decimal where
  negative : Bool
  coefficient : Nat
  exponent : Int
  deriving DecidableEq

namespace Decimal

def precision : Nat := 28

def digitCount (n : Nat) : Nat := (Nat.toDigits 10 n).length

def scaleTen (n : Nat) (e : Int) : Rat :=
  match e with
  | .ofNat k => (n * tenTo k : Nat)
  | .negSucc k => mkRat n (tenTo (k + 1))

def value (d : Decimal) : Rat :=
  let v := scaleTen d.coefficient d.exponent
  if d.negative then -v else v

def roundHalf (num den : Nat) : Nat := (2 * num + den) / (2 * den)

def coefficientAt (d : Decimal) (e : Int) : Nat :=
  match d.exponent - e with
  | .ofNat k => d.coefficient * tenTo k
  | .negSucc k => roundHalf d.coefficient (tenTo (k + 1))

def placesLimit : Nat := 2000054

def exponentLimit : Nat := 999999

def allowsPlaces (places : Int) : Bool :=
  decide (-(exponentLimit : Int) ≤ places) && decide (places ≤ placesLimit)

/-- Rounds to `places` decimals, a half going away from zero; `none` when no rounding may
ask for so many places, or when the result needs more digits than `precision`. Padding
with more zeros than that is refused before the power of ten is computed, and so is
dropping far more digits than there are. -/
def round? (d : Decimal) (places : Int) : Option Decimal :=
  let shift := d.exponent + places
  if !allowsPlaces places then none
  else if d.coefficient = 0 then some ⟨d.negative, 0, -places⟩
  else if shift > precision then none
  else if shift + digitCount d.coefficient < 0 then some ⟨d.negative, 0, -places⟩
  else
    let c := d.coefficientAt (-places)
    if digitCount c ≤ precision then some ⟨d.negative, c, -places⟩ else none

/-- The nearest double; infinite when it is too large. Exponents far beyond the range of
doubles are settled by the number of digits alone. -/
def toDouble (d : Decimal) : Float :=
  let point : Int := d.exponent + digitCount d.coefficient
  if d.coefficient = 0 ∨ point < -400 then Binary64.ofWord d.negative 0
  else if point > 400 then Binary64.ofWord d.negative Binary64.infinityWord
  else
    let word :=
      match d.exponent with
      | .ofNat k => Binary64.nearestWord (d.coefficient * tenTo k) 1
      | .negSucc k => Binary64.nearestWord d.coefficient (tenTo (k + 1))
    Binary64.ofWord d.negative (min word Binary64.infinityWord)

end Decimal

end PullGauge
