import PullGauge.Number.Shortest

/-!
# How a double is written

The shortest digits, positional while the point stands within sixteen digits after the
first one and at most three zeros before it, with a fraction of at least one digit; else
one digit before the point, and an exponent with a sign and at least two digits.
-/

namespace PullGauge

structure NumberStyle where
  /-- Positional notation ends above this place of the point. -/
  largestPoint : Int
  smallestPoint : Int
  exponentWidth : Nat
  keepsFraction : Bool
  notANumber : Text
  infinite : Text

namespace NumberStyle

def plain : NumberStyle where
  largestPoint := 16
  smallestPoint := -4
  exponentWidth := 2
  keepsFraction := true
  notANumber := "nan"
  infinite := "inf"

def positional (style : NumberStyle) (digits : Text) (point : Int) : Text :=
  if point ≤ 0 then
    '0' :: '.' :: List.replicate (-point).toNat '0' ++ digits
  else
    let n := point.toNat
    if digits.length ≤ n then
      digits ++ List.replicate (n - digits.length) '0' ++
        (if style.keepsFraction then ['.', '0'] else [])
    else digits.take n ++ '.' :: digits.drop n

def scientific (style : NumberStyle) (digits : Text) (point : Int) : Text :=
  let e := point - 1
  let fraction := match digits.drop 1 with
    | [] => []
    | more => '.' :: more
  digits.take 1 ++ fraction ++ 'e' :: (if e < 0 then '-' else '+') ::
    Text.padZeros style.exponentWidth (Text.ofNat e.natAbs)

def writeDecimal (style : NumberStyle) (d : Decimal) : Text :=
  let digits := Text.ofNat d.coefficient
  let point : Int := d.exponent + digits.length
  let body :=
    if d.coefficient = 0 then style.positional digits 1
    else if style.smallestPoint < point ∧ point ≤ style.largestPoint then
      style.positional digits point
    else style.scientific digits point
  if d.negative then '-' :: body else body

def write (style : NumberStyle) (x : Float) : Text :=
  if Binary64.isNaN x then style.notANumber
  else if Binary64.isFinite x then style.writeDecimal (Shortest.decimal x)
  else if Binary64.isNegative x then '-' :: style.infinite
  else style.infinite

end NumberStyle

def writeFixed (places : Nat) (x : Float) : Text :=
  if Binary64.isNaN x then NumberStyle.plain.notANumber
  else
    let body :=
      if Binary64.isFinite x then
        let p := Binary64.parts x
        let n := Binary64.roundScaled (p.mantissa * tenTo places) 1 (-p.exponent)
        let digits := Text.padZeros (places + 1) (Text.ofNat n)
        let whole := digits.length - places
        if places = 0 then digits else digits.take whole ++ '.' :: digits.drop whole
      else NumberStyle.plain.infinite
    if Binary64.isNegative x then '-' :: body else body

end PullGauge
