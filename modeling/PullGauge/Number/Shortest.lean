import PullGauge.Number.Decimal

/-!
# The shortest decimal of a double

Among the decimals that read back as a given double, the one with the fewest digits,
and of those the nearest. The reals that round to `m · 2 ^ q` form an interval around
it, whose ends belong to it exactly when `m` is even; a grid of `n` digits has a point
in the interval only if one of the two neighbours of the double on that grid lies in it.
-/

namespace PullGauge.Shortest

structure Interval where
  low : Rat
  centre : Rat
  high : Rat
  closed : Bool

/-- The interval of a positive finite double. Below a power of two the neighbour is only
half as far away. -/
def interval (x : Float) : Interval :=
  let p := Binary64.parts x
  let q := p.exponent - 2
  let below := if p.mantissa = twoTo 52 ∧ p.exponent > -1074 then 1 else 2
  { low := Binary64.scaleTwo (4 * p.mantissa - below) q
    centre := Binary64.scaleTwo (4 * p.mantissa) q
    high := Binary64.scaleTwo (4 * p.mantissa + 2) q
    closed := p.mantissa % 2 == 0 }

def Interval.holds (i : Interval) (r : Rat) : Bool :=
  if i.closed then decide (i.low ≤ r) && decide (r ≤ i.high)
  else decide (i.low < r) && decide (r < i.high)

def point (r : Rat) : Int :=
  let num := r.num.natAbs
  if r.den ≤ num then Decimal.digitCount (num / r.den)
  else 1 - Decimal.digitCount ((r.den - 1) / num)

/-- The neighbour of the centre on the grid of step `10 ^ e` that lies in the interval,
the nearer one if both do, the even one if both are as near. -/
def onGrid? (i : Interval) (e : Int) : Option Nat :=
  let down := (i.centre / Decimal.scaleTen 1 e).floor.toNat
  let up := down + 1
  let low := Decimal.scaleTen down e
  let high := Decimal.scaleTen up e
  match i.holds low, i.holds high with
  | false, false => none
  | true, false => some down
  | false, true => some up
  | true, true =>
    let left := i.centre - low
    let right := high - i.centre
    if left < right then some down
    else if right < left then some up
    else some (if down % 2 = 0 then down else up)

def search (i : Interval) (point : Int) : Nat → Nat → Nat × Int
  | 0, n => ((i.centre / Decimal.scaleTen 1 (point - n)).floor.toNat, point - n)
  | fuel + 1, n =>
    match onGrid? i (point - n) with
    | some c => (c, point - n)
    | none => search i point fuel (n + 1)

def stripZeros : Nat → Nat → Int → Nat × Int
  | 0, c, e => (c, e)
  | fuel + 1, c, e =>
    if c ≠ 0 ∧ c % 10 = 0 then stripZeros fuel (c / 10) (e + 1) else (c, e)

def decimal (x : Float) : Decimal :=
  if Binary64.magnitude x = 0 then ⟨Binary64.isNegative x, 0, 0⟩
  else
    let i := interval x
    let (c, e) := search i (point i.centre) 17 1
    let (c, e) := stripZeros 17 c e
    ⟨Binary64.isNegative x, c, e⟩

end PullGauge.Shortest
