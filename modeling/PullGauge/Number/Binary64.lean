import PullGauge.Number.Power

/-!
# Double-precision numbers as words

A finite double is `m · 2 ^ q` with a sign. Reading its parts and rounding an exact
quotient to the nearest double, a tie to the even one, are both exact arithmetic on
natural numbers: for a mantissa `m` at exponent `q` the word of the magnitude is
`(q + 1074) · 2 ^ 52 + m`, for normal and subnormal numbers alike, and a mantissa that
rounds up to `2 ^ 53` carries into the next exponent by itself.
-/

namespace PullGauge.Binary64

def infinityWord : Nat := 0x7ff0000000000000

def signWord : Nat := 0x8000000000000000

def magnitude (x : Float) : Nat := x.toBits.toNat % signWord

def isNegative (x : Float) : Bool := decide (signWord ≤ x.toBits.toNat)

def isFinite (x : Float) : Bool := decide (magnitude x < infinityWord)

def isNaN (x : Float) : Bool := decide (infinityWord < magnitude x)

def infinity : Float := Float.ofBits 0x7ff0000000000000

def negativeInfinity : Float := Float.ofBits 0xfff0000000000000

def notANumber : Float := Float.ofBits 0x7ff8000000000000

def ofWord (negative : Bool) (word : Nat) : Float :=
  Float.ofBits (UInt64.ofNat (if negative then signWord + word else word))

structure Parts where
  mantissa : Nat
  exponent : Int
  deriving DecidableEq

def parts (x : Float) : Parts :=
  let field : Nat := magnitude x / twoTo 52
  let fraction : Nat := magnitude x % twoTo 52
  if field = 0 then ⟨fraction, -1074⟩ else ⟨fraction + twoTo 52, (field : Int) - 1075⟩

def roundEven (num den : Nat) : Nat :=
  let q := num / den
  let r := num % den
  if 2 * r < den then q else if den < 2 * r then q + 1 else q + q % 2

def roundScaled (num den : Nat) (e : Int) : Nat :=
  match e with
  | .ofNat k => roundEven num (den * twoTo k)
  | .negSucc k => roundEven (num * twoTo (k + 1)) den

def reaches (num den : Nat) (e : Int) : Bool :=
  match e with
  | .ofNat k => decide (den * twoTo k ≤ num)
  | .negSucc k => decide (den ≤ num * twoTo (k + 1))

def leading (num den : Nat) : Int :=
  let e : Int := num.log2 - den.log2
  if reaches num den e then e else e - 1

/-- The magnitude word of the double nearest to `num / den`; a word at or beyond
`infinityWord` means that the quotient is too large. -/
def nearestWord (num den : Nat) : Nat :=
  if num = 0 then 0
  else
    let e := max (leading num den - 52) (-1074)
    (e + 1074).toNat * twoTo 52 + roundScaled num den e

def nearest? (negative : Bool) (num den : Nat) : Option Float :=
  let word := nearestWord num den
  if word < infinityWord then some (ofWord negative word) else none

def ofInt? (n : Int) : Option Float := nearest? (decide (n < 0)) n.natAbs 1

def quotient? (a b : Int) : Option Float :=
  nearest? (decide (a < 0) != decide (b < 0)) a.natAbs b.natAbs

def scaleTwo (m : Nat) (e : Int) : Rat :=
  match e with
  | .ofNat k => (m * twoTo k : Nat)
  | .negSucc k => mkRat m (twoTo (k + 1))

def value (x : Float) : Rat :=
  let p := parts x
  let v := scaleTwo p.mantissa p.exponent
  if isNegative x then -v else v

end PullGauge.Binary64
