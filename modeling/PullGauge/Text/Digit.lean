import PullGauge.Text.Basic

/-!
# Decimal digits

A decimal digit of any script: the ten digits of a script stand side by side, from
zero to nine, so the table holds the code point of each zero.
-/

namespace PullGauge.Text

def zeroDigits : List Nat := [
  48, 1632, 1776, 1984, 2406, 2534, 2662, 2790, 2918, 3046, 3174, 3302, 3430, 3558, 3664, 3792,
  3872, 4160, 4240, 6112, 6160, 6470, 6608, 6784, 6800, 6992, 7088, 7232, 7248, 42528, 43216,
  43264, 43472, 43504, 43600, 44016, 65296, 66720, 68912, 69734, 69872, 69942, 70096, 70384,
  70736, 70864, 71248, 71360, 71472, 71904, 72016, 72784, 73040, 73120, 92768, 92864, 93008,
  120782, 120792, 120802, 120812, 120822, 123200, 123632, 125264, 130032]

def digitIn (n : Nat) : List Nat → Option Nat
  | [] => none
  | z :: rows => if n < z then none else if n < z + 10 then some (n - z) else digitIn n rows

def digitValue? (c : Char) : Option Nat := digitIn c.toNat zeroDigits

def isDigit (c : Char) : Bool := (digitValue? c).isSome

def asciiDigit? (c : Char) : Option Nat :=
  if '0' ≤ c ∧ c ≤ '9' then some (c.toNat - 48) else none

def digitsValue (t : Text) : Nat :=
  t.foldl (fun n c => 10 * n + (digitValue? c).getD 0) 0

end PullGauge.Text
