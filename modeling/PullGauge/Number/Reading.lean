import PullGauge.Text.Blank
import PullGauge.Text.Digit
import PullGauge.Number.Decimal

/-!
# Reading written numbers

A number may stand between blanks and carry a sign. Its digits may be of any script and
a single low line may stand between two of them. An integer has at most 4300 digits.
-/

namespace PullGauge.Reading

def digitLimit : Nat := 4300

/-- A run of digits in which single low lines may separate digits, with what follows;
`inside` says that a digit stands just before. A low line that no digit follows is left
standing. -/
def digitRunFrom (inside : Bool) : Text → Text × Text
  | [] => ([], [])
  | c :: r =>
    if Text.isDigit c then
      let (digits, rest) := digitRunFrom true r
      (c :: digits, rest)
    else if inside && c == '_' && r.head?.any Text.isDigit then digitRunFrom false r
    else ([], c :: r)

def digitRun (t : Text) : Text × Text := digitRunFrom false t

def sign : Text → Bool × Text
  | '-' :: r => (true, r)
  | '+' :: r => (false, r)
  | t => (false, t)

def signed (negative : Bool) (n : Nat) : Int := if negative then -(n : Int) else n

def integer? (t : Text) : Option Int :=
  let (negative, body) := sign (Text.trimBy Text.isNumberBlank t)
  match digitRun body with
  | ([], _) => none
  | (digits, []) =>
    if digits.length ≤ digitLimit then some (signed negative (Text.digitsValue digits)) else none
  | _ => none

def exponent? : Text → Option Int
  | [] => some 0
  | c :: r =>
    if c = 'e' ∨ c = 'E' then
      let (negative, body) := sign r
      match digitRun body with
      | ([], _) => none
      | (digits, []) => some (signed negative (Text.digitsValue digits))
      | _ => none
    else none

def decimal? (negative : Bool) (t : Text) : Option Decimal :=
  let (whole, rest) := digitRun t
  let (fraction, rest) := match rest with
    | '.' :: more => digitRun more
    | _ => ([], rest)
  if whole.isEmpty && fraction.isEmpty then none
  else (exponent? rest).map fun e =>
    ⟨negative, Text.digitsValue (whole ++ fraction), e - fraction.length⟩

def asciiLower (t : Text) : Text :=
  t.map fun c => if 'A' ≤ c ∧ c ≤ 'Z' then Char.ofNat (c.toNat + 32) else c

def double? (t : Text) : Option Float :=
  let (negative, body) := sign (Text.trimBy Text.isNumberBlank t)
  let word := asciiLower body
  if word = "inf".toList ∨ word = "infinity".toList then
    some (if negative then Binary64.negativeInfinity else Binary64.infinity)
  else if word = "nan".toList then some Binary64.notANumber
  else (decimal? negative body).map Decimal.toDouble

end PullGauge.Reading
