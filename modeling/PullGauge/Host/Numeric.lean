import PullGauge.Text.Basic
import PullGauge.Text.Digit
import PullGauge.Text.Hex

/-!
# Numeric hosts

A host may be given by numbers: four octets in decimal digits, or eight groups in
hexadecimal digits of which a run of zeros is left out.
-/

namespace PullGauge.Host

def isAsciiDigit (c : Char) : Bool := (Text.asciiDigit? c).isSome

/-- Whether a text looks like four numbers: four runs of digits with a character between
them. That character may be a digit as well, so a long run can be more than one. -/
def looksNumeric (t : Text) : Bool :=
  let runs := Text.cut '.' (t.map fun c => if isAsciiDigit c then c else '.')
  runs.all (fun run => !run.isEmpty) && decide (runs.length ≤ 4) &&
    decide (4 ≤ runs.foldl (fun n run => n + (run.length + 1) / 2) 0)

def isOctet (t : Text) : Bool :=
  !t.isEmpty && t.all isAsciiDigit && decide (t.length ≤ 3) &&
    (t == ['0'] || t.head? != some '0') && decide (Text.digitsValue t ≤ 255)

def isQuad (t : Text) : Bool :=
  let octets := Text.cut '.' t
  octets.length == 4 && octets.all isOctet

def isGroup (t : Text) : Bool :=
  !t.isEmpty && t.all (fun c => (Text.hexValue? c).isSome) && decide (t.length ≤ 4)

def spellQuad (groups : List Text) : List Text :=
  match groups.getLast? with
  | some last =>
    if last.contains '.' && isQuad last then groups.dropLast ++ [['0'], ['0']] else groups
  | none => groups

def besideGap? (groups : List Text) : Option Nat :=
  if groups == [[]] then some 0
  else if groups.all isGroup then some groups.length
  else none

def isGroups (t : Text) : Bool :=
  let groups := spellQuad (Text.cut ':' t)
  match (groups.drop 1).dropLast.findIdx? List.isEmpty with
  | none => groups.length == 8 && groups.all isGroup
  | some i =>
    match besideGap? (groups.take (i + 1)), besideGap? (groups.drop (i + 2)) with
    | some before, some after => decide (before + after ≤ 7)
    | _, _ => false

def isZoned (t : Text) : Bool :=
  match Text.splitAtFirst ['%'] t with
  | some (groups, zone) => isGroups groups && !zone.isEmpty && !zone.contains '%'
  | none => isGroups t

end PullGauge.Host
