import PullGauge.Text.Basic

/-!
# Calendar dates

Dates of the years 1 to 9999 in the Gregorian calendar, carried back before its
introduction. A date is numbered by the days since the last day before year 1, so that
moving by days is addition, and a number in range is the number of exactly one date.
-/

namespace PullGauge

namespace Calendar

def isLeap (year : Nat) : Bool :=
  year % 4 == 0 && (year % 100 != 0 || year % 400 == 0)

def monthLength (year month : Nat) : Nat :=
  if month = 2 then (if isLeap year then 29 else 28)
  else if month = 4 ∨ month = 6 ∨ month = 9 ∨ month = 11 then 30
  else 31

def daysBeforeYear (year : Nat) : Nat :=
  let y := year - 1
  y * 365 + y / 4 - y / 100 + y / 400

def daysBeforeMonth (year month : Nat) : Nat :=
  (List.range' 1 (month - 1)).foldl (fun days m => days + monthLength year m) 0

def firstYear : Nat := 1
def lastYear : Nat := 9999

def lastOrdinal : Nat := daysBeforeYear (lastYear + 1)

def IsDate (year month day : Nat) : Prop :=
  (firstYear ≤ year ∧ year ≤ lastYear) ∧ (1 ≤ month ∧ month ≤ 12) ∧
    1 ≤ day ∧ day ≤ monthLength year month

instance (year month day : Nat) : Decidable (IsDate year month day) :=
  inferInstanceAs (Decidable ((_ ∧ _) ∧ (_ ∧ _) ∧ _ ∧ _))

end Calendar

open Calendar

structure Date where
  year : Nat
  month : Nat
  day : Nat
  isDate : IsDate year month day
  deriving DecidableEq

namespace Date

def make? (year month day : Nat) : Option Date :=
  if h : IsDate year month day then some ⟨year, month, day, h⟩ else none

/-- The days from the last day before year 1. -/
def ordinal (d : Date) : Nat :=
  daysBeforeYear d.year + daysBeforeMonth d.year d.month + d.day

/-- The year that holds the day with this number; the mean length of a year puts the
guess at most one year off. -/
def yearOf (n : Nat) : Nat :=
  let guess := (n - 1) * 400 / 146097 + 1
  if n ≤ daysBeforeYear guess then guess - 1
  else if daysBeforeYear (guess + 1) < n then guess + 1
  else guess

def monthOf (year : Nat) : List Nat → Nat → Option (Nat × Nat)
  | [], _ => none
  | m :: months, rest =>
    if rest ≤ monthLength year m then some (m, rest)
    else monthOf year months (rest - monthLength year m)

def ofOrdinal? (n : Int) : Option Date :=
  if 1 ≤ n ∧ n ≤ lastOrdinal then
    let year := yearOf n.toNat
    (monthOf year (List.range' 1 12) (n.toNat - daysBeforeYear year)).bind
      fun (month, day) => make? year month day
  else none

def addDays? (d : Date) (days : Int) : Option Date := ofOrdinal? (d.ordinal + days)

def write (d : Date) : Text :=
  Text.padZeros 4 (Text.ofNat d.year) ++ '-' :: Text.padZeros 2 (Text.ofNat d.month) ++
    '-' :: Text.padZeros 2 (Text.ofNat d.day)

def weekday (n : Nat) : Nat := (n + 6) % 7

/-- The number of the Monday that begins the first week of a year: the week that holds
the year's first Thursday. -/
def firstMonday (year : Nat) : Int :=
  let first : Nat := daysBeforeYear year + 1
  let monday : Int := first - (weekday first : Nat)
  if weekday first > 3 then monday + 7 else monday

def hasLongCount (year : Nat) : Bool :=
  let first := weekday (daysBeforeYear year + 1)
  first == 3 || (first == 2 && isLeap year)

def ofWeek? (year week day : Nat) : Option Date :=
  if firstYear ≤ year ∧ 1 ≤ week ∧ (week ≤ 52 ∨ week = 53 ∧ hasLongCount year = true)
      ∧ 1 ≤ day ∧ day ≤ 7 then
    ofOrdinal? (firstMonday year + ((week - 1) * 7 + (day - 1) : Nat))
  else none

end Date

end PullGauge
