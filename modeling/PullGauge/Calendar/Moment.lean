import PullGauge.Calendar.Date

/-!
# Moments

A date with a time of day in microseconds and, unless it is a local time of nowhere in
particular, its offset from universal time. Two moments compare only if both have an
offset or neither has one; what counts is then the instant.
-/

namespace PullGauge

namespace Calendar

def secondMicros : Nat := 1000000
def dayMicros : Nat := 86400 * secondMicros

end Calendar

open Calendar

structure Moment where
  date : Date
  /-- Microseconds since midnight. -/
  micros : Nat
  /-- Microseconds east of universal time. -/
  offset : Option Int
  inDay : micros < dayMicros
  deriving DecidableEq

namespace Moment

def make? (date : Date) (micros : Nat) (offset : Option Int) : Option Moment :=
  if h : micros < dayMicros then some ⟨date, micros, offset, h⟩ else none

def midnight (date : Date) : Moment := ⟨date, 0, none, by decide⟩

def reading (m : Moment) : Int := m.date.ordinal * dayMicros + m.micros

/-- Microseconds in universal time; the clock face itself where there is no offset. -/
def instant (m : Moment) : Int := m.reading - m.offset.getD 0

def comparable (a b : Moment) : Bool := a.offset.isSome == b.offset.isSome

def gap? (a b : Moment) : Option Int :=
  if a.comparable b then some (b.instant - a.instant) else none

def ofReading? (reading : Int) (offset : Option Int) : Option Moment :=
  (Date.ofOrdinal? (reading / dayMicros)).bind fun date =>
    make? date (reading % dayMicros).toNat offset

def add? (m : Moment) (micros : Int) : Option Moment :=
  ofReading? (m.reading + micros) m.offset

def toUniversal? (m : Moment) : Option Moment :=
  match m.offset with
  | none => some m
  | some offset => ofReading? (m.reading - offset) (some 0)

def pair (n : Nat) : Text := Text.padZeros 2 (Text.ofNat n)

def writeFraction (micros : Nat) : Text :=
  if micros = 0 then [] else '.' :: Text.padZeros 6 (Text.ofNat micros)

def writeTime (micros : Nat) : Text :=
  let seconds := micros / secondMicros
  pair (seconds / 3600) ++ ':' :: pair (seconds / 60 % 60) ++ ':' :: pair (seconds % 60) ++
    writeFraction (micros % secondMicros)

def writeOffset (offset : Int) : Text :=
  let micros := offset.natAbs
  let seconds := micros / secondMicros
  let rest := seconds % 60
  (if offset < 0 then '-' else '+') :: pair (seconds / 3600) ++
    ':' :: pair (seconds / 60 % 60) ++
    (if rest = 0 ∧ micros % secondMicros = 0 then []
     else ':' :: pair rest ++ writeFraction (micros % secondMicros))

def write (m : Moment) : Text :=
  m.date.write ++ 'T' :: writeTime m.micros ++
    (match m.offset with
     | none => []
     | some offset => writeOffset offset)

end Moment

end PullGauge
