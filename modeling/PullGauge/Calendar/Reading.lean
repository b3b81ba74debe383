import PullGauge.Calendar.Moment
import PullGauge.Text.Digit
import PullGauge.Text.Utf8
import PullGauge.Number.Power

/-!
# Reading dates and moments

A date is written with or without hyphens, by month and day or by week and weekday. A
moment is a date, any one character, and a time with or without colons, a fraction cut
after six digits, and an offset. The end of a text reads as the null character.
-/

namespace PullGauge

open Calendar

namespace Reading

def endMark : Char := '\x00'

def digits : Nat → Text → Option (Nat × Text) := go 0
where
  go (value : Nat) : Nat → Text → Option (Nat × Text)
    | 0, t => some (value, t)
    | _ + 1, [] => none
    | n + 1, c :: r => (Text.asciiDigit? c).bind fun d => go (10 * value + d) n r

def hyphen (separated : Bool) : Text → Option Text
  | '-' :: r => some (if separated then r else '-' :: r)
  | t => if separated then none else some t

def dateAtHead (t : Text) : Option Date := do
  let (year, t) ← digits 4 t
  let separated := t.head? == some '-'
  let t := if separated then t.drop 1 else t
  match t with
  | 'W' :: t =>
    let (week, t) ← digits 2 t
    if t.isEmpty then Date.ofWeek? year week 1
    else
      let t ← hyphen separated t
      let (day, _) ← digits 1 t
      Date.ofWeek? year week day
  | t =>
    let (month, t) ← digits 2 t
    let t ← hyphen separated t
    let (day, _) ← digits 2 t
    Date.make? year month day

def dateSizes : List Nat := [7, 8, 10]

end Reading

def Date.read? (t : Text) : Option Date :=
  if Reading.dateSizes.contains (Text.Utf8.size t) then Reading.dateAtHead t else none

namespace Reading

def isAsciiDigitAt (t : Text) (i : Nat) : Bool := ((t[i]?).bind Text.asciiDigit?).isSome

/-- Where the date of a moment ends, by its fifth and sixth characters. A week date is
ambiguous: after eight characters and a hyphen, digits are taken for a time; without
hyphens, an odd number of digits includes the weekday. -/
def dateLength (t : Text) : Option Nat :=
  let size := Text.Utf8.size t
  if size = 7 then some 7
  else if t[4]? = some '-' then
    if t[5]? = some 'W' then
      if size < 8 then none
      else if t[8]? = some '-' then
        if size = 9 then none
        else if isAsciiDigitAt t 10 then some 8 else some 10
      else some 8
    else some 10
  else if t[4]? = some 'W' then
    let run := 7 + ((t.drop 7).takeWhile fun c => (Text.asciiDigit? c).isSome).length
    if run < 9 then some run else if run % 2 = 0 then some 7 else some 8
  else some 8

structure Clock where
  hour : Nat
  minute : Nat
  second : Nat
  micros : Nat

abbrev ClockRead := Clock × Bool

def fraction (next : Char) (clock : Clock) (t : Text) : Option ClockRead := do
  let n := min 6 t.length
  let (value, rest) ← digits n t
  let rest := rest.dropWhile fun c => (Text.asciiDigit? c).isSome
  some ({ clock with micros := value * tenTo (6 - n) }, rest.headD next != endMark)

def Clock.put (clock : Clock) (value : Nat) : Nat → Clock
  | 3 => { clock with hour := value }
  | 2 => { clock with minute := value }
  | _ => { clock with second := value }

/-- Up to three fields of two digits, either all separated by colons or none, and a
fraction after a point, a comma or the last field. A single ASCII character at the end of
the text is left over, whatever it is. -/
def clockFields (next : Char) (separated : Bool) (clock : Clock) : Nat → Text → Option ClockRead
  | 0, t => fraction next clock t
  | left + 1, t =>
    match digits 2 t with
    | none => none
    | some (value, rest) =>
      let clock := clock.put value (left + 1)
      match rest with
      | [] => some (clock, next != endMark)
      | [c] => if c.toNat < 128 then some (clock, c != endMark) else none
      | c :: more =>
        let separated := if left = 2 then c == ':' else separated
        if separated && c == ':' then clockFields next separated clock left more
        else if c == '.' || c == ',' then fraction next clock more
        else if separated then none
        else clockFields next separated clock left (c :: more)

def clock (next : Char) (t : Text) : Option ClockRead :=
  clockFields next false ⟨0, 0, 0, 0⟩ 3 t

def isOffsetMark (c : Char) : Bool := c == '+' || c == '-' || c == 'Z'

def Clock.seconds (c : Clock) : Nat := c.hour * 3600 + c.minute * 60 + c.second

def offset (negative : Bool) (t : Text) : Option Int := do
  let (clock, leftOver) ← clock endMark t
  let micros := clock.seconds * secondMicros + clock.micros
  if leftOver || decide (dayMicros ≤ micros) then none
  else if clock.seconds = 0 then some 0
  else some (if negative then -(micros : Int) else micros)

def time (t : Text) : Option (Clock × Option Int) := do
  let face := t.takeWhile fun c => !isOffsetMark c
  match t.drop face.length with
  | [] =>
    let (clock, leftOver) ← clock endMark face
    if leftOver then none else some (clock, none)
  | mark :: rest =>
    let (clock, _) ← clock mark face
    if mark = 'Z' then
      if rest.headD endMark = endMark then some (clock, some 0) else none
    else some (clock, some (← offset (mark == '-') rest))

def Clock.micros? (c : Clock) : Option Nat :=
  if c.hour < 24 ∧ c.minute < 60 ∧ c.second < 60 then
    some (c.seconds * secondMicros + c.micros)
  else none

end Reading

def Moment.read? (t : Text) : Option Moment := do
  if Text.Utf8.size t < 7 then none
  let n ← Reading.dateLength t
  let date ← Reading.dateAtHead (t.take n)
  match t.drop n with
  | [] => some (Moment.midnight date)
  | _ :: rest =>
    let (clock, offset) ← Reading.time rest
    Moment.make? date (← clock.micros?) offset

end PullGauge
