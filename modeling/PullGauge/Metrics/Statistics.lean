import PullGauge.Number.Basic
import PullGauge.Record.Basic

/-!
# Statistics

Medians, means, and the hours between two moments. The median of an odd number of values
is the middle one itself; every other result is a quotient.
-/

namespace PullGauge

variable {F : Type} [Scalar F]

def ordered {α : Type} (key : α → Number F) (items : List α) : List α :=
  items.mergeSort fun a b => !(key b).less (key a)

def medianBy {α : Type} (key : α → Number F) (items : List α) : Outcome (Option (α ⊕ F)) :=
  let sorted := ordered key items
  let middle := sorted.length / 2
  if sorted.length % 2 = 1 then .ok (sorted[middle]?.map .inl)
  else match sorted[middle - 1]?, sorted[middle]? with
    | some a, some b => do pure (some (.inr (← (← (key a).add (key b)).divInt 2)))
    | _, _ => .ok none

def median (values : List (Number F)) : Outcome (Option (Number F)) := do
  pure ((← medianBy id values).map fun
    | .inl n => n
    | .inr x => .real x)

def mean (values : List (Number F)) : Outcome (Option F) :=
  if values.isEmpty then .ok none
  else do pure (some (← (← Number.sum values).divInt values.length))

def hoursOf (micros : Int) : Outcome F :=
  match Scalar.quotient? micros Calendar.secondMicros with
  | some seconds => .ok (seconds / Scalar.whole 3600)
  | none => .error .tooLarge

def hoursBetween (start stop : Moment) : Outcome F :=
  match start.gap? stop with
  | some micros => hoursOf micros
  | none => .error .mismatch

/-- The scalar, or zero if there is none or if it is a zero of either sign. -/
def orZero (x : Option F) : F :=
  match x with
  | some x => if Scalar.isZero x then Scalar.whole 0 else x
  | none => Scalar.whole 0

def numberOrZero (n : Option (Number F)) : Number F :=
  match n with
  | some n => if n.isZero then .real (Scalar.whole 0) else n
  | none => .real (Scalar.whole 0)

end PullGauge
