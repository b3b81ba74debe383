import PullGauge.Metrics.Statistics

/-!
# Summaries

What a set of records has in common: how many, how many merged and open, how long they
took from the first commit to the end and from publication to the first review, and how
many have been open for more than a week.
-/

namespace PullGauge

structure Summary (F : Type) where
  count : Nat
  merged : Nat
  opened : Nat
  medianLead : Option F
  meanLead : Option F
  medianReview : Option F
  meanReview : Option F
  staleOpen : Nat

namespace Summary

def staleAfter : Int := 7 * Calendar.dayMicros

def isFinished (r : Record) : Bool := r.closed.isSome && decide (r.state ≠ .opened)

def isOpen (r : Record) : Bool := decide (r.state = .opened)

def isStale (now : Moment) (r : Record) : Outcome Bool :=
  match r.created with
  | none => .ok false
  | some created =>
    match created.gap? now with
    | some age => .ok (decide (staleAfter < age))
    | none => .error .mismatch

variable {F : Type} [Scalar F]

def hoursOfRecords (start stop : Record → Option Moment) (records : List Record) :
    Outcome (List (Number F)) :=
  (records.filterMap fun r => (start r).bind fun a => (stop r).map fun b => (a, b)).mapM
    fun (a, b) => (hoursBetween a b).map Number.real

def rounded (n : Option (Number F)) : Outcome (Option F) := n.mapM (Number.roundHalfUp 1)

def countStale (now : Moment) (records : List Record) : Outcome Nat := do
  let stale ← records.mapM (isStale now)
  pure (stale.count true)

end Summary

open Summary in
def summarize {F : Type} [Scalar F] (records : List Record) (now : Moment) :
    Outcome (Option (Summary F)) :=
  if records.isEmpty then .ok none
  else do
    let finished := records.filter isFinished
    let opened := records.filter isOpen
    let lead ← hoursOfRecords Record.firstCommit Record.closed finished
    let review ← hoursOfRecords Record.published Record.firstReview records
    let stale ← countStale now opened
    let medianLead ← rounded (← median lead)
    let meanLead ← rounded ((← mean lead).map Number.real)
    let medianReview ← rounded (← median review)
    let meanReview ← rounded ((← mean review).map Number.real)
    pure (some {
      count := records.length, merged := finished.length, opened := opened.length
      medianLead := medianLead, meanLead := meanLead
      medianReview := medianReview, meanReview := meanReview
      staleOpen := stale })

end PullGauge
