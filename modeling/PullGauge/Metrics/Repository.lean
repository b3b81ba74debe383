import PullGauge.Metrics.Statistics

/-!
# Repository insights

How a repository fares since the beginning of a window: how fast pull requests are
merged, how often runs fail, and how long it takes from a failure to the next success.
-/

namespace PullGauge

structure Insights (F : Type) where
  deployments : Nat
  leadTime : F
  failureRate : F
  restoreTime : F
  openIssues : Number F
  openPulls : Nat
  weeklyCommits : List Payload
  contributors : Nat
  health : Payload

namespace Insights

structure Source where
  repository : Payload := .object []
  commits : List Payload := []
  closedPulls : List Payload := []
  openPulls : List Payload := []
  runs : List Payload := []
  activity : List Payload := []
  contributors : List Payload := []
  community : Payload := .object []

variable {F : Type} [Scalar F]

def inWindow (since m : Moment) : Outcome Bool := (m.before since).map fun b => !b

def mergeTime (since : Moment) (pull : Payload) : Outcome (Option (Number F)) := do
  let merged ← timestamp (← pull.field "merged_at")
  let created ← timestamp (← pull.field "created_at")
  match merged, created with
  | some m, some c =>
    if ← inWindow since m then pure (some (.real (← hoursBetween c m))) else pure none
  | _, _ => pure none

def recentRun (since : Moment) (run : Payload) : Outcome (Option (Moment × Payload)) := do
  match ← timestamp (← run.field "created_at") with
  | some m => if ← inWindow since m then pure (some (m, ← run.field "conclusion")) else pure none
  | none => pure none

def runsEnding (word : Text) (runs : List (Moment × Payload)) : List Moment :=
  (runs.filter fun (_, conclusion) => conclusion.isText word).map (·.1)

def nextAfter (failed : Moment) (moments : List Moment) : Outcome (Option Moment) :=
  moments.foldlM (fun earliest m => do
    if ← failed.before m then earlier earliest m else pure earliest) none

def hoursToRestore (successes : List Moment) (failed : Moment) : Outcome (Option (Number F)) := do
  match ← nextAfter failed successes with
  | some m => pure (some (.real (← hoursBetween failed m)))
  | none => pure none

def lastWeek (activity : List Payload) : Outcome (List Payload) :=
  match activity.getLast? with
  | none => .ok []
  | some week => (week.field "days").map fun
    | .list days => days
    | _ => []

/-- The open issues without the open pull requests, which the service counts among them. -/
def issuesWithout (openPulls : Nat) (total : Payload) : Outcome (Number F) :=
  match Number.ofPayload? total with
  | some n => n.sub (.int openPulls)
  | none => .error .mismatch

def ofSource (s : Source) (since : Moment) : Outcome (Insights F) := do
  let leadTimes ← s.closedPulls.mapM (mergeTime since)
  let leadTime := orZero (← mean (F := F) (leadTimes.filterMap id))
  let runs := (← s.runs.mapM (recentRun since)).filterMap id
  let failures := runsEnding "failure" runs
  let successes := runsEnding "success" runs
  let failureRate : F ←
    if runs.isEmpty then pure (Scalar.whole 0)
    else (Number.int failures.length).divInt runs.length
  let restoreTimes ← failures.mapM (hoursToRestore successes)
  let restore := orZero (← mean (F := F) (restoreTimes.filterMap id))
  let weekly ← lastWeek s.activity
  let total ← s.repository.fieldOr "open_issues_count" (.int 0)
  let openIssues ← issuesWithout s.openPulls.length total
  let health ← s.community.field "health_percentage"
  pure {
    deployments := s.commits.length, leadTime, failureRate, restoreTime := restore, openIssues
    openPulls := s.openPulls.length, weeklyCommits := weekly
    contributors := s.contributors.length, health }

end Insights

end PullGauge
