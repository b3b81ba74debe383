import PullGauge.Payload.Access
import PullGauge.Calendar.Reading

/-!
# Records of pull requests

One coherent record of a pull request: who, where, in what state, and when each stage of
its life was reached. What the service says about it is kept as it came; the times and the
state are derived.
-/

namespace PullGauge

structure TimelineEntry where
  label : Text
  date : Moment
  deriving DecidableEq

/-- The state of a pull request. The service knows four; a record that is made by hand may
have another one. -/
inductive RecordState where
  | opened
  | closed
  | merged
  | draft
  | other (word : Text)
  deriving DecidableEq

def RecordState.word : RecordState → Text
  | .opened => "open"
  | .closed => "closed"
  | .merged => "merged"
  | .draft => "draft"
  | .other word => word

def RecordState.ofWord (t : Text) : RecordState :=
  ([opened, closed, merged, draft].find? fun s => s.word == t).getD (.other t)

structure Record where
  id : Payload
  owner : Text
  name : Text
  repository : Text
  number : Payload
  title : Payload
  url : Payload
  author : Payload
  state : RecordState
  created : Option Moment
  published : Option Moment
  closed : Option Moment
  firstReview : Option Moment
  firstCommit : Option Moment
  reviewers : List Payload
  changesRequested : Nat
  additions : Payload
  deletions : Payload
  comments : Payload
  timeline : List TimelineEntry

/-- The moment that a timestamp writes; a trailing or inner `Z` stands for universal time,
and a timestamp that is not present is no moment. -/
def timestamp (p : Payload) : Outcome (Option Moment) :=
  if p.isPresent then do
    let t ← p.asText "replace"
    match Moment.read? (Text.replaceChar 'Z' "+00:00" t) with
    | some m => pure (some m)
    | none => .error .unreadable
  else pure none

def Moment.before (a b : Moment) : Outcome Bool :=
  match a.gap? b with
  | some gap => .ok (decide (0 < gap))
  | none => .error .mismatch

/-- The earlier of a candidate and the earliest moment so far, which wins a tie. -/
def earlier (earliest : Option Moment) (candidate : Moment) : Outcome (Option Moment) :=
  match earliest with
  | none => .ok (some candidate)
  | some m => do pure (some (if ← candidate.before m then candidate else m))

def repositoryOf (url : Text) : Outcome (Text × Text) :=
  match (Text.cut '/' (Text.dropTrailing (· == '/') url)).reverse with
  | name :: owner :: _ =>
    if owner.isEmpty || name.isEmpty then .error (.notARepository url) else .ok (owner, name)
  | _ => .error (.notARepository url)

/-- The state that a detail shows: a draft is a draft whatever else it is, and a merged
pull request is merged before it is closed. -/
def stateOf (detail : Payload) : Outcome RecordState := do
  if (← detail.field "isDraft").isPresent then pure .draft
  else if (← detail.field "mergedAt").isPresent then pure .merged
  else if (← detail.field "closedAt").isPresent then pure .closed
  else pure .opened

def timelineOf (created published firstReview closed : Option Moment) : List TimelineEntry :=
  [("Created".toList, created), ("Published".toList, published),
   ("First review".toList, firstReview), ("Closed".toList, closed)].filterMap
    fun (label, date) => date.map fun d => ⟨label, d⟩

end PullGauge
