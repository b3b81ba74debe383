import PullGauge.Record.Basic

/-!
# Reviews and commits

One pass over the reviews of a pull request gives the reviewers in the order in which
they first appear, the first submission, and how many reviews asked for changes; one pass
over its commits gives the earliest date.
-/

namespace PullGauge

structure ReviewStats where
  reviewers : List Payload := []
  firstReview : Option Moment := none
  changesRequested : Nat := 0

def addReviewer (reviewers : List Payload) (login : Payload) : Outcome (List Payload) :=
  if !login.isKey then .error .mismatch
  else if reviewers.any fun r => r.sameKey login then .ok reviewers
  else .ok (reviewers ++ [login])

def asksForChanges (review : Payload) : Outcome Bool :=
  (review.field "state").map fun s => s.isText "CHANGES_REQUESTED"

namespace ReviewStats

def add (s : ReviewStats) (review : Payload) : Outcome ReviewStats := do
  let author ← review.field "author"
  let reviewers ←
    if author.isPresent then do addReviewer s.reviewers (← author.member "login")
    else pure s.reviewers
  let changes ← asksForChanges review
  let firstReview ← match ← timestamp (← review.field "submittedAt") with
    | none => pure s.firstReview
    | some m => earlier s.firstReview m
  pure ⟨reviewers, firstReview, s.changesRequested + if changes then 1 else 0⟩

def ofReviews (reviews : List Payload) : Outcome ReviewStats := reviews.foldlM add {}

end ReviewStats

def commitDate (item : Payload) : Outcome (Option Moment) := do
  let commit ← item.part "commit"
  let author ← commit.part "author"
  let committer ← commit.part "committer"
  let written ← author.field "date"
  timestamp (← if written.isPresent then pure written else committer.field "date")

def earliestCommit (commits : List Payload) : Outcome (Option Moment) :=
  commits.foldlM (fun earliest item => do
    match ← commitDate item with
    | none => pure earliest
    | some m => earlier earliest m) none

def carriedCommitDate (detail : Payload) : Outcome (Option Moment) := do
  let nodes ← detail.nodes "commits"
  if nodes.isPresent then
    let commit ← (← nodes.first).part "commit"
    let authored ← commit.field "authoredDate"
    timestamp (← if authored.isPresent then pure authored else commit.field "committedDate")
  else pure none

end PullGauge
