import PullGauge.Record.Reviews

/-!
# Assembling a record

From the detail of a pull request, the stub that a search found, and the list of its
commits.
-/

namespace PullGauge

def unknownAuthor : Text := "unknown"

namespace Record

def assemble (detail stub : Payload) (owner name : Text) (commits : List Payload) :
    Outcome Record := do
  let reviews ← (← detail.nodes "reviews").items
  let stats ← ReviewStats.ofReviews reviews
  let listed ← earliestCommit commits
  let firstCommit ← match listed with
    | some m => pure (some m)
    | none => carriedCommitDate detail
  let created ← timestamp (← detail.field "createdAt")
  let published ← timestamp (← detail.field "publishedAt")
  let merged ← detail.field "mergedAt"
  let closed ← timestamp (← if merged.isPresent then pure merged else detail.field "closedAt")
  let author ← detail.field "author"
  let id ← detail.member "id"
  let number ← stub.member "number"
  let title ← detail.fieldOr "title" ""
  let url ← stub.fieldOr "html_url" ""
  let authorName ← if author.isPresent then author.member "login" else pure (.text unknownAuthor)
  let state ← stateOf detail
  let additions ← detail.fieldOr "additions" (.int 0)
  let deletions ← detail.fieldOr "deletions" (.int 0)
  let comments ← (← detail.part "comments").fieldOr "totalCount" (.int 0)
  pure {
    id := id, owner := owner, name := name, repository := owner ++ '/' :: name
    number := number, title := title, url := url
    author := authorName, state := state
    created := created, published := published, closed := closed
    firstReview := stats.firstReview, firstCommit := firstCommit
    reviewers := stats.reviewers, changesRequested := stats.changesRequested
    additions := additions, deletions := deletions, comments := comments
    timeline := timelineOf created published stats.firstReview closed }

end Record

end PullGauge
