import PullGauge.Pipeline.Search
import PullGauge.Metrics.Repository

/-!
# Repositories

The details of one pull request, and the insights into one repository. The data of a
repository are kept for good; everything else about it is asked anew.
-/

namespace PullGauge

namespace Pipeline

def detailsDocument : Text :=
  List.intercalate ['\n'] [
    "".toList,
    "query($owner: String!, $repo: String!, $number: Int!) \x7b".toList,
    "  repository(owner: $owner, name: $repo) \x7b".toList,
    "    pullRequest(number: $number) \x7b".toList,
    "      title createdAt publishedAt closedAt mergedAt".toList,
    "      reviews(first: 100) \x7b nodes \x7b submittedAt \x7d \x7d".toList,
    "    \x7d".toList,
    "  \x7d".toList,
    "\x7d".toList,
    "".toList]

def submissions (reviews : List Payload) : Outcome (List Moment) := do
  let times ← reviews.mapM fun node => do timestamp (← node.field "submittedAt")
  pure (times.filterMap id)

def detailsOf (pull : Payload) : Outcome Details := do
  let submissions ← submissions (← (← pull.nodes "reviews").items)
  pure {
    title := ← pull.fieldOr "title" ""
    created := ← timestamp (← pull.field "createdAt")
    published := ← timestamp (← pull.field "publishedAt")
    closed := ← timestamp (← pull.field "closedAt")
    merged := ← timestamp (← pull.field "mergedAt")
    submissions := submissions }

variable {J : Type}

/-- The details of a pull request, which are kept for good. -/
def details (c : Client) (owner name : Text) (number : Payload) : Talk J RepositoryNote := do
  let key := Key.details owner name number
  match ← Talk.find .repository key with
  | some (note : RepositoryNote) => pure note
  | none => do
    let n ← number.toInteger
    let data ← c.query (.text detailsDocument)
      (.object [("owner".toList, .text owner), ("repo".toList, .text name),
        ("number".toList, .int n)])
    let pull ← (← data.part "repository").field "pullRequest"
    if pull.isPresent then
      let d ← detailsOf pull
      Talk.store .repository key (some (RepositoryNote.details d)) none
      pure (.details d)
    else
      Talk.failed (.failure ⟨.remote,
        .text ("Pull request ".toList ++ owner ++ '/' :: name ++ '#' :: number.display ++
          " not found".toList), some 404, none⟩)

def windowDays : Int := 30

def repositoryData (c : Client) (owner name : Text) (cached : Bool) : Talk J Payload := do
  let key := Key.repository owner name
  if cached then
    match ← Talk.find .repository key with
    | some (RepositoryNote.data p) => pure p
    | some (RepositoryNote.details _) => Talk.failed (.lacks .object "get")
    | none => do
      let p ← c.repository owner name
      Talk.store .repository key (p.toOption.map RepositoryNote.data) none
      pure p
  else c.repository owner name

def listErrand (t : Talk Empty (List Payload)) : Errand := do pure (.list (← t))

def insightErrands (c : Client) (owner name : Text) (branch : Payload) (since : Moment) :
    List Errand :=
  [listErrand (c.commits owner name branch (.text since.write)),
   listErrand (c.pulls owner name "closed"),
   listErrand (c.pulls owner name "open"),
   listErrand (c.runs owner name branch "completed"),
   listErrand (c.commitActivity owner name),
   listErrand (c.contributors owner name),
   c.communityProfile owner name]

def sourceOf (repository : Payload) (answers : List Payload) : Insights.Source :=
  let listAt (i : Nat) : List Payload := match answers[i]? with
    | some (.list items) => items
    | _ => []
  { repository := repository, commits := listAt 0, closedPulls := listAt 1
    openPulls := listAt 2, runs := listAt 3, activity := listAt 4, contributors := listAt 5
    community := answers[6]?.getD .null }

def insights (c : Client) (owner name : Text) (cached : Bool) (at_ : Option Moment) :
    Plan (Insights Float) := do
  let now ← match at_ with
    | some m => pure m
    | none => Talk.now
  let some since := now.add? (-(windowDays * Calendar.dayMicros))
    | Talk.failed .beyondCalendar
  let data ← repositoryData c owner name cached
  let branch ← data.field "default_branch"
  let answers ← Talk.gather (insightErrands c owner name branch since)
  Talk.ofOutcome (Insights.ofSource (sourceOf data answers) since)

end Pipeline

end PullGauge
