import PullGauge.Record.Basic
import PullGauge.Number.Basic
import PullGauge.Service.Script

/-!
# Samples

Payloads as a service sends them, for scripts: results of a search, reviews, details of
pull requests, commits, users, and one record. Every part can be set; what is not set has
a usual value.
-/

namespace PullGauge

namespace Sample

def object (fields : List (String × Payload)) : Payload :=
  .object (fields.map fun (k, v) => (k.toList, v))

def written (parts : List Payload) : Payload := .text (parts.flatMap Payload.display)

structure SearchItem where
  number : Payload := .int 1
  owner : Payload := "octocat"
  name : Payload := "hello-world"
  /-- A thousand more than the number if it is null. -/
  id : Payload := .null
  title : Payload := "Mock pull request"

def aboveThousand (number : Payload) : Outcome Payload :=
  match (Number.ofPayload? number : Option (Number Float)) with
  | some n => (Number.add (.int 1000) n).map Number.toPayload
  | none => .error .mismatch

def SearchItem.payload (i : SearchItem) : Outcome Payload := do
  let id ← match i.id with
    | .null => aboveThousand i.number
    | id => pure id
  let api := written ["https://api.github.com/repos/", i.owner, "/", i.name]
  pure (object [("id", id), ("number", i.number), ("title", i.title),
    ("repository_url", api),
    ("html_url", written ["https://github.com/", i.owner, "/", i.name, "/pull/", i.number]),
    ("pull_request", object [("url", written [api, "/pulls/", i.number])])])

structure Review where
  /-- The account is gone if it is not present. -/
  login : Payload := "reviewer"
  state : Payload := "APPROVED"
  submitted : Payload := "2024-01-11T09:00:00Z"

def Review.payload (r : Review) : Payload :=
  object [("author", if r.login.isPresent then object [("login", r.login)] else .null),
    ("state", r.state), ("submittedAt", r.submitted)]

def created : Payload := "2024-01-10T08:00:00Z"

def pullDetail (number : Payload) (fields : Fields) : Payload :=
  let usual : Fields :=
    [("id".toList, written ["PR_kwDOmock", number]),
     ("title".toList, written ["Mock pull request #", number]),
     ("author".toList, object [("login", "octocat")]), ("createdAt".toList, created),
     ("publishedAt".toList, created), ("closedAt".toList, .null), ("mergedAt".toList, .null),
     ("isDraft".toList, .bool false), ("additions".toList, .int 10),
     ("deletions".toList, .int 5), ("comments".toList, object [("totalCount", .int 2)]),
     ("reviews".toList, object [("nodes", .list [])]),
     ("commits".toList, object [("nodes", .list [])]),
     ("closingIssuesReferences".toList, object [("totalCount", .int 0)])]
  .object (usual.putAll fields)

structure Commit where
  authored : Payload := "2024-01-09T12:00:00Z"
  /-- The date of the author if it is not present. -/
  committed : Payload := .null
  hash : Payload := "a1b2c3d4e5f6"

def Commit.payload (c : Commit) : Payload :=
  object [("sha", c.hash),
    ("commit", object [
      ("author", if c.authored.isPresent then object [("date", c.authored)] else .null),
      ("committer", object [("date", c.committed.orElse c.authored)])])]

def user (login : Payload) (fields : Fields) : Payload :=
  let usual : Fields :=
    [("login".toList, login), ("name".toList, "The Octocat"),
     ("avatar_url".toList, written ["https://avatars.githubusercontent.com/", login]),
     ("html_url".toList, written ["https://github.com/", login]), ("bio".toList, .null),
     ("company".toList, "@github"), ("location".toList, "San Francisco"),
     ("followers".toList, .int 100), ("following".toList, .int 10),
     ("public_repos".toList, .int 8)]
  .object (usual.putAll fields)

def createdMoment : Moment :=
  ⟨⟨2024, 1, 10, by decide⟩, 8 * 3600 * 1000000, some 0, by decide⟩

def committedMoment : Moment :=
  ⟨⟨2024, 1, 9, by decide⟩, 12 * 3600 * 1000000, some 0, by decide⟩

def record : Record where
  id := "PR_kwDOmock1"
  owner := "octocat"
  name := "hello-world"
  repository := "octocat/hello-world"
  number := .int 1
  title := "Mock pull request #1"
  url := "https://github.com/octocat/hello-world/pull/1"
  author := "octocat"
  state := .opened
  created := some createdMoment
  published := some createdMoment
  closed := none
  firstReview := none
  firstCommit := some committedMoment
  reviewers := []
  changesRequested := 0
  additions := .int 10
  deletions := .int 5
  comments := .int 2
  timeline := timelineOf (some createdMoment) (some createdMoment) none none

def addCommitted (owner name : Payload) (script : Script) (number : Payload) : Script :=
  let path := "/repos/".toList ++ owner.display ++ '/' :: name.display ++ "/pulls/".toList ++
    number.display ++ "/commits".toList
  (script.addPull ⟨owner, name, number⟩ (pullDetail number [])).configure
    { method := "GET", path := path, body := .list [Commit.payload {}] }

end Sample

def Script.serve (script : Script) (owner name : Payload) (numbers : List Payload) :
    Outcome Script := do
  let items ← numbers.mapM fun n =>
    Sample.SearchItem.payload { number := n, owner := owner, name := name }
  let found := Sample.object [("total_count", .int numbers.length),
    ("incomplete_results", .bool false), ("items", .list items)]
  let script := script.configure { method := "GET", path := "/search/issues", body := found }
  pure (numbers.foldl (Sample.addCommitted owner name) script)

end PullGauge
