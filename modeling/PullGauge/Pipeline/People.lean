import PullGauge.Pipeline.Search

/-!
# People

The searcher's own account, users found by name, profiles, and the scores of developers.
-/

namespace PullGauge

namespace Pipeline

def userLimit : Int := 5

def stubLimit : Int := 30

def profileLife : Nat := 3600

variable {J : Type}

def searcher (c : Client) : Talk J Payload := do
  match ← Talk.find .user Key.searcher with
  | some (Account.searcher data) => pure data
  | some (Account.profile _) => Talk.failed .mismatch
  | none => do
    let data ← c.searcher
    Talk.store .user Key.searcher (data.toOption.map Account.searcher) none
    pure data

def ownQuery (login : Text) : Text :=
  "author:".toList ++ login ++ " OR reviewed-by:".toList ++ login

def ownRecords (c : Client) : Plan (List Record) := do
  let login ← (← searcher c).member "login"
  let result ← search c (ownQuery login.display) { perPage := 100 }
  pure result.records

def foundUser (item : Payload) : Outcome (Payload × Payload) := do
  pure (← item.member "login", ← item.fieldOr "avatar_url" "")

def users (c : Client) (query : Text) : Talk J (List (Payload × Payload)) := do
  let items ← (← c.searchUsers query userLimit).items
  Talk.ofOutcome (items.mapM foundUser)

def profile (c : Client) (login : Text) (cached : Bool) : Talk J Profile := do
  if cached then
    match ← Talk.find .user (Key.profile login) with
    | some (Account.profile p) => pure p
    | some (Account.searcher _) => Talk.failed .mismatch
    | none => do
      let p ← c.profile login
      Talk.store .user (Key.profile login) (some (Account.profile p)) (some profileLife)
      pure p
  else c.profile login

def developerFields : List Selection :=
  fields ["mergedAt", "createdAt", "additions", "deletions"] ++
  [.group "comments" [.field "totalCount"],
   .group "reviews(first: 100)" [.group "nodes" [.field "state"]],
   .group "closingIssuesReferences(first: 1)" [.field "totalCount"]]

def developerQuery (key login : Text) : Text := "is:pr ".toList ++ key ++ ':' :: login

def stubsErrand (c : Client) (key login : Text) : Errand := do
  let page ← c.searchPage (developerQuery key login)
    { perPage := stubLimit, sort := none, order := none } false
  pure page.toPayload

def developer (c : Client) (login : Text) : Plan (Profile × Scores Float) := do
  let p ← profile c login true
  let pages ← Talk.gather
    [stubsErrand c "author" login, stubsErrand c "reviewed-by" login]
  let items ← (pages.mapM (Payload.member "items") : Outcome _)
  let authored := items[0]?.getD .null
  let reviewed := items[1]?.getD .null
  let stubs ← (do let _ ← authored.size; Resolved.stubsOf authored : Outcome _)
  let resolved ← Resolved.ofStubs c (Selection.writeAll developerFields) Resolved.batchSize stubs
  let authoredCount ← authored.size
  let reviewedCount ← reviewed.size
  let scores ← Scores.ofDetails authoredCount reviewedCount (resolved.map Resolved.detail)
  pure (p, scores)

end Pipeline

end PullGauge
