import PullGauge.Pipeline.Key
import PullGauge.Exchange.Batch
import PullGauge.Query.Validation

/-!
# Searching pull requests

A query is validated, searched, resolved in batches and enriched with commits, a few pull
requests at a time; whole results are kept for five minutes, lists of commits for good.
-/

namespace PullGauge

namespace Pipeline

def enrichTogether : Int := 5

def searchLife : Nat := 300

def login : Selection := .group "author" [.field "login"]

def fields (names : List String) : List Selection := names.map fun n => .field n.toList

def pullFields : List Selection :=
  fields ["id", "title"] ++ [login] ++
  fields ["createdAt", "publishedAt", "closedAt", "mergedAt", "isDraft", "additions",
    "deletions"] ++
  [.group "comments" [.field "totalCount"],
   .group "reviews(first: 100)" [.group "nodes" (login :: fields ["state", "submittedAt"])],
   .group "commits(first: 1)"
     [.group "nodes" [.group "commit" (fields ["authoredDate", "committedDate"])]]]

variable {J : Type}

def commits (c : Client) (owner name : Text) (number : Payload) : Talk J (List Payload) := do
  let key := Key.commits owner name number
  match ← Talk.find .commit key with
  | some (kept : List Payload) => do
    Talk.say "pipeline" Log.debug ("Commit cache hit for ".toList ++ key)
    pure kept
  | none => do
    let listed ← c.pullCommits owner name number
    Talk.store .commit key (some listed) none
    pure listed

def commitsErrand (c : Client) (r : Resolved) : Errand := do
  let number ← r.stub.member "number"
  pure (.list (← commits c r.owner r.name number))

def recordOf (r : Resolved) (fetched : Outcome Payload) : Outcome Record := do
  Record.assemble r.detail r.stub r.owner r.name (← (← fetched).items)

/-- Enriches one chunk; its errands run together, and all of them run to their end. -/
def enrichChunk (c : Client) (index : Nat) (chunk : List Resolved) : Plan (List Record) := do
  Talk.say "pipeline" Log.debug
    ("Enriching chunk ".toList ++ Text.ofNat (index + 1) ++ " (".toList ++
      Text.ofNat chunk.length ++ " pull requests)".toList)
  Talk.together (chunk.map (commitsErrand c)) fun fetched =>
    -- a record is assembled without asking for anything, so this may wait for every errand
    Talk.ofOutcome ((chunk.zip fetched).mapM fun (r, f) => recordOf r f)

def enrichChunks (c : Client) : Nat → List (List Resolved) → Plan (List Record)
  | _, [] => pure []
  | index, chunk :: more => do
    let first ← enrichChunk c index chunk
    pure (first ++ (← enrichChunks c (index + 1) more))

def searchAfresh (c : Client) (query : Text) (o : Client.SearchOptions) :
    Plan SearchResult := do
  let page ← c.searchPage query o true
  let stubs ← (do let _ ← page.items.size; Resolved.stubsOf page.items : Outcome _)
  let resolved ← Resolved.ofStubs c (Selection.writeAll pullFields) Resolved.batchSize stubs
  let records ← enrichChunks c 0 (← (chunks enrichTogether resolved : Outcome _))
  pure ⟨page.totalCount, page.incomplete, records⟩

def search (c : Client) (query : Text) (o : Client.SearchOptions) : Plan SearchResult := do
  let sanitized ← sanitize query
  let key := Key.search sanitized o
  match ← Talk.find .search key with
  | some (kept : SearchResult) => do
    Talk.say "pipeline" Log.debug ("Search cache hit for ".toList ++ Text.quoted sanitized)
    pure kept
  | none => do
    let result ← searchAfresh c sanitized o
    Talk.store .search key (some result) (some searchLife)
    pure result

end Pipeline

end PullGauge
