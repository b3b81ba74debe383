import PullGauge.Exchange.Client

/-!
# What the client can ask for

Searches, accounts, repositories, pull requests and runs, each by its path and its
parameters. A parameter that is not present is left out.
-/

namespace PullGauge

namespace Client

variable {J : Type}

def optional (key : Text) (value : Payload) : Fields :=
  if value.isPresent then [(key, value)] else []

def full : Payload := .int 100

def repositoryPath (owner name : Text) : Text :=
  "/repos/".toList ++ owner ++ '/' :: name

structure SearchOptions where
  page : Int := 1
  perPage : Int := 20
  sort : Option Text := some "updated"
  order : Option Text := some "desc"
  deriving DecidableEq

structure SearchPage where
  totalCount : Payload
  incomplete : Payload
  items : Payload

def searchParams (query : Text) (o : SearchOptions) (advanced : Bool) : Fields :=
  [("q".toList, .text query), ("page".toList, .int o.page), ("per_page".toList, .int o.perPage)] ++
    optional "sort" (.ofOption .text o.sort) ++ optional "order" (.ofOption .text o.order) ++
    (if advanced then [("advanced_search".toList, Payload.text "true")] else [])

def SearchPage.ofPayload (answer : Payload) : Outcome SearchPage := do
  let page := answer.orElse (.object [])
  pure {
    totalCount := ← page.fieldOr "total_count" (.int 0)
    incomplete := ← page.fieldOr "incomplete_results" (.bool false)
    items := ← page.fieldOr "items" (.list []) }

def SearchPage.toPayload (p : SearchPage) : Payload :=
  .object [("total_count".toList, p.totalCount), ("incomplete_results".toList, p.incomplete),
    ("items".toList, p.items)]

def searchPage (c : Client) (query : Text) (o : SearchOptions) (advanced : Bool) :
    Talk J SearchPage := do
  SearchPage.ofPayload (← c.get "/search/issues" (some (searchParams query o advanced)))

def searchUsers (c : Client) (query : Text) (perPage : Int) : Talk J Payload := do
  let answer ← c.get "/search/users"
    (some [("q".toList, .text query), ("per_page".toList, .int perPage)])
  (answer.orElse (.object [])).fieldOr "items" (.list [])

def searcher (c : Client) : Talk J Payload := c.get "/user" none

def user (c : Client) (login : Text) : Talk J Payload :=
  c.get ("/users/".toList ++ login) none

def profile (c : Client) (login : Text) : Talk J Profile := do
  Profile.ofPayload (← c.user login)

def repository (c : Client) (owner name : Text) : Talk J Payload :=
  c.get (repositoryPath owner name) none

def ownRepositories (c : Client) (perPage : Int) (sort direction : Text) : Talk J Payload :=
  c.get "/user/repos" (some [("per_page".toList, .int perPage), ("sort".toList, .text sort),
    ("direction".toList, .text direction)])

def commits (c : Client) (owner name : Text) (branch since : Payload) :
    Talk J (List Payload) :=
  c.pages (repositoryPath owner name ++ "/commits".toList)
    (some (("per_page".toList, full) :: optional "sha" branch ++ optional "since" since))

def contributors (c : Client) (owner name : Text) : Talk J (List Payload) :=
  c.pages (repositoryPath owner name ++ "/contributors".toList)
    (some [("per_page".toList, full)])

def commitActivity (c : Client) (owner name : Text) : Talk J (List Payload) := do
  match ← c.get (repositoryPath owner name ++ "/stats/commit_activity".toList) none with
  | .list weeks => pure weeks
  | _ => pure []

def communityProfile (c : Client) (owner name : Text) : Talk J Payload := do
  let answer ← c.get (repositoryPath owner name ++ "/community/profile".toList) none
  pure (answer.orElse (.object []))

def pullCommits (c : Client) (owner name : Text) (number : Payload) : Talk J (List Payload) :=
  c.pages (repositoryPath owner name ++ "/pulls/".toList ++ number.display ++ "/commits".toList)
    (some [("per_page".toList, full)])

def pulls (c : Client) (owner name : Text) (state : Payload) : Talk J (List Payload) :=
  c.pages (repositoryPath owner name ++ "/pulls".toList)
    (some [("state".toList, state), ("per_page".toList, full)])

def runs (c : Client) (owner name : Text) (branch status : Payload) : Talk J (List Payload) :=
  c.pages (repositoryPath owner name ++ "/actions/runs".toList)
    (some (("per_page".toList, full) :: optional "branch" branch ++ optional "status" status))

end Client

end PullGauge
