import PullGauge.Suggestion.Context
import PullGauge.Exchange.Resources

/-!
# The suggestion engine

What is offered at the cursor: canned searches for an empty query, then values for the
qualifier that waits for one, then qualifiers. Looking values up is a best effort: when it
fails in a way that the service may cause, a warning is noted and little or nothing is
offered instead.
-/

namespace PullGauge

namespace Suggestion

def userLookupLimit : Int := 10
def repositoryLookupLimit : Int := 20

/-- The first `cursor` characters; a negative cursor counts from the end. -/
def beforeCursor (query : Text) (cursor : Int) : Text :=
  if cursor < 0 then query.take (query.length + cursor).toNat else query.take cursor.toNat

def offeredTemplates (today : Date) (query word : Text) : Outcome (List (Suggestion Text)) :=
  let trimmed := Text.trim query
  if trimmed.isEmpty || trimmed == "is:pr".toList then (templates today).map (filter word true)
  else .ok []

def offeredQualifiers (before word : Text) : List (Suggestion Text) :=
  if showsQualifiers before word then filter word false qualifiers else []

inductive Lookup where
  | users (partialName : Text)
  | repositories (partialName : Text)
  deriving DecidableEq

def lookup? (before : Text) : Option Lookup :=
  match valueContext before with
  | some (.user, partialName) => if partialName.isEmpty then none else some (.users partialName)
  | some (.repository, partialName) => some (.repositories partialName)
  | _ => none

def knownValues (before : Text) : List (Suggestion Text) :=
  match valueContext before with
  | some (.user, _) => [me]
  | some (.label, partialName) => labels partialName
  | _ => []

def found (kind : Kind) (value description : Payload) (category : Text) : Suggestion Payload :=
  ⟨kind, value, value, description, some category, some value⟩

def ofUser (user : Payload) : Outcome (Suggestion Payload) := do
  let login ← user.member "login"
  pure (found .user login (← user.field "name") "Users")

def ofRepository (lowered : Text) (repository : Payload) :
    Outcome (Option (Suggestion Payload)) := do
  let name ← repository.member "full_name"
  if Text.has lowered (Text.lower (← name.asText "lower")) then
    pure (some (found .repository name (← repository.field "description") "Repositories"))
  else pure none

variable {J : Type}

def lookUpUsers (c : Client) (partialName : Text) : Talk J (List (Suggestion Payload)) := do
  let users ← (← c.searchUsers (partialName ++ " in:login".toList) userLookupLimit).items
  Talk.ofOutcome (users.mapM ofUser)

def lookUpRepositories (c : Client) (partialName : Text) :
    Talk J (List (Suggestion Payload)) := do
  let repositories ← (← c.ownRepositories repositoryLookupLimit "updated" "desc").items
  let offers ← (repositories.mapM (ofRepository (Text.lower partialName)) : Outcome _)
  pure (offers.filterMap id)

def isForgiven : Fault → Bool
  | .failure _ => true
  | .missing _ => true
  | .noFirst => true
  | .notIterable _ => true
  | .notIndexable _ => true
  | .notKeyed _ => true
  | .lacks _ _ => true
  | .mismatch => true
  | _ => false

def Lookup.kind : Lookup → Text
  | .users _ => "user"
  | .repositories _ => "repository"

def Lookup.complaint : Lookup → Text
  | .users _ => "User search failed: "
  | .repositories _ => "Repository listing failed: "

def Lookup.run (c : Client) : Lookup → Talk J (List (Suggestion Payload))
  | .users partialName => lookUpUsers c partialName
  | .repositories partialName => lookUpRepositories c partialName

def Lookup.bestEffort (c : Outcome Client) (l : Lookup) : Talk J (List (Suggestion Payload)) := do
  let result ← Talk.attempt (do l.run (← c))
  match result with
  | .ok offers => pure offers
  | .error fault =>
    if isForgiven fault then do
      Talk.say "suggestions" Log.warning
        ("Falling back for ".toList ++ l.kind ++ " suggestions: ".toList ++ l.complaint ++
          fault.display)
      pure []
    else Talk.failed fault

def suggest (c : Outcome Client) (today : Date) (query : Text) (cursor : Int) :
    Talk J (List (Suggestion Payload)) := do
  let before := beforeCursor query cursor
  let word := currentWord before
  let canned ← offeredTemplates today query word
  let looked ← match lookup? before with
    | some l => l.bestEffort c
    | none => pure []
  let shown (l : List (Suggestion Text)) := l.map (map Payload.text)
  pure ((shown canned ++ shown (knownValues before) ++ looked ++
    shown (offeredQualifiers before word)).take limit)

def callsForClient (today : Date) (query : Text) (cursor : Int) : Bool :=
  let before := beforeCursor query cursor
  match offeredTemplates today query (currentWord before) with
  | .ok _ => (lookup? before).isSome
  | .error _ => false

end Suggestion

end PullGauge
