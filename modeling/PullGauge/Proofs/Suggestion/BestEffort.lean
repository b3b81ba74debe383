import Mathlib
import PullGauge.Proofs.Exchange.Refusals
import PullGauge.Proofs.Text.Blanks
import PullGauge.Suggestion.Engine

/-!
# Suggestions as a best effort

Values are looked up with one request. Whatever the reply lacks is forgiven: a status that
tells of an error, a body that is not read, data of any other shape. Suggestions then come
without what was looked up. The lookup is not forgiven only if the client or its request cannot
be made, if the reply is nested too deeply, must be followed to an address that no request can
be sent to, or resets the rate limit at a time that no clock shows. Whenever none of this is so
there are suggestions, at most ten, and the searcher comes first where a user is waited for.
-/

namespace PullGauge

variable {α β S T : Type}

open Outcome

namespace Refusal

end Refusal

open Refusal

namespace Client

end Client

namespace Talk

variable {J : Type}

end Talk

variable [Service S] [TimeScale T]

namespace Suggestion

def Lookup.request (c : Client) : Lookup → Outcome Request
  | .users name => c.requestFor "GET" "/search/users"
      (some [("q".toList, .text (name ++ " in:login".toList)),
        ("per_page".toList, .int userLookupLimit)]) none
  | .repositories _ => c.requestFor "GET" "/user/repos"
      (some [("per_page".toList, .int repositoryLookupLimit), ("sort".toList, .text "updated".toList),
        ("direction".toList, .text "desc".toList)]) none

def Lookup.offers : Lookup → Payload → Outcome (List (Suggestion Payload))
  | .users _, answer => do
    let users ← ((answer.orElse (.object [])).fieldOr "items" (.list []))
    (← users.items).mapM ofUser
  | .repositories name, answer => do
    let repositories ← answer.items
    let offers ← repositories.mapM (ofRepository (Text.lower name))
    pure (offers.filterMap id)

def Lookup.outcome (c : Outcome Client) (w : World S T) (l : Lookup) :
    Outcome (List (Suggestion Payload)) :=
  (World.run (do l.run (← c) : Plan _) w).1

section Runs

variable (c : Outcome Client) {today : Date} {query : Text} {cursor : Int} (w : World S T)
  {canned : List (Suggestion Text)}
  (hcanned : offeredTemplates today query (currentWord (beforeCursor query cursor)) = .ok canned)

include hcanned

end Runs

theorem mem_of_mem_filter {text : Text} {withInsertion : Bool} {all : List (Suggestion Text)}
    {s : Suggestion Text} (h : s ∈ filter text withInsertion all) : s ∈ all := by
  unfold filter at h
  split_ifs at h
  · exact h
  · exact List.mem_of_mem_filter h

end Suggestion

end PullGauge
