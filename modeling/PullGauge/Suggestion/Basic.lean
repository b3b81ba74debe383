import PullGauge.Text.Lower
import PullGauge.Fault

/-!
# Suggestions of the query editor

What the editor can offer without asking anyone: canned searches, the qualifiers of the
query language, and common labels. A suggestion shows and inserts values of one type:
text where it is known in advance, a payload where it comes from a lookup.
-/

namespace PullGauge

namespace Suggestion

inductive Kind where
  | qualifier
  | user
  | repository
  | label
  | template
  deriving DecidableEq

def Kind.word : Kind → Text
  | .qualifier => "syntax"
  | .user => "user"
  | .repository => "repository"
  | .label => "label"
  | .template => "template"

def Kind.ofWord? (t : Text) : Option Kind :=
  [qualifier, user, repository, label, template].find? fun k => k.word == t

end Suggestion

structure Suggestion (V : Type) where
  kind : Suggestion.Kind
  value : V
  display : V
  description : Payload := .null
  category : Option Text := none
  insertion : Option V := none

namespace Suggestion

def limit : Nat := 10

def recentDays : Nat := 7

def map {V W : Type} (f : V → W) (s : Suggestion V) : Suggestion W where
  kind := s.kind
  value := f s.value
  display := f s.display
  description := s.description
  category := s.category
  insertion := s.insertion.map f

def canned (kind : Kind) (value display description category insertion : Text) :
    Suggestion Text :=
  ⟨kind, value, display, .text description, some category, some insertion⟩

def qualifiers : List (Suggestion Text) :=
  [canned .qualifier "author:" "author:username" "Filter by pull request author" "Filters"
     "author:",
   canned .qualifier "reviewed-by:" "reviewed-by:username" "Filter by reviewer" "Filters"
     "reviewed-by:",
   canned .qualifier "repo:" "repo:owner/name" "Filter by repository" "Filters" "repo:",
   canned .qualifier "label:" "label:\"name\"" "Filter by label" "Filters" "label:\"",
   canned .qualifier "is:open" "is:open" "Show only open pull requests" "Status" "is:open",
   canned .qualifier "is:closed" "is:closed" "Show only closed pull requests" "Status"
     "is:closed",
   canned .qualifier "is:merged" "is:merged" "Show only merged pull requests" "Status"
     "is:merged",
   canned .qualifier "is:draft" "is:draft" "Show only draft pull requests" "Status" "is:draft",
   canned .qualifier "created:" "created:>YYYY-MM-DD" "Filter by creation date" "Dates"
     "created:>",
   canned .qualifier "updated:" "updated:<YYYY-MM-DD" "Filter by last update date" "Dates"
     "updated:<"]

def commonLabels : List Text :=
  ["bug", "enhancement", "documentation", "good first issue", "help wanted", "question",
   "wontfix", "duplicate"]

def me : Suggestion Text := canned .user "@me" "@me" "Current authenticated user" "Users" "@me"

def templatesSince (since : Date) : List (Suggestion Text) :=
  [canned .template "my-prs" "My Pull Requests" "Pull requests I authored or reviewed"
     "Templates" "is:pr author:@me OR reviewed-by:@me",
   canned .template "team-review" "Pending Team Reviews" "Open PRs waiting for review"
     "Templates" "is:pr is:open review:required",
   canned .template "recent-activity" "Recent Activity"
     ("PRs updated in last ".toList ++ Text.ofNat recentDays ++ " days".toList) "Templates"
     ("is:pr updated:>".toList ++ since.write ++ " involves:@me".toList),
   canned .template "bugs" "Bug Fixes" "PRs labeled as bug fixes" "Templates"
     "is:pr label:\"bug\" is:open"]

def templates (today : Date) : Outcome (List (Suggestion Text)) :=
  match today.addDays? (-(recentDays : Int)) with
  | some since => .ok (templatesSince since)
  | none => .error .beyondCalendar

def searched (withInsertion : Bool) (s : Suggestion Text) : List Text :=
  s.value :: s.display :: (if withInsertion then s.insertion.toList else [])

def hasText (lowered : Text) (withInsertion : Bool) (s : Suggestion Text) : Bool :=
  (s.searched withInsertion).any fun field => Text.has lowered (Text.lower field)

def filter (text : Text) (withInsertion : Bool) (all : List (Suggestion Text)) :
    List (Suggestion Text) :=
  if text.isEmpty then all else all.filter (hasText (Text.lower text) withInsertion)

def ofLabel (label : Text) : Suggestion Text :=
  ⟨.label, label, label, .null, some "Labels".toList, some (label ++ ['"'])⟩

def labels (partialName : Text) : List (Suggestion Text) :=
  (commonLabels.filter fun label => Text.has (Text.lower partialName) label).map ofLabel

end Suggestion

end PullGauge
