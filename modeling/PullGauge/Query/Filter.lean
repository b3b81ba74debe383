import PullGauge.Query.Token
import PullGauge.Calendar.Reading
import PullGauge.Fault

/-!
# Filters

The editable form of a query: who, where, which labels, in what state, and between which
dates. Reading takes each family of qualifiers on its own; writing puts them in a fixed
order, so a query that is read and written again is a normal form of itself.
-/

namespace PullGauge

inductive Standing where
  | all
  | opened
  | closed
  | merged
  | other (word : Text)
  deriving DecidableEq

def Standing.word : Standing → Text
  | .all => "all"
  | .opened => "open"
  | .closed => "closed"
  | .merged => "merged"
  | .other word => word

def Standing.ofWord (t : Text) : Standing :=
  ([all, opened, closed, merged].find? fun s => s.word == t).getD (.other t)

/-- One end of a range: a day, or a moment that is written as its day in universal time. -/
inductive Bound where
  | day (d : Date)
  | moment (m : Moment)
  deriving DecidableEq

structure Bounds where
  start : Option Bound := none
  stop : Option Bound := none
  deriving DecidableEq

structure Filter where
  authors : List Text := []
  reviewers : List Text := []
  repositories : List Text := []
  labels : List Text := []
  assignees : List Text := []
  involves : List Text := []
  state : Standing := .all
  draft : Option Bool := none
  created : Option Bounds := none
  updated : Option Bounds := none
  deriving DecidableEq

namespace Bound

def read? (t : Text) : Option Bound := (Date.read? (t.take 10)).map .day

def write : Bound → Outcome Text
  | .day d => .ok d.write
  | .moment m =>
    match m.toUniversal? with
    | some u => .ok u.date.write
    | none => .error .beyondCalendar

end Bound

namespace Bounds

/-- Takes a value of a date qualifier into account: a range sets both ends, a comparison
one of them, and a date that cannot be read leaves its end as it was. -/
def refine (b : Bounds) (value : Text) : Bounds :=
  match Text.splitAtFirst ['.', '.'] value with
  | some (low, high) => ⟨(Bound.read? low).or b.start, (Bound.read? high).or b.stop⟩
  | none =>
    match value with
    | '>' :: _ =>
      ⟨(Bound.read? (value.dropWhile fun c => c == '>' || c == '=')).or b.start, b.stop⟩
    | '<' :: _ =>
      ⟨b.start, (Bound.read? (value.dropWhile fun c => c == '<' || c == '=')).or b.stop⟩
    | _ => b

def settle (b : Bounds) : Option Bounds :=
  if b.start.isNone && b.stop.isNone then none else some b

def ofValues (values : List Text) : Option Bounds := (values.foldl refine {}).settle

def write (key : Text) : Option Bounds → Outcome (List Text)
  | none => .ok []
  | some b => do
    let start ← match b.start with
      | none => pure []
      | some d => do pure [key ++ ':' :: '>' :: (← d.write)]
    let stop ← match b.stop with
      | none => pure []
      | some d => do pure [key ++ ':' :: '<' :: (← d.write)]
    pure (start ++ stop)

end Bounds

namespace Filter

def values (tokens : List Token) (key : Text) : List Text :=
  ((qualifiersFor tokens key).map Qualifier.value).filter fun v => !v.isEmpty

def labelValues (tokens : List Token) : List Text :=
  (((qualifiersFor tokens "label").filter Qualifier.closed).map Qualifier.value).filter
    fun v => !v.isEmpty

def standingOf (words : List Text) : Standing :=
  if words.contains "open".toList then .opened
  else if words.contains "closed".toList then .closed
  else if words.contains "merged".toList then .merged
  else .all

def isValues (tokens : List Token) (negated : Bool) : List Text :=
  ((tokens.filterMap Token.asQualifier?).filter fun q =>
    decide (q.key = "is".toList) && q.negated == negated).map Qualifier.value

def draftOf (words negatedWords : List Text) : Option Bool :=
  if negatedWords.contains "draft".toList then some false
  else if words.contains "draft".toList then some true
  else none

def ofTokens (tokens : List Token) : Filter where
  authors := values tokens "author"
  reviewers := values tokens "reviewed-by"
  repositories := values tokens "repo"
  labels := labelValues tokens
  assignees := values tokens "assignee"
  involves := values tokens "involves"
  state := standingOf (isValues tokens false)
  draft := draftOf (isValues tokens false) (isValues tokens true)
  created := Bounds.ofValues ((qualifiersFor tokens "created").map Qualifier.value)
  updated := Bounds.ofValues ((qualifiersFor tokens "updated").map Qualifier.value)

def read (query : Text) : Filter := ofTokens (tokenize query)

def writeValue (key value : Text) : Text := key ++ ':' :: value

def writeLabel (label : Text) : Text := "label:".toList ++ '"' :: label ++ ['"']

def plainParts (f : Filter) : List Text :=
  "is:pr".toList ::
    f.authors.map (writeValue "author") ++
    f.reviewers.map (writeValue "reviewed-by") ++
    f.repositories.map (writeValue "repo") ++
    f.labels.map writeLabel ++
    f.assignees.map (writeValue "assignee") ++
    f.involves.map (writeValue "involves") ++
    (if f.state = .all then [] else [writeValue "is" f.state.word]) ++
    (match f.draft with
     | some true => ["is:draft".toList]
     | some false => ["-is:draft".toList]
     | none => [])

/-- The query that describes a filter. A moment whose day in universal time does not
exist cannot be written. -/
def write (f : Filter) : Outcome Text := do
  let created ← Bounds.write "created" f.created
  let updated ← Bounds.write "updated" f.updated
  pure (List.intercalate [' '] (f.plainParts ++ created ++ updated))

end Filter

end PullGauge
