import PullGauge.Metrics.Statistics
import PullGauge.Record.Reviews

/-!
# Developer scores

Raw values of a developer's recent pull requests, and scores from zero to ten that are
linear in them: shares count upwards, delays and sizes count downwards. The values come
straight from payloads, so they are added up as they are found.
-/

namespace PullGauge

structure Profile where
  login : Payload
  name : Payload
  avatarUrl : Payload
  htmlUrl : Payload
  bio : Payload
  company : Payload
  location : Payload
  followers : Payload
  following : Payload
  publicRepos : Payload

def Profile.ofPayload (data : Payload) : Outcome Profile := do
  pure {
    login := ← data.member "login"
    name := ← data.field "name"
    avatarUrl := ← data.fieldOr "avatar_url" ""
    htmlUrl := ← data.fieldOr "html_url" ""
    bio := ← data.field "bio"
    company := ← data.field "company"
    location := ← data.field "location"
    followers := ← data.fieldOr "followers" (.int 0)
    following := ← data.fieldOr "following" (.int 0)
    publicRepos := ← data.fieldOr "public_repos" (.int 0) }

structure Scores (F : Type) where
  mergeSuccess : F
  mergeRate : F
  cycleEfficiency : F
  meanChanges : F
  sizeEfficiency : F
  medianSize : F
  leadTimeScore : F
  medianLeadTime : F
  reviewActivity : F
  reviewsCount : Int
  feedbackScore : F
  meanComments : F
  issueResolution : F
  issuesClosed : Number F

namespace Scores

variable {F : Type} [Scalar F]

/-- The size of a change. Texts and lists can be added as well, but only empty ones come
out of a median. -/
inductive Size (F : Type) where
  | number (n : Number F)
  | text (isEmpty : Bool)
  | list (isEmpty : Bool)

def Size.ofSum (a b : Payload) : Outcome (Size F) :=
  match a, b with
  | .text s, .text t => .ok (.text (s.isEmpty && t.isEmpty))
  | .list x, .list y => .ok (.list (x.isEmpty && y.isEmpty))
  | a, b =>
    match (Number.ofPayload? a : Option (Number F)), Number.ofPayload? b with
    | some m, some n => (m.add n).map .number
    | _, _ => .error .mismatch

def medianOfEmpty (flags : List Bool) : Outcome (Option (Number F)) :=
  if flags.length % 2 = 1 ∧ flags.length < 2 * flags.count true then .ok none
  else .error .mismatch

def medianSizeOf (sizes : List (Size F)) : Outcome (Option (Number F)) :=
  let numbers := sizes.filterMap fun | .number n => some n | _ => none
  let texts := sizes.filterMap fun | .text e => some e | _ => none
  let lists := sizes.filterMap fun | .list e => some e | _ => none
  if numbers.length = sizes.length then median numbers
  else if texts.length = sizes.length then medianOfEmpty texts
  else if lists.length = sizes.length then medianOfEmpty lists
  else .error .mismatch

def addTo (total : Number F) (p : Payload) : Outcome (Number F) :=
  match Number.ofPayload? p with
  | some n => total.add n
  | none => .error .mismatch

structure Tally (F : Type) where
  merged : Nat := 0
  changes : List (Number F) := []
  sizes : List (Size F) := []
  leadTimes : List (Number F) := []
  comments : List Payload := []
  issuesClosed : Number F := .int 0

def leadTime (created merged : Option Moment) : Outcome (List (Number F)) :=
  match created, merged with
  | some c, some m => do pure [.real (← hoursBetween c m)]
  | _, _ => pure []

def Tally.add (t : Tally F) (detail : Payload) : Outcome (Tally F) := do
  let merged ← timestamp (← detail.field "mergedAt")
  let created ← timestamp (← detail.field "createdAt")
  let lead ← leadTime created merged
  let reviews ← (← detail.nodes "reviews").items
  let changes ← reviews.mapM asksForChanges
  let additions ← detail.fieldOr "additions" (.int 0)
  let deletions ← detail.fieldOr "deletions" (.int 0)
  let size ← Size.ofSum additions deletions
  let comments ← (← detail.part "comments").fieldOr "totalCount" (.int 0)
  let issues ← (← detail.part "closingIssuesReferences").fieldOr "totalCount" (.int 0)
  pure {
    merged := t.merged + if merged.isSome then 1 else 0
    changes := t.changes ++ [.int (changes.count true)]
    sizes := t.sizes ++ [size]
    leadTimes := t.leadTimes ++ lead
    comments := t.comments ++ [comments]
    issuesClosed := ← addTo t.issuesClosed issues }

def meanOfPayloads (values : List Payload) : Outcome (Option F) :=
  if values.isEmpty then .ok none
  else do pure (some (← (← values.foldlM addTo (.int 0)).divInt values.length))

def tenLess (penalty : F) : F :=
  let score := Scalar.whole 10 - penalty
  if Scalar.less (Scalar.whole 0) score then score else Scalar.whole 0

def atMostTen (x : F) : F := if Scalar.less x (Scalar.whole 10) then x else Scalar.whole 10

def countScore (n : Number F) : Outcome F :=
  if n.less (.int 10) then n.toScalar else .ok (Scalar.whole 10)

def round2 (x : F) : Outcome F := Scalar.roundHalfUp x 2

def ofDetails (authored reviewed : Int) (details : List Payload) : Outcome (Scores F) := do
  let t : Tally F ← details.foldlM Tally.add {}
  let mergeRate : F ←
    if authored = 0 then pure (Scalar.whole 0) else (Number.int t.merged).divInt authored
  let meanChanges := orZero (← mean t.changes)
  let medianSize := numberOrZero (← medianSizeOf t.sizes)
  let medianLead := numberOrZero (← median t.leadTimes)
  let meanComments := orZero (← meanOfPayloads t.comments)
  let mergeSuccess ← round2 (mergeRate * Scalar.whole 10)
  let mergeRate ← round2 mergeRate
  let cycleEfficiency ← round2 (tenLess (meanChanges * Scalar.whole 2))
  let meanChanges ← round2 meanChanges
  let sizeEfficiency ← round2 (tenLess (← medianSize.divInt 100))
  let medianSize ← medianSize.roundHalfUp 2
  let leadTimeScore ← round2 (tenLess (← medianLead.divInt 12))
  let medianLeadTime ← medianLead.roundHalfUp 2
  let reviewActivity ← round2 (← countScore (.int reviewed))
  let feedbackScore ← round2 (atMostTen meanComments)
  let meanComments ← round2 meanComments
  let issueResolution ← round2 (← countScore t.issuesClosed)
  pure {
    mergeSuccess, mergeRate, cycleEfficiency, meanChanges, sizeEfficiency, medianSize
    leadTimeScore, medianLeadTime, reviewActivity, reviewsCount := reviewed
    feedbackScore, meanComments, issueResolution, issuesClosed := t.issuesClosed }

end Scores

end PullGauge
