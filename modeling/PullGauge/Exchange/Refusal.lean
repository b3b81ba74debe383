import PullGauge.Exchange.Message
import PullGauge.Payload.Access

/-!
# What an error reply means

A reply with an error status is mapped to one failure: a rejected credential, an
exhausted rate limit with the time at which it is reset, a rejected query, or any other
trouble of the service.
-/

namespace PullGauge

namespace Refusal

def epochOrdinal : Int := 719163

def ofEpoch? (seconds : Int) : Option Moment :=
  Moment.ofReading? (epochOrdinal * Calendar.dayMicros + seconds * Calendar.secondMicros) (some 0)

def isClockRange (seconds : Int) : Bool :=
  decide (-67768040609740800 ≤ seconds) && decide (seconds ≤ 67768036191676799)

def isWord (seconds : Int) : Bool :=
  decide (-9223372036854775808 ≤ seconds) && decide (seconds ≤ 9223372036854775807)

/-- The time that a reset header tells; now if it tells none that has a date. -/
def resetTime (now : Moment) (header : Option Text) : Outcome Moment :=
  match header.bind Reading.integer? with
  | none => .ok now
  | some seconds =>
    if !isWord seconds then .error .tooLarge
    else if !isClockRange seconds then .error .beyondClock
    else .ok ((ofEpoch? seconds).getD now)

def resetOf (now : Moment) (r : Reply) : Outcome Moment :=
  resetTime now (r.header? "X-RateLimit-Reset")

def rateLimited (resetAt : Moment) (status : Int) (requestId : Option Text) : Failure :=
  ⟨.rateLimit resetAt, .text ("Rate limit exceeded. Reset at ".toList ++ resetAt.write),
    some status, requestId⟩

def objectOf : Reply.Body → Outcome Payload
  | .json (.object fields) => .ok (.object fields)
  | .tooDeep => .error .tooDeep
  | _ => .ok (.object [])

def isRateLimited (r : Reply) (message : Payload) : Outcome Bool :=
  if r.header? "X-RateLimit-Remaining" = some ['0'] then .ok true
  else do pure (Text.has "rate limit" (Text.lower (← message.asText "lower")))

def detailOf (data message : Payload) : Outcome Payload := do
  let details ← data.field "errors"
  if details.isPresent then
    match ← details.first with
    | .object fields => pure (((Fields.find? "message" fields).getD .null).orElse message)
    | first => pure (Payload.orElse (.text first.display) message)
  else pure message

end Refusal

open Refusal

def Failure.ofReply (now : Moment) (r : Reply) : Outcome Failure := do
  let data ← objectOf r.body
  let told ← data.field "message"
  let message := told.orElse (.text ("HTTP ".toList ++ Text.ofInt r.status))
  let plain (category : Failure.Category) (message : Payload) : Failure :=
    ⟨category, message, some r.status, r.requestId⟩
  if r.status = 401 then pure (plain .authentication "Authentication failed")
  else if r.status = 429 then
    pure (rateLimited (← resetOf now r) r.status r.requestId)
  else if r.status = 403 then
    if ← isRateLimited r message then
      pure (rateLimited (← resetOf now r) r.status r.requestId)
    else pure (plain .remote "Access forbidden")
  else if r.status = 422 then do
    let detail ← detailOf data message
    pure (plain .rejectedQuery
      (.text ("Invalid search query: ".toList ++ detail.display)))
  else pure (plain .remote message)

end PullGauge
