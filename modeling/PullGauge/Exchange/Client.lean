import PullGauge.Exchange.Talk
import PullGauge.Exchange.Refusal
import PullGauge.Text.Base64
import PullGauge.Text.Upper
import PullGauge.Payload.Limits

/-!
# The client

One request at a time: its reply is decoded or mapped to a failure. On top of that, lists
that come in pages, and documents that are answered with data, errors or both.
-/

namespace PullGauge

def Client.homeAddress : Text := "https://api.github.com"

structure Client.Settings where
  token : Text
  baseUrl : Text := Client.homeAddress
  timeout : Payload := .null
  userAgent : Text := "prmetrics/0.1.0"

structure Client where
  settings : Client.Settings
  /-- The address that relative ones are appended to; it ends in a slash. -/
  base : Url
  pageLimit : Nat

namespace Client

def Settings.transportUrl (s : Settings) : Text := Text.dropTrailing (· == '/') s.baseUrl

def addressOf (u : Except Url.Flaw Url) : Outcome Url := u.mapError fun _ => .badAddress

def make (s : Settings) (pageLimit : Nat) : Outcome Client := do
  let base ← addressOf (Url.read s.transportUrl >>= Url.asFolder)
  if Host.isAscii s.token && Host.isAscii s.userAgent then pure ⟨s, base, pageLimit⟩
  else throw .unsendable

/-- What a request is authorized by: the user of its address, or else the token. -/
def authorization (c : Client) (url : Url) : Text :=
  match url.login? with
  | some (name, password) =>
    "Basic ".toList ++ Text.Base64.write (Text.Utf8.encode (name ++ ':' :: password))
  | none => "Bearer ".toList ++ c.settings.token

def headers (c : Client) (url : Url) : List (Text × Text) :=
  [("accept", "application/vnd.github+json"), ("authorization", c.authorization url),
   ("user-agent", c.settings.userAgent), ("x-github-api-version", "2022-11-28")]

def Settings.ofEnvironment (env : List (Text × Text)) : Outcome Settings := do
  let refuse (message : Text) : Fault := .failure (.plain .configuration message)
  let token := (env.lookup "GITHUB_TOKEN".toList).getD []
  if token.isEmpty then throw (refuse "GITHUB_TOKEN environment variable not set")
  let raw := (env.lookup "PRMETRICS_TIMEOUT".toList).getD []
  let timeout ←
    if raw.isEmpty then pure .null
    else match Reading.double? raw with
      | some x => pure (.real x)
      | none =>
        throw (refuse ("Invalid PRMETRICS_TIMEOUT: ".toList ++ raw ++
          ". Must be a number of seconds".toList))
  pure {
    token := token
    baseUrl := (env.lookup "GITHUB_API_URL".toList).getD homeAddress
    timeout := timeout }

def addressFor (c : Client) (path : Text) (params : Option Fields) : Outcome Url := do
  let url ← addressOf (c.base.resolve path)
  match params with
  | some p => do
    Payload.check false (.object p)
    addressOf (url.withParams (Url.paramPairs p))
  | none => pure url

def requestFor (c : Client) (method path : Text) (params : Option Fields)
    (body : Option Payload) : Outcome Request := do
  let url ← c.addressFor path params
  body.elim (pure ()) (Payload.check true)
  if Host.isTellable url.host then pure ⟨Text.upper method, url, c.headers url, body⟩
  else throw .unsendable

def redirect (r : Request) (location : Text) : Outcome Unit := do
  match Url.read location with
  | .error flaw =>
    throw (.remote ("Connection error: Invalid URL in location header: ".toList ++
      flaw.message ++ ['.']))
  | .ok target =>
    if !Host.isTellable target.host then throw .unsendable
    if !target.scheme.isEmpty && target.host.isEmpty then
      let _ ← addressOf (Url.renew { target with host := r.url.host })

/-- A reply as it is taken in. A request that is sent on is not followed, but it must be
possible to follow it, and replies are filed under addresses with a scheme. -/
def receive (r : Request) (reply : Reply) : Outcome Reply := do
  if !r.url.isTyped then throw .unsendable
  match reply.location? with
  | some location => redirect r location
  | none => pure ()
  pure reply

variable {J : Type}

def exchange (r : Request) : Talk J Reply :=
  .send r fun
    | .error (.refused message) => .failed (.remote ("Connection error: ".toList ++ message))
    | .error (.crashed fault) => .failed fault
    | .ok reply =>
      match receive r reply with
      | .error fault => .failed fault
      | .ok reply =>
        if reply.status < 400 then .done reply
        else .clock fun now =>
          match Failure.ofReply now reply with
          | .ok f => .failed (.failure f)
          | .error fault => .failed fault

def decode (r : Request) (reply : Reply) : Outcome Payload :=
  match reply.body with
  | .empty => .ok .null
  | .json p => .ok p
  | .tooDeep => .error .tooDeep
  | .unreadable =>
    .error (.failure ⟨.remote,
      .text ("Invalid JSON in response from ".toList ++ r.url.decodedPath),
      some reply.status, reply.requestId⟩)

def request (c : Client) (method path : Text) (params : Option Fields)
    (body : Option Payload) : Talk J Payload := do
  let r ← c.requestFor method path params body
  let reply ← exchange r
  decode r reply

def get (c : Client) (path : Text) (params : Option Fields) : Talk J Payload :=
  c.request "GET" path params none

def envelopeKeys : List Text := ["items", "workflow_runs", "check_runs", "repositories"]

def pageItems : Payload → Outcome (List Payload)
  | .null => .ok []
  | .list items => .ok items
  | .object fields =>
    match envelopeKeys.findSome? fun key => Fields.find? key fields with
    | some p => p.items
    | none => .ok []
  | .text t => if envelopeKeys.any fun key => Text.has key t then .error .mismatch else .ok []
  | _ => .error .mismatch

def pagesFrom (c : Client) : Nat → Text → Option Fields → Talk J (List Payload)
  | 0, _, _ => .failed .endless
  | limit + 1, path, params => do
    let r ← c.requestFor "GET" path params none
    let reply ← exchange r
    let items ← pageItems (← decode r reply)
    match reply.next? with
    | none => pure items
    | some next => do pure (items ++ (← pagesFrom c limit next none))

def pages (c : Client) (path : Text) (params : Option Fields) : Talk J (List Payload) :=
  if path.isEmpty then pure [] else c.pagesFrom c.pageLimit path params

def isLimitError (error : Payload) : Outcome Bool :=
  (error.field "type").map fun t => t.isText "RATE_LIMITED"

def anyLimitError : List Payload → Outcome Bool
  | [] => .ok false
  | e :: r => do if ← isLimitError e then pure true else anyLimitError r

/-- What the answer to a document comes to: its data, unless there are errors and no
data, or the rate limit is exhausted. -/
def settle (reply : Reply) (answer : Payload) : Talk J Payload := do
  let result := answer.orElse (.object [])
  let errors := (← result.field "errors").orElse (.list [])
  let data ← result.field "data"
  if errors.isPresent then
    let all ← errors.items
    if ← anyLimitError all then
      let resetAt ← Refusal.resetOf (← Talk.now) reply
      Talk.failed (.failure (Refusal.rateLimited resetAt reply.status reply.requestId))
    else
      let first ← errors.first
      if !data.isPresent then
        let message ← first.fieldOr "message" "GraphQL request failed"
        Talk.failed (.failure ⟨.remote, message, some reply.status, reply.requestId⟩)
      else
        let message ← first.field "message"
        Talk.say "http" Log.warning
          ("GraphQL returned ".toList ++ Text.ofNat all.length ++ " partial error(s): ".toList ++
            message.display)
        pure data
  else pure (data.orElse (.object []))

def query (c : Client) (document : Payload) (bindings : Payload) : Talk J Payload := do
  let body : Fields := ("query".toList, document) ::
    (if bindings.isPresent then [("variables".toList, bindings)] else [])
  let r ← c.requestFor "POST" "/graphql" none (some (.object body))
  let reply ← exchange r
  settle reply (← decode r reply)

end Client

end PullGauge
