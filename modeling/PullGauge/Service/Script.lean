import PullGauge.Service.Basic
import PullGauge.Exchange.Batch
import PullGauge.Text.Digit

/-!
# Scripted services

A service that answers from a script and keeps a record of what it was asked. A route
answers the requests with its method, its path and its parameters; lists are served in
linked pages; documents about pull requests are answered from those that were added. A
stand-in takes the place of all that for one path.
-/

namespace PullGauge

structure Call where
  method : Text
  /-- Decoded. -/
  path : Text
  /-- Decoded, the first value of each. -/
  params : List (Text × Text)
  body : Payload

structure Route where
  method : Text
  path : Text
  params : List (Text × Text) := []
  status : Int := 200
  /-- Values other than texts cannot be sent. -/
  headers : Fields := []
  body : Payload := .null

/-- A route as it is asked for: the method in any case, and a value of any kind for each
parameter that a request must carry. -/
structure Setup where
  method : Text
  path : Text
  expected : Fields := []
  status : Int := 200
  headers : Fields := []
  body : Payload := .null

inductive StandIn where
  | reply (status : Int) (headers : Fields) (body : Text)
  | outage (message : Text)

structure Script where
  routes : List Route := []
  pages : List (Text × List (List Payload)) := []
  pulls : List (PullRef × Payload) := []
  standIns : List ((Text × Text) × StandIn) := []
  calls : List Call := []

namespace Call

def firstValues : List (Text × Text) → List (Text × Text)
  | [] => []
  | (k, v) :: r => (k, v) :: (firstValues r).filter fun (l, _) => l != k

theorem lookup_firstValues (key : Text) (pairs : List (Text × Text)) :
    (firstValues pairs).lookup key = pairs.lookup key := by
  have hskip {k : Text} (hk : (key == k) = false) (l : List (Text × Text)) :
      (l.filter fun (j, _) => j != k).lookup key = l.lookup key := by
    induction l with
    | nil => rfl
    | cons pair l ih =>
      obtain ⟨j, v⟩ := pair
      by_cases hj : j = k
      · rw [List.filter_cons_of_neg (by simp [hj]), ih, List.lookup_cons, hj, hk]
      · rw [List.filter_cons_of_pos (by simp [hj]), List.lookup_cons, List.lookup_cons, ih]
  induction pairs with
  | nil => rfl
  | cons pair pairs ih =>
    obtain ⟨k, v⟩ := pair
    rw [firstValues, List.lookup_cons, List.lookup_cons]
    cases hk : key == k with
    | true => rfl
    | false => exact (hskip hk _).trans ih

def ofRequest (r : Request) : Call where
  method := r.method
  path := r.url.decodedPath
  params := firstValues r.url.params
  body := r.body.getD .null

end Call

namespace Route

def refuse (route : Route) (message : Payload) (errors : Option Payload) : Route :=
  { route with
    params := []
    body := .object (("message".toList, message) ::
      (errors.map fun e => ("errors".toList, e)).toList) }

/-- Methods are compared in upper case, values as the texts that they are displayed as. -/
def ofSetup (setup : Setup) : Route where
  method := Text.upper setup.method
  path := setup.path
  params := setup.expected.map fun (key, value) => (key, value.display)
  status := setup.status
  headers := setup.headers
  body := setup.body

def hasParams (params required : List (Text × Text)) : Bool :=
  required.all fun (k, v) => params.lookup k == some v

def isFor (a b : Route) : Bool :=
  a.method == b.method && a.path == b.path && hasParams a.params b.params &&
    hasParams b.params a.params

def answers (route : Route) (c : Call) : Bool :=
  route.method == c.method && route.path == c.path && hasParams c.params route.params

end Route

def sendableHeaders : Fields → Outcome (List (Text × Text))
  | [] => .ok []
  | (name, .text value) :: r =>
    if Host.isAscii name && Host.isAscii value then do
      pure ((name, value) :: (← sendableHeaders r))
    else .error .unsendable
  | (name, _) :: _ => if Host.isAscii name then .error .mismatch else .error .unsendable

def Reply.make (status : Int) (headers : Fields) (body : Payload) : Outcome Reply := do
  let headers ← sendableHeaders headers
  match body with
  | .null => pure ⟨status, headers, .empty⟩
  | p => do
    p.check true
    let plain : Reply := ⟨status, headers, .json p⟩
    if plain.codings.isEmpty then pure plain
    else Reply.ofText status headers (p.write .dense)

namespace Script

def configure (s : Script) (route : Route) : Script :=
  { s with routes := (s.routes.filter fun r => !r.isFor route) ++ [route] }

def servePages (s : Script) (path : Text) (pages : List (List Payload)) : Script :=
  { s with pages := (path, pages) :: s.pages.filter fun (p, _) => p != path }

def addPull (s : Script) (ref : PullRef) (detail : Payload) : Script :=
  { s with pulls := (ref, detail) :: s.pulls }

def standIn (s : Script) (method path : Text) (answer : StandIn) : Script :=
  { s with standIns := ((method, path), answer) :: s.standIns }

def resume (s : Script) : Script := { s with standIns := [] }

/-- Forgets the script and the record, but not the stand-ins. -/
def reset (s : Script) : Script := { standIns := s.standIns }

def callsOf (s : Script) (method path : Option Text) : List Call :=
  s.calls.filter fun c => method.all (c.method == ·) && path.all (c.path == ·)

/-- The route for a call; of several, the one configured last. -/
def route? (s : Script) (c : Call) : Option Route :=
  s.routes.reverse.find? fun r => r.answers c

theorem route?_eq_none {s : Script} {c : Call}
    (h : ∀ r ∈ s.routes, r.method = c.method → r.path ≠ c.path) : s.route? c = none := by
  rw [route?, List.find?_eq_none]
  intro r hr hanswers
  simp only [Route.answers, Bool.and_eq_true, beq_iff_eq] at hanswers
  exact h r (List.mem_reverse.1 hr) hanswers.1.1 hanswers.1.2

/-- A page of a list; pages are counted from one, and up to it from the end. -/
def pageAt (pages : List (List Payload)) (page : Int) : Outcome (List Payload) :=
  if (pages.length : Int) < page then .ok []
  else
    let index := if page < 1 then page - 1 + pages.length else page - 1
    if index < 0 then .error .noSuchPage
    else match pages[index.toNat]? with
      | some items => .ok items
      | none => .error .noSuchPage

def linkTo (path : Text) (page : Int) : Text :=
  '<' :: Client.homeAddress ++ path ++ "?page=".toList ++ Text.ofInt page ++
    ">; rel=\"next\"".toList

def pageReply (path : Text) (pages : List (List Payload)) (c : Call) : Outcome Reply := do
  let some page := Reading.integer? ((c.params.lookup "page".toList).getD "1")
    | .error .unreadable
  let items ← pageAt pages page
  let links : Fields :=
    if page < pages.length then [("Link".toList, .text (linkTo path (page + 1)))] else []
  Reply.make 200 links (.list items)

def pullAt (s : Script) (ref : PullRef) : Outcome Payload :=
  if ref.owner.isKey && ref.name.isKey then
    .ok (((s.pulls.find? fun (r, _) => r.isSame ref).map (·.2)).getD .null)
  else .error .mismatch

def pullAnswer (detail : Payload) : Payload := .object [("pullRequest".toList, detail)]

def literalRest : Text → Option (Text × Text)
  | [] => none
  | ['\\'] => none
  | '\\' :: c :: r =>
    if c = '\n' then none else (literalRest r).map fun (t, r) => ('\\' :: c :: t, r)
  | c :: r =>
    if c = '"' then some (['"'], r) else (literalRest r).map fun (t, r) => (c :: t, r)

def literal? : Text → Option (Text × Text)
  | '"' :: r => (literalRest r).map fun (t, r) => ('"' :: t, r)
  | _ => none

def digits? (t : Text) : Option (Text × Text) :=
  let digits := t.takeWhile Text.isDigit
  if digits.isEmpty then none else some (digits, t.drop digits.length)

structure Part where
  tag : Text
  /-- Quoted. -/
  owner : Text
  name : Text
  number : Text

def part? (t : Text) : Option (Part × Nat) := do
  let (index, r) ← digits? (← Text.dropPiece? "pr" t)
  let (owner, r) ← literal? (← Text.dropPiece? ": repository(owner: " r)
  let (name, r) ← literal? (← Text.dropPiece? ", name: " r)
  let (number, r) ← digits? (← Text.dropPiece? ") \x7b pullRequest(number: " r)
  let r ← Text.dropPiece? ")" r
  some (⟨"pr".toList ++ index, owner, name, number⟩, t.length - r.length)

def readable {α : Type} : Option α → Outcome α
  | some a => .ok a
  | none => .error .unreadable

def Part.ref (p : Part) : Outcome PullRef := do
  let owner ← readable (Payload.read? p.owner)
  let name ← readable (Payload.read? p.name)
  let number ← readable (Reading.integer? p.number)
  pure ⟨owner, name, .int number⟩

def answerParts (s : Script) (document : Text) : Outcome Fields :=
  (Text.findAll part? document).foldlM (fun data part => do
    let detail ← s.pullAt (← part.ref)
    pure (data.put part.tag (pullAnswer detail))) []

/-- The data that a document asks for: one pull request by its bindings, or one for each
part of the document. -/
def answerDocument (s : Script) (body : Payload) : Outcome Payload := do
  let request := body.orElse (.object [])
  match ← request.part "variables" with
  | .object fields =>
    match Fields.find? "owner" fields, Fields.find? "repo" fields,
        Fields.find? "number" fields with
    | some owner, some name, some number => do
      let detail ← s.pullAt ⟨owner, name, .int (← number.toInteger)⟩
      pure (.object [("repository".toList, pullAnswer detail)])
    | _, _, _ =>
      match ← request.fieldOr "query" "" with
      | .text document => do pure (.object (← s.answerParts document))
      | _ => .error .mismatch
  | p => .error (.lacks p.kind "keys")

def scripted (s : Script) (c : Call) : Outcome Reply :=
  match s.route? c with
  | some route => Reply.make route.status route.headers route.body
  | none =>
    match (if c.method = "GET".toList then s.pages.lookup c.path else none) with
    | some pages => pageReply c.path pages c
    | none =>
      if c.method = "POST".toList ∧ c.path = "/graphql".toList then do
        Reply.make 200 [] (.object [("data".toList, ← s.answerDocument c.body)])
      else Reply.make 404 [] (.object [("message".toList, .text "Not Found")])

def answerInstead : StandIn → Except Outage Reply
  | .reply status headers body =>
    (do Reply.ofText status (← sendableHeaders headers) body : Outcome Reply).mapError .ofFault
  | .outage message => .error (.refused message)

def replyTo (s : Script) (c : Call) : Except Outage Reply :=
  match s.standIns.lookup (c.method, c.path) with
  | some answer => answerInstead answer
  | none => (s.scripted c).mapError .ofFault

def answer (s : Script) (r : Request) : Except Outage Reply × Script :=
  let c := Call.ofRequest r
  (s.replyTo c, { s with calls := s.calls ++ [c] })

theorem calls_answer (s : Script) (r : Request) :
    (s.answer r).2.calls = s.calls ++ [Call.ofRequest r] := rfl

instance : Service Script := ⟨Script.answer⟩

/-- A bound on the links from one page to the next that do not lead in a circle. -/
def linkBound (s : Script) : Nat :=
  s.routes.length + s.standIns.length +
    2 * (s.pages.foldl (fun n (_, p) => n + p.length) 0) + 2

end Script

end PullGauge
