import PullGauge.Exchange.Url
import PullGauge.Text.Lower
import PullGauge.Packing.Basic
import PullGauge.Payload.Depth
import PullGauge.Payload.Octets
import PullGauge.Fault

/-!
# Requests and replies

A request has a method, an address and perhaps a body; a reply has a status, headers and
a body that may be empty, readable or not. Header names are compared without regard to
case, and a header that comes several times counts as one list.
-/

namespace PullGauge

structure Request where
  method : Text
  url : Url
  headers : List (Text × Text)
  body : Option Payload

inductive Reply.Body where
  | empty
  | json (p : Payload)
  | unreadable
  | tooDeep

def Reply.Body.ofOctets (octets : List Nat) : Reply.Body :=
  if octets.isEmpty then .empty
  else match Payload.textOf? octets with
    | none => .unreadable
    | some t =>
      if Payload.isTooDeep t then .tooDeep
      else match Payload.read? t with
        | some p => .json p
        | none => .unreadable

structure Reply where
  status : Int
  headers : List (Text × Text)
  body : Reply.Body

inductive Outage where
  | refused (message : Text)
  | crashed (fault : Fault)

/-- A body that cannot be unpacked counts as no reply. -/
def Outage.ofFault : Fault → Outage
  | .packed reason => .refused reason
  | fault => .crashed fault

namespace Reply

def header? (r : Reply) (name : Text) : Option Text :=
  let values := (r.headers.filter fun (n, _) =>
    decide (Reading.asciiLower n = Reading.asciiLower name)).map (·.2)
  if values.isEmpty then none else some (List.intercalate [',', ' '] values)

def codings (r : Reply) : List Packing.Coding :=
  Packing.codings ((r.header? "Content-Encoding").getD [])

def ofOctets (status : Int) (headers : List (Text × Text)) (octets : List Nat) :
    Outcome Reply :=
  let bare : Reply := ⟨status, headers, .empty⟩
  match Packing.unpack bare.codings octets with
  | .ok octets => .ok { bare with body := .ofOctets octets }
  | .error flaw => .error (.packed flaw.message)

def ofText (status : Int) (headers : List (Text × Text)) (t : Text) : Outcome Reply :=
  ofOctets status headers (Text.Utf8.encode t)

def requestId (r : Reply) : Option Text := r.header? "X-GitHub-Request-Id"

def redirections : List Int := [301, 302, 303, 307, 308]

def location? (r : Reply) : Option Text :=
  if redirections.contains r.status then r.header? "Location" else none

/-- One link of a link header: its address and its parameters, of which the one named
`url` overrides the address. -/
structure Link where
  url : Text
  params : List (Text × Text)

def linkBreak? (t : Text) : Option Nat :=
  match t with
  | ',' :: r =>
    let spaces := r.takeWhile (· == ' ')
    match r.drop spaces.length with
    | '<' :: _ => some (spaces.length + 2)
    | _ => none
  | _ => none

def linkPieces : Nat → Text → List Text
  | _, [] => [[]]
  | skip + 1, _ :: r => linkPieces skip r
  | 0, c :: r =>
    match linkBreak? (c :: r) with
    | some n => [] :: linkPieces (n - 1) r
    | none =>
      match linkPieces 0 r with
      | [] => [[c]]
      | piece :: more => (c :: piece) :: more

def trimMarks (t : Text) : Text := Text.trimBy (fun c => " '\"".toList.contains c) t

def linkParams : List Text → List (Text × Text)
  | [] => []
  | piece :: more =>
    match Text.cut '=' piece with
    | [key, value] => (trimMarks key, trimMarks value) :: linkParams more
    | _ => []

def Link.param? (l : Link) (name : Text) : Option Text :=
  (l.params.reverse.find? fun (k, _) => k == name).map (·.2)

def Link.ofPiece (piece : Text) : Link :=
  let (url, params) := match Text.splitAtFirst [';'] piece with
    | some (u, p) => (u, p)
    | none => (piece, [])
  ⟨Text.trimBy (fun c => "<> '\"".toList.contains c) url, linkParams (Text.cut ';' params)⟩

def Link.address (l : Link) : Text := (l.param? "url").getD l.url

def Link.relation (l : Link) : Text :=
  match l.param? "rel" with
  | some rel => if rel.isEmpty then l.address else rel
  | none => l.address

def readLinks (header : Text) : List Link :=
  let trimmed := trimMarks header
  if trimmed.isEmpty then [] else (linkPieces 0 trimmed).map Link.ofPiece

/-- The address of the next page; of several, the last one counts. -/
def next? (r : Reply) : Option Text := do
  let header ← r.header? "link"
  let link ← (readLinks header).reverse.find? fun l => decide (l.relation = "next".toList)
  if link.address.isEmpty then none else some link.address

end Reply

end PullGauge
