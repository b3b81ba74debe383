import PullGauge.Fault
import PullGauge.Number.Reading

/-!
# Taking payloads apart

Each operation works on the kinds of payload that have it, and on any other kind gives
the fault that says so.
-/

namespace PullGauge.Payload

def fieldOr (p : Payload) (key : Text) (fallback : Payload) : Outcome Payload :=
  match p with
  | .object fields => .ok ((Fields.find? key fields).getD fallback)
  | p => .error (.lacks p.kind "get")

def field (key : Text) (p : Payload) : Outcome Payload := p.fieldOr key .null

def member (key : Text) : Payload → Outcome Payload
  | .object fields =>
    match Fields.find? key fields with
    | some p => .ok p
    | none => .error (.missing key)
  | .text _ => .error (.notKeyed .text)
  | .list _ => .error (.notKeyed .list)
  | p => .error (.notIndexable p.kind)

def first : Payload → Outcome Payload
  | .list (p :: _) => .ok p
  | .text (c :: _) => .ok (.text [c])
  | .object _ => .error .noFirst
  | p => .error (.notIndexable p.kind)

/-- What a loop over the payload goes through: items, characters, or keys. -/
def items : Payload → Outcome (List Payload)
  | .list items => .ok items
  | .text t => .ok (t.map fun c => .text [c])
  | .object fields => .ok (fields.map fun (k, _) => .text k)
  | p => .error (.notIterable p.kind)

def size : Payload → Outcome Nat
  | .list items => .ok items.length
  | .text t => .ok t.length
  | .object fields => .ok fields.length
  | _ => .error .mismatch

def asText (operation : Text) : Payload → Outcome Text
  | .text t => .ok t
  | p => .error (.lacks p.kind operation)

def part (key : Text) (p : Payload) : Outcome Payload :=
  (p.field key).map fun q => q.orElse (.object [])

def nodes (key : Text) (p : Payload) : Outcome Payload := do
  let inner ← p.part key
  (inner.field "nodes").map fun q => q.orElse (.list [])

def whole (p : Payload) : Outcome Int :=
  match p.count? with
  | some n => .ok n
  | none => .error .mismatch

/-- The integer that a payload stands for: a double is cut to its whole part. -/
def toInteger : Payload → Outcome Int
  | .bool b => .ok (if b then 1 else 0)
  | .int i => .ok i
  | .real x =>
    if Binary64.isNaN x then .error .unreadable
    else if Binary64.isFinite x then
      let v := Binary64.value x
      .ok (v.num.tdiv v.den)
    else .error .tooLarge
  | .text t =>
    match Reading.integer? t with
    | some i => .ok i
    | none => .error .unreadable
  | _ => .error .mismatch

end PullGauge.Payload
