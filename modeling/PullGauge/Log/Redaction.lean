import PullGauge.Log.Masking
import PullGauge.Text.Lower
import PullGauge.Payload.Basic

/-!
# Redacting payloads

A copy of an object that may be logged: the values of sensitive keys are gone, and the
credentials in other texts are masked. Objects are redacted inside objects and as items
of a list; other items of a list stay as they are.
-/

namespace PullGauge

namespace Redaction

def sensitiveWords : List Text := ["authorization", "token", "secret", "password", "credential"]

def isSensitive (words : List Text) (key : Text) : Bool :=
  words.any fun w => Text.has w (Text.lower key)

def redacted : Payload := "[REDACTED]"

mutual
def fields (words : List Text) : List (Text × Payload) → List (Text × Payload)
  | [] => []
  | (k, p) :: r =>
    (k, if isSensitive words k then redacted else value words p) :: fields words r
termination_by structural p => p

def value (words : List Text) : Payload → Payload
  | .object f => .object (fields words f)
  | .list l => .list (items words l)
  | .text t => .text (mask t)
  | p => p
termination_by structural p => p

def items (words : List Text) : List Payload → List Payload
  | [] => []
  | p :: r => item words p :: items words r
termination_by structural p => p

def item (words : List Text) : Payload → Payload
  | .object f => .object (fields words f)
  | p => p
termination_by structural p => p
end

end Redaction

def redact (words : List Text) (fields : Fields) : Fields := Redaction.fields words fields

end PullGauge
