import PullGauge.Text.Basic
import PullGauge.Number.Written

/-!
# Payloads

The data that travels: nothing, truth values, integers of any size, doubles, texts,
lists, and objects whose fields keep the order in which their keys first came.
-/

namespace PullGauge

inductive Payload where
  | null
  | bool (b : Bool)
  | int (i : Int)
  | real (x : Float)
  | text (t : Text)
  | list (items : List Payload)
  | object (fields : List (Text × Payload))

instance : Inhabited Payload := ⟨.null⟩
instance : Coe Text Payload := ⟨.text⟩
instance : Coe String Payload := ⟨fun s => .text s.toList⟩

abbrev Fields := List (Text × Payload)

namespace Fields

def find? (key : Text) : Fields → Option Payload
  | [] => none
  | (k, v) :: r => if k = key then some v else find? key r

/-- Gives a key a value: in its old place if it has one, else at the end. -/
def put (key : Text) (value : Payload) : Fields → Fields
  | [] => [(key, value)]
  | (k, v) :: r => if k = key then (k, value) :: r else (k, v) :: put key value r

theorem find?_put (key other : Text) (value : Payload) (fields : Fields) :
    find? other (put key value fields) =
      if key = other then some value else find? other fields := by
  induction fields with
  | nil => rfl
  | cons field r ih =>
    obtain ⟨k, v⟩ := field
    by_cases h : k = key
    · subst h
      by_cases ho : k = other <;> simp [put, find?, ho]
    · by_cases ho : k = other
      · subst ho
        simp [put, find?, h, Ne.symm h]
      · simp [put, find?, h, ho, ih]

def putAll (fields new : Fields) : Fields :=
  new.foldl (fun all (k, v) => all.put k v) fields

end Fields

namespace Payload

inductive Kind where
  | null | bool | int | real | text | list | object
  deriving DecidableEq

def Kind.name : Kind → Text
  | .null => "NoneType"
  | .bool => "bool"
  | .int => "int"
  | .real => "float"
  | .text => "str"
  | .list => "list"
  | .object => "dict"

def kind : Payload → Kind
  | .null => .null
  | .bool _ => .bool
  | .int _ => .int
  | .real _ => .real
  | .text _ => .text
  | .list _ => .list
  | .object _ => .object

/-- Whether there is something to speak of: not nothing, not false, not zero, not empty. -/
def isPresent : Payload → Bool
  | .null => false
  | .bool b => b
  | .int i => i != 0
  | .real x => Binary64.magnitude x != 0
  | .text t => !t.isEmpty
  | .list items => !items.isEmpty
  | .object fields => !fields.isEmpty

def orElse (p q : Payload) : Payload := if p.isPresent then p else q

def isText (t : Text) : Payload → Bool
  | .text s => decide (s = t)
  | _ => false

def count? : Payload → Option Int
  | .bool b => some (if b then 1 else 0)
  | .int i => some i
  | _ => none

def isKey : Payload → Bool
  | .list _ => false
  | .object _ => false
  | _ => true

/-- Whether two payloads are the same key: numbers are compared by value, and a truth
value counts as zero or one. -/
def sameKey (p q : Payload) : Bool :=
  match p, q with
  | .null, .null => true
  | .text s, .text t => decide (s = t)
  | .real x, .real y => x == y
  | .real x, q =>
    match q.count? with
    | some i => Binary64.isFinite x && decide (Binary64.value x = i)
    | none => false
  | p, .real y =>
    match p.count? with
    | some i => Binary64.isFinite y && decide (Binary64.value y = i)
    | none => false
  | p, q =>
    match p.count?, q.count? with
    | some i, some j => decide (i = j)
    | _, _ => false

def ofOption {α : Type} (f : α → Payload) : Option α → Payload
  | none => .null
  | some a => f a

def toOption : Payload → Option Payload
  | .null => none
  | p => some p

end Payload

end PullGauge
