import PullGauge.Number.Scalar
import PullGauge.Payload.Access

/-!
# Numbers

A number is an integer of any size or a scalar. Sums and products of integers stay
integers; a quotient is always a scalar. Integers and scalars are compared exactly.
-/

namespace PullGauge

inductive Number (F : Type) where
  | int (i : Int)
  | real (x : F)

namespace Number

variable {F : Type} [Scalar F]

def scalarOfInt (i : Int) : Outcome F :=
  match Scalar.ofInt? i with
  | some x => .ok x
  | none => .error .tooLarge

def toScalar : Number F → Outcome F
  | .int i => scalarOfInt i
  | .real x => .ok x

def combine (onInts : Int → Int → Int) (onScalars : F → F → F) (a b : Number F) :
    Outcome (Number F) :=
  match a, b with
  | .int i, .int j => .ok (.int (onInts i j))
  | a, b => do pure (.real (onScalars (← a.toScalar) (← b.toScalar)))

def add : Number F → Number F → Outcome (Number F) := combine (· + ·) (· + ·)

def sub : Number F → Number F → Outcome (Number F) := combine (· - ·) (· - ·)

def divInt (a : Number F) (n : Int) : Outcome F :=
  match a with
  | .int i =>
    match Scalar.quotient? i n with
    | some x => .ok x
    | none => .error .tooLarge
  | .real x => do pure (x / (← scalarOfInt n))

def less : Number F → Number F → Bool
  | .int i, .int j => decide (i < j)
  | .real x, .real y => Scalar.less x y
  | .real x, .int j => Scalar.lessThanInt x j
  | .int i, .real y => Scalar.intLessThan i y

def isZero : Number F → Bool
  | .int i => i == 0
  | .real x => Scalar.isZero x

def sum (values : List (Number F)) : Outcome (Number F) := values.foldlM add (.int 0)

def roundHalfUp (places : Int) : Number F → Outcome F
  | .int i => ((Decimal.ofInt i).round places).map Scalar.ofDecimal
  | .real x => Scalar.roundHalfUp x places

def ofPayload? (p : Payload) : Option (Number F) :=
  match p with
  | .real x => some (.real (Scalar.ofDouble x))
  | p => p.count?.map .int

def roundText (places : Int) (t : Text) : Outcome Float :=
  let (negative, body) := Reading.sign ((Text.trimBy Text.isNumberBlank t).filter (· != '_'))
  match Reading.decimal? negative body with
  | some d => (d.round places).map Decimal.toDouble
  | none =>
    if Decimal.allowsPlaces places ∧ Reading.asciiLower body = "nan" then
      .ok Binary64.notANumber
    else .error .tooPrecise

def roundPayload (places : Int) : Payload → Outcome Float
  | .int i => (Number.int i).roundHalfUp places
  | .real x => (Number.real x).roundHalfUp places
  | .text t => roundText places t
  | _ => .error .tooPrecise

def toPayload : Number Float → Payload
  | .int i => .int i
  | .real x => .real x

/-- Adds times; an integer too large for a double counts as infinite. -/
def addTimes (a b : Number Float) : Number Float :=
  match a.add b with
  | .ok c => c
  | .error _ => .real Binary64.infinity

instance : Add (Number Float) := ⟨addTimes⟩

instance : LT (Number Float) := ⟨fun a b => a.less b = true⟩

instance : DecidableLT (Number Float) := fun a b => inferInstanceAs (Decidable (a.less b = true))

end Number

end PullGauge
