import PullGauge.Fault
import PullGauge.Payload.Depth
import PullGauge.Number.Reading

/-!
# What can be written

An integer is written only if it has few enough digits to be read again, and brackets only
so many deep. What is sent holds finite numbers.
-/

namespace PullGauge

/-- Whether an integer has few enough digits; a sign is no digit. -/
def Reading.isShort (i : Int) : Bool :=
  decide ((Text.ofNat i.natAbs).length ≤ Reading.digitLimit)

namespace Payload

mutual
/-- What comes first in the way of writing a payload where `room` brackets may still be
opened; a number that is not finite is in the way only if it is to be sent. -/
def flaw? (sent : Bool) (room : Nat) : Payload → Option Fault
  | .int i => if Reading.isShort i then none else some .unsendable
  | .real x => if sent && !Binary64.isFinite x then some .unsendable else none
  | .list items => if room = 0 then some .tooDeep else itemsFlaw? sent (room - 1) items
  | .object fields => if room = 0 then some .tooDeep else fieldsFlaw? sent (room - 1) fields
  | _ => none
termination_by structural p => p

def itemsFlaw? (sent : Bool) (room : Nat) : List Payload → Option Fault
  | [] => none
  | p :: r => (flaw? sent room p).or (itemsFlaw? sent room r)
termination_by structural p => p

def fieldsFlaw? (sent : Bool) (room : Nat) : List (Text × Payload) → Option Fault
  | [] => none
  | (_, p) :: r => (flaw? sent room p).or (fieldsFlaw? sent room r)
termination_by structural p => p
end

def check (sent : Bool) (p : Payload) : Outcome Unit :=
  match p.flaw? sent Reading.depthLimit with
  | none => .ok ()
  | some fault => .error fault

def literal (p : Payload) : Outcome Text := do
  p.check false
  pure (p.write Style.ascii)

def IsSendable (brackets : Nat) (p : Payload) : Prop :=
  p.flaw? true (Reading.depthLimit - brackets) = none

instance (brackets : Nat) (p : Payload) : Decidable (p.IsSendable brackets) :=
  inferInstanceAs (Decidable (_ = none))

end Payload

end PullGauge
