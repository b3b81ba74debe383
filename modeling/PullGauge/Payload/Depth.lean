import PullGauge.Payload.Reading

/-!
# Nesting

A payload is read only so many brackets deep. A text whose brackets go deeper is not read
at all, unless it breaks off or goes wrong before it comes to the first bracket too many:
whether it does is seen by putting an atom in place of that bracket and closing the ones
that are open.
-/

namespace PullGauge.Payload.Reading

/-- The most brackets that may be open at once. -/
def depthLimit : Nat := 970

def closing? (c : Char) : Option Char :=
  if c = '[' then some ']' else if c = '\x7b' then some '\x7d' else none

/-- The text up to the first bracket for which there is no room, closed behind an atom;
`closers` belong to the brackets that are open, and `quoted` says that the text starts
between quotes. -/
def cutDeepFrom (room : Nat) (closers : Text) (quoted : Bool) : Text → Option Text
  | [] => none
  | c :: r =>
    if quoted then
      match c, r with
      | '\\', d :: r => (cutDeepFrom room closers true r).map fun t => '\\' :: d :: t
      | c, r => (cutDeepFrom room closers (c != '"') r).map (c :: ·)
    else match closing? c with
      | some closer =>
        match room with
        | 0 => some ('0' :: closers)
        | room + 1 => (cutDeepFrom room (closer :: closers) false r).map (c :: ·)
      | none =>
        if closers.head? = some c then (cutDeepFrom (room + 1) closers.tail false r).map (c :: ·)
        else (cutDeepFrom room closers (c == '"') r).map (c :: ·)

end PullGauge.Payload.Reading

namespace PullGauge

def Payload.isTooDeep (t : Text) : Bool :=
  match Payload.Reading.cutDeepFrom Payload.Reading.depthLimit [] false t with
  | some t => (Payload.read? t).isSome
  | none => false

end PullGauge
