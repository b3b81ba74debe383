import PullGauge.Packing.Inflate
import PullGauge.Text.Blank
import PullGauge.Text.Lower

/-!
# Packed bodies

A body can be packed in two ways, one after the other too. Packed blocks come behind a
head of two octets, with a checksum after the last one; a body without a proper head or
sum is taken for bare blocks. A body of the other kind begins with a mark that no text
has, so a text that is said to be packed in that way is refused as soon as its head has
been read.
-/

namespace PullGauge.Packing

inductive Coding where
  | zipped
  | deflated
  deriving DecidableEq

def Coding.ofName? (t : Text) : Option Coding :=
  let name := (Text.trim t).map Text.lowerAscii
  if name = "gzip".toList then some .zipped
  else if name = "deflate".toList then some .deflated
  else none

def codings (names : Text) : List Coding := (Text.cut ',' names).filterMap Coding.ofName?

def checkBase : Nat := 65521

def checksum (octets : List Nat) : Nat :=
  let (a, b) := octets.foldl (fun (a, b) o =>
    let a := (a + o) % checkBase
    (a, (b + a) % checkBase)) (1, 0)
  b * 65536 + a

def bigNumber? (bits : Bits) : Option Nat := do
  let (octets, _) ← takeNumbers 8 4 bits
  some (octets.foldl (fun n o => 256 * n + o) 0)

def framed? (octets : List Nat) : Option (List Nat) :=
  match octets with
  | method :: flags :: body =>
    if (256 * method + flags) % 31 ≠ 0 ∨ method % 16 ≠ 8 ∨ 7 < method / 16 then none
    else if flags / 32 % 2 = 1 then if body.length < 4 then some [] else none
    else match inflate (bitsOf body) with
      | .error _ => none
      | .ok (out, none) => some out.reverse
      | .ok (out, some rest) =>
        match bigNumber? (alignOctet rest) with
        | some n => if n = checksum out.reverse then some out.reverse else none
        | none => some out.reverse
  | _ => some []

def Coding.unpack (octets : List Nat) : Coding → Except Flaw (List Nat)
  | .zipped => if octets.length < 2 then .ok [] else .error .head
  | .deflated =>
    match framed? octets with
    | some out => .ok out
    | none => (inflate (bitsOf octets)).map fun (out, _) => out.reverse

def unpack (codings : List Coding) (octets : List Nat) : Except Flaw (List Nat) :=
  codings.reverse.foldlM Coding.unpack octets

end PullGauge.Packing
