import PullGauge.Text.Basic

/-!
# UTF-8

A character as one to four octets, and back. Reading never fails: a sequence that
breaks off is shown as one replacement character, and the octet that broke it is
read again as the start of the next one.
-/

namespace PullGauge.Text.Utf8

def encodeChar (c : Char) : List Nat :=
  let n := c.toNat
  if n < 0x80 then [n]
  else if n < 0x800 then [0xc0 + n / 0x40, 0x80 + n % 0x40]
  else if n < 0x10000 then [0xe0 + n / 0x1000, 0x80 + n / 0x40 % 0x40, 0x80 + n % 0x40]
  else [0xf0 + n / 0x40000, 0x80 + n / 0x1000 % 0x40, 0x80 + n / 0x40 % 0x40, 0x80 + n % 0x40]

def encode (t : Text) : List Nat := t.flatMap encodeChar

def size (t : Text) : Nat := (encode t).length

def replacement : Char := '\ufffd'

/-- A character begun: the bits read so far, how many octets are missing, and the
range that the next one must lie in. -/
structure Begun where
  bits : Nat
  missing : Nat
  low : Nat
  high : Nat

def first (b : Nat) : Except (Option Char) Begun :=
  if b < 0x80 then .error (some (Char.ofNat b))
  else if b < 0xc2 then .error none
  else if b < 0xe0 then .ok ⟨b - 0xc0, 1, 0x80, 0xbf⟩
  else if b = 0xe0 then .ok ⟨0, 2, 0xa0, 0xbf⟩
  else if b = 0xed then .ok ⟨0xd, 2, 0x80, 0x9f⟩
  else if b < 0xf0 then .ok ⟨b - 0xe0, 2, 0x80, 0xbf⟩
  else if b = 0xf0 then .ok ⟨0, 3, 0x90, 0xbf⟩
  else if b < 0xf4 then .ok ⟨b - 0xf0, 3, 0x80, 0xbf⟩
  else if b = 0xf4 then .ok ⟨4, 3, 0x80, 0x8f⟩
  else .error none

def decodeFrom : Option Begun → List Nat → Text
  | none, [] => []
  | some _, [] => [replacement]
  | none, b :: r =>
    match first b with
    | .ok begun => decodeFrom (some begun) r
    | .error (some c) => c :: decodeFrom none r
    | .error none => replacement :: decodeFrom none r
  | some s, b :: r =>
    if s.low ≤ b ∧ b ≤ s.high then
      let bits := s.bits * 0x40 + (b - 0x80)
      if s.missing ≤ 1 then Char.ofNat bits :: decodeFrom none r
      else decodeFrom (some ⟨bits, s.missing - 1, 0x80, 0xbf⟩) r
    else
      replacement ::
        match first b with
        | .ok begun => decodeFrom (some begun) r
        | .error (some c) => c :: decodeFrom none r
        | .error none => replacement :: decodeFrom none r

def decode (octets : List Nat) : Text := decodeFrom none octets

end PullGauge.Text.Utf8
