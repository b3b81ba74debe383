import PullGauge.Packing.Codes

/-!
# Unpacking

Packed data come in blocks. A block is stored as it is, or written with two prefix codes:
one for octets and for the lengths of repeats, one for the distances at which repeats
begin. The codes of a block are fixed, or told at its start. Data that break off are
unpacked as far as they go; data that go wrong are refused.
-/

namespace PullGauge.Packing

inductive Flaw where
  | head
  | block
  | storedLength
  | counts
  | lengthCode
  | lengthRepeat
  | noEnd
  | octetCode
  | distanceCode
  | octetWord
  | distanceWord
  | tooFarBack
  deriving DecidableEq

def Flaw.name : Flaw → Text
  | .head => "incorrect header check"
  | .block => "invalid block type"
  | .storedLength => "invalid stored block lengths"
  | .counts => "too many length or distance symbols"
  | .lengthCode => "invalid code lengths set"
  | .lengthRepeat => "invalid bit length repeat"
  | .noEnd => "invalid code -- missing end-of-block"
  | .octetCode => "invalid literal/lengths set"
  | .distanceCode => "invalid distances set"
  | .octetWord => "invalid literal/length code"
  | .distanceWord => "invalid distance code"
  | .tooFarBack => "invalid distance too far back"

def Flaw.message (f : Flaw) : Text := "Error -3 while decompressing data: ".toList ++ f.name

/-- What was unpacked, latest octet first, and the bits that follow; no bits if the data
broke off. -/
abbrev Unpacked := List Nat × Option Bits

abbrev Scale := List (Nat × Nat)

def scaleFrom : Nat → List Nat → Scale
  | _, [] => []
  | base, extra :: more => (base, extra) :: scaleFrom (base + Nat.shiftLeft 1 extra) more

def lengthScale : Scale :=
  (scaleFrom 3 [0, 0, 0, 0, 0, 0, 0, 0, 1, 1, 1, 1, 2, 2, 2, 2, 3, 3, 3, 3, 4, 4, 4, 4, 5, 5, 5, 5]) ++
    [(258, 0)]

def distanceScale : Scale :=
  scaleFrom 1 [0, 0, 0, 0, 1, 1, 2, 2, 3, 3, 4, 4, 5, 5, 6, 6, 7, 7, 8, 8, 9, 9, 10, 10, 11, 11,
    12, 12, 13, 13]

def takeScaled (entry : Nat × Nat) (bits : Bits) : Option (Nat × Bits) :=
  (takeNumber entry.2 bits).map fun (v, bits) => (entry.1 + v, bits)

def repeatOctets (distance : Nat) : Nat → List Nat → List Nat
  | 0, out => out
  | length + 1, out => repeatOctets distance length ((out[distance - 1]?).getD 0 :: out)

def endOfBlock : Nat := 256

def codedBlock (octets distances : Codes) : Nat → Bits → List Nat → Except Flaw Unpacked
  | 0, _, out => .ok (out, none)
  | fuel + 1, bits, out =>
    match octets.find bits with
    | .short => .ok (out, none)
    | .noWord _ => .error .octetWord
    | .symbol s bits =>
      if s < endOfBlock then codedBlock octets distances fuel bits (s :: out)
      else if s = endOfBlock then .ok (out, some bits)
      else match lengthScale[s - 257]? with
        | none => .error .octetWord
        | some entry =>
          match takeScaled entry bits with
          | none => .ok (out, none)
          | some (length, bits) =>
            match distances.find bits with
            | .short => .ok (out, none)
            | .noWord _ => .error .distanceWord
            | .symbol s bits =>
              match distanceScale[s]? with
              | none => .error .distanceWord
              | some entry =>
                match takeScaled entry bits with
                | none => .ok (out, none)
                | some (distance, bits) =>
                  if out.length < distance then .error .tooFarBack
                  else codedBlock octets distances fuel bits (repeatOctets distance length out)

def alignOctet (bits : Bits) : Bits := bits.drop (bits.length % 8)

def copyOctets : Nat → Bits → List Nat → Unpacked
  | 0, bits, out => (out, some bits)
  | n + 1, bits, out =>
    match takeNumber 8 bits with
    | none => (out, none)
    | some (octet, bits) => copyOctets n bits (octet :: out)

def storedBlock (bits : Bits) (out : List Nat) : Except Flaw Unpacked :=
  let read := do
    let (length, bits) ← takeNumber 16 (alignOctet bits)
    let (complement, bits) ← takeNumber 16 bits
    some (length, complement, bits)
  match read with
  | none => .ok (out, none)
  | some (length, complement, bits) =>
    if length + complement = 65535 then .ok (copyOctets length bits out) else .error .storedLength

def fixedOctets : Codes :=
  .ofLengths (List.replicate 144 8 ++ List.replicate 112 9 ++ List.replicate 24 7 ++
    List.replicate 8 8)

def fixedDistances : Codes := .ofLengths (List.replicate 32 5)

def lengthOrder : List Nat := [16, 17, 18, 0, 8, 7, 9, 6, 10, 5, 11, 4, 12, 3, 13, 2, 14, 1, 15]

def takeNumbers (width : Nat) : Nat → Bits → Option (List Nat × Bits)
  | 0, bits => some ([], bits)
  | n + 1, bits => do
    let (v, bits) ← takeNumber width bits
    let (more, bits) ← takeNumbers width n bits
    some (v :: more, bits)

def lengthRun (s : Nat) (before : Option Nat) (bits : Bits) :
    Option (Except Flaw (Nat × Nat × Bits)) :=
  let times (length base width : Nat) : Option (Except Flaw (Nat × Nat × Bits)) :=
    (takeNumber width bits).map fun (v, bits) => .ok (length, base + v, bits)
  if s < 16 then some (.ok (s, 1, bits))
  else if s = 16 then
    match before with
    | some length => times length 3 2
    | none => (takeNumber 2 bits).map fun _ => .error .lengthRepeat
  else if s = 17 then times 0 3 3
  else times 0 11 7

def takeLengths (codes : Codes) (total : Nat) : Nat → Bits → List Nat →
    Except Flaw (Option (List Nat × Bits))
  | 0, bits, lengths => .ok (some (lengths, bits))
  | fuel + 1, bits, lengths =>
    if total ≤ lengths.length then .ok (some (lengths, bits))
    else
      let run := match codes.find bits with
        | .short => none
        | .noWord bits => lengthRun 0 lengths.head? bits
        | .symbol s bits => lengthRun s lengths.head? bits
      match run with
      | none => .ok none
      | some (.error flaw) => .error flaw
      | some (.ok (length, n, bits)) =>
        if total < lengths.length + n then .error .lengthRepeat
        else takeLengths codes total fuel bits (List.replicate n length ++ lengths)

def takeCodes (bits : Bits) : Except Flaw (Option (Codes × Codes × Bits)) := do
  let read := do
    let (octets, bits) ← takeNumber 5 bits
    let (distances, bits) ← takeNumber 5 bits
    let (told, bits) ← takeNumber 4 bits
    some (octets + 257, distances + 1, told + 4, bits)
  match read with
  | none => pure none
  | some (octets, distances, told, bits) =>
    if 286 < octets ∨ 30 < distances then throw .counts
    match takeNumbers 3 told bits with
    | none => pure none
    | some (lengths, bits) =>
      let lengths := (List.range 19).map fun s => ((lengthOrder.zip lengths).lookup s).getD 0
      if !isCode false lengths then throw .lengthCode
      match ← takeLengths (.ofLengths lengths) (octets + distances) (octets + distances) bits []
        with
      | none => pure none
      | some (lengths, bits) =>
        let forOctets := lengths.reverse.take octets
        let forDistances := lengths.reverse.drop octets
        if forOctets[endOfBlock]? = some 0 then throw .noEnd
        if !isCode true forOctets then throw .octetCode
        if !isCode true forDistances then throw .distanceCode
        pure (some (.ofLengths forOctets, .ofLengths forDistances, bits))

def block (kind : Nat) (bits : Bits) (out : List Nat) : Except Flaw Unpacked :=
  if kind = 0 then storedBlock bits out
  else if kind = 1 then codedBlock fixedOctets fixedDistances bits.length bits out
  else if kind = 2 then
    match takeCodes bits with
    | .error flaw => .error flaw
    | .ok none => .ok (out, none)
    | .ok (some (octets, distances, bits)) => codedBlock octets distances bits.length bits out
  else .error .block

def blocks : Nat → Bits → List Nat → Except Flaw Unpacked
  | 0, _, out => .ok (out, none)
  | fuel + 1, bits, out =>
    match takeNumber 3 bits with
    | none => .ok (out, none)
    | some (head, bits) => do
      match ← block (head / 2) bits out with
      | (out, none) => pure (out, none)
      | (out, some bits) => if head % 2 = 1 then pure (out, some bits) else blocks fuel bits out

def inflate (bits : Bits) : Except Flaw Unpacked := blocks bits.length bits []

end PullGauge.Packing
