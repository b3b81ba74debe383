import PullGauge.Text.Basic

/-!
# Prefix codes

A prefix code is told by the lengths of its code words, one for each symbol; a length of
zero leaves the symbol out. Words of one length are given to their symbols in order, and
each length goes on where the shorter ones end. Bits are read one at a time, and as many
as the symbol needs.
-/

namespace PullGauge.Packing

abbrev Bits := List Bool

def takeNumber : Nat → Bits → Option (Nat × Bits)
  | 0, bits => some (0, bits)
  | _ + 1, [] => none
  | n + 1, b :: bits => (takeNumber n bits).map fun (v, bits) => (2 * v + b.toNat, bits)

def bitsOf (octets : List Nat) : Bits :=
  octets.flatMap fun o => (List.range 8).map o.testBit

/-- A code: how many words each length has, from one bit on, and the symbols in the order
of their words. -/
structure Codes where
  counts : List Nat
  symbols : List Nat

def symbolsOf (lengths : List Nat) (length : Nat) : List Nat :=
  (List.range lengths.length).filter fun s => lengths[s]? == some length

def wordBound (lengths : List Nat) : Nat := max 1 (lengths.foldl max 0)

def Codes.ofLengths (lengths : List Nat) : Codes :=
  let groups := (List.range (wordBound lengths)).map fun n => symbolsOf lengths (n + 1)
  ⟨groups.map List.length, groups.flatten⟩

inductive Found where
  | symbol (s : Nat) (rest : Bits)
  | noWord (rest : Bits)
  | short

/-- Reads on in the words that are at least one bit longer; `word` is what was read, and
`first` the first word of the length before, doubled past the last one. -/
def findFrom (word first : Nat) : List Nat → List Nat → Bits → Found
  | [], _, bits => .noWord bits
  | _ :: _, _, [] => .short
  | count :: counts, symbols, b :: bits =>
    let word := word + b.toNat
    match if word < first + count then symbols[word - first]? else none with
    | some s => .symbol s bits
    | none => findFrom (2 * word) (2 * (first + count)) counts (symbols.drop count) bits

def Codes.find (c : Codes) (bits : Bits) : Found := findFrom 0 0 c.counts c.symbols bits

def freeWords (counts : List Nat) : Option Nat :=
  counts.foldlM (fun free count => if count ≤ 2 * free then some (2 * free - count) else none) 1

/-- Whether lengths make a code in which every word is used up. A code of no word passes,
and where `lone` says so a code of a single bit. -/
def isCode (lone : Bool) (lengths : List Nat) : Bool :=
  let greatest := lengths.foldl max 0
  match freeWords (Codes.ofLengths lengths).counts with
  | none => false
  | some free => free == 0 || greatest == 0 || (lone && greatest == 1)

end PullGauge.Packing
