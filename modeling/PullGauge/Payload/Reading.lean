import PullGauge.Payload.Basic
import PullGauge.Number.Reading
import PullGauge.Text.Hex

/-!
# Reading payloads

The interchange format, with three additions: the words for the numbers that are not
finite are read. Of a key that comes twice the later value counts. Reading a value calls
for another value only after a character has been read, so twice the length of the text
bounds the depth of the calls.
-/

namespace PullGauge.Payload.Reading

def isGap (c : Char) : Bool := c == ' ' || c == '\t' || c == '\n' || c == '\r'

def skip (t : Text) : Text := t.dropWhile isGap

def unit? : Text → Option (Nat × Text)
  | a :: b :: c :: d :: r => do
    let w ← Text.hexValue? a
    let x ← Text.hexValue? b
    let y ← Text.hexValue? c
    let z ← Text.hexValue? d
    some (w * 0x1000 + x * 0x100 + y * 0x10 + z, r)
  | _ => none

def shortEscape? (c : Char) : Option Char :=
  if c = '"' ∨ c = '\\' ∨ c = '/' then some c
  else if c = 'b' then some '\x08'
  else if c = 'f' then some '\x0c'
  else if c = 'n' then some '\n'
  else if c = 'r' then some '\r'
  else if c = 't' then some '\t'
  else none

def pair? (high : Nat) (t : Text) : Option (Char × Text) :=
  match t with
  | '\\' :: 'u' :: r =>
    if 0xd800 ≤ high ∧ high < 0xdc00 then
      match unit? r with
      | some (low, r) =>
        if 0xdc00 ≤ low ∧ low < 0xe000 then
          some (Char.ofNat (0x10000 + (high - 0xd800) * 0x400 + (low - 0xdc00)), r)
        else none
      | none => none
    else none
  | _ => none

/-- A unit as a character; half a pair is shown as the replacement character. -/
def unitChar (n : Nat) : Char :=
  if 0xd800 ≤ n ∧ n < 0xe000 then '\ufffd' else Char.ofNat n

def quotedRest : Nat → Text → Option (Text × Text)
  | 0, _ => none
  | _ + 1, [] => none
  | fuel + 1, c :: r =>
    if c = '"' then some ([], r)
    else if c < ' ' then none
    else if c = '\\' then
      match r with
      | [] => none
      | 'u' :: r => do
        let (n, r) ← unit? r
        let (d, r) := (pair? n r).getD (unitChar n, r)
        let (t, r) ← quotedRest fuel r
        some (d :: t, r)
      | e :: r => do
        let d ← shortEscape? e
        let (t, r) ← quotedRest fuel r
        some (d :: t, r)
    else do
      let (t, r) ← quotedRest fuel r
      some (c :: t, r)

def isAsciiDigit (c : Char) : Bool := (Text.asciiDigit? c).isSome

def fraction : Text → Text × Text
  | '.' :: r =>
    let digits := r.takeWhile isAsciiDigit
    if digits.isEmpty then ([], '.' :: r) else (digits, r.drop digits.length)
  | t => ([], t)

def exponent (t : Text) : Option Int × Text :=
  match t with
  | [] => (none, t)
  | c :: r =>
    if c = 'e' ∨ c = 'E' then
      let (negative, body) := Reading.sign r
      let digits := body.takeWhile isAsciiDigit
      if digits.isEmpty then (none, t)
      else (some (Reading.signed negative (Text.digitsValue digits)), body.drop digits.length)
    else (none, t)

def whole : Text → Text
  | '0' :: _ => ['0']
  | t => t.takeWhile isAsciiDigit

def magnitude? (negative : Bool) (t : Text) : Option (Payload × Text) :=
  let digits := whole t
  if digits.isEmpty then none
  else
    let (places, r) := fraction (t.drop digits.length)
    let (power, r) := exponent r
    if places.isEmpty && power.isNone then
      if digits.length ≤ Reading.digitLimit then
        some (.int (Reading.signed negative (Text.digitsValue digits)), r)
      else none
    else
      let d : Decimal :=
        ⟨negative, Text.digitsValue (digits ++ places), power.getD 0 - places.length⟩
      some (.real d.toDouble, r)

def words : List (Text × Payload) :=
  [("null", .null), ("true", .bool true), ("false", .bool false),
   ("NaN", .real Binary64.notANumber), ("Infinity", .real Binary64.infinity),
   ("-Infinity", .real Binary64.negativeInfinity)]

def atom? (t : Text) : Option (Payload × Text) :=
  match words.find? fun (word, _) => word.isPrefixOf t with
  | some (word, p) => some (p, t.drop word.length)
  | none =>
    match t with
    | '-' :: r => magnitude? true r
    | t => magnitude? false t

mutual
def value? : Nat → Text → Option (Payload × Text)
  | 0, _ => none
  | fuel + 1, t =>
    match t with
    | '"' :: r => (quotedRest (r.length + 1) r).map fun (s, r) => (.text s, r)
    | '[' :: r =>
      match skip r with
      | ']' :: r => some (.list [], r)
      | r => (items? fuel r).map fun (items, r) => (.list items, r)
    | '\x7b' :: r =>
      match skip r with
      | '\x7d' :: r => some (.object [], r)
      | r => (fields? fuel [] r).map fun (fields, r) => (.object fields, r)
    | t => atom? t

def items? : Nat → Text → Option (List Payload × Text)
  | 0, _ => none
  | fuel + 1, t => do
    let (p, r) ← value? fuel t
    match skip r with
    | ',' :: r =>
      let (more, r) ← items? fuel (skip r)
      some (p :: more, r)
    | ']' :: r => some ([p], r)
    | _ => none

def fields? : Nat → Fields → Text → Option (Fields × Text)
  | 0, _, _ => none
  | fuel + 1, fields, t =>
    match t with
    | '"' :: r => do
      let (key, r) ← quotedRest (r.length + 1) r
      match skip r with
      | ':' :: r =>
        let (p, r) ← value? fuel (skip r)
        match skip r with
        | ',' :: r => fields? fuel (fields.put key p) (skip r)
        | '\x7d' :: r => some (fields.put key p, r)
        | _ => none
      | _ => none
    | _ => none
end

end PullGauge.Payload.Reading

namespace PullGauge

def Payload.read? (t : Text) : Option Payload := do
  let (p, r) ← Payload.Reading.value? (2 * t.length + 2) (Payload.Reading.skip t)
  if (Payload.Reading.skip r).isEmpty then some p else none

end PullGauge
