import PullGauge.Text.Utf8

/-!
# Texts of payloads as octets

The text of a payload can be written in units of one, two or four octets, the greater
units in either order. Its first octets tell which: by a mark, or because the first
character of a payload is ASCII and leaves the other octets of its unit empty.
-/

namespace PullGauge.Payload

def utf8? (octets : List Nat) : Option Text :=
  let t := Text.Utf8.decode octets
  if Text.Utf8.encode t = octets then some t else none

def pairs? (base : Nat) (bigFirst : Bool) : List Nat → Option (List Nat)
  | [] => some []
  | [_] => none
  | a :: b :: r => (pairs? base bigFirst r).map fun more =>
    (if bigFirst then base * a + b else base * b + a) :: more

def charAt? (n : Nat) : Option Char := if n.isValidChar then some (Char.ofNat n) else none

def ofUnits? : List Nat → Option Text
  | [] => some []
  | [n] => (charAt? n).map fun c => [c]
  | m :: n :: r =>
    if 0xd800 ≤ m ∧ m < 0xdc00 then
      if 0xdc00 ≤ n ∧ n < 0xe000 then do
        let c ← charAt? (0x10000 + (m - 0xd800) * 0x400 + (n - 0xdc00))
        some (c :: (← ofUnits? r))
      else none
    else do
      let c ← charAt? m
      some (c :: (← ofUnits? (n :: r)))
termination_by units => units.length

def utf16? (bigFirst : Bool) (octets : List Nat) : Option Text :=
  (pairs? 256 bigFirst octets).bind ofUnits?

def utf32? (bigFirst : Bool) (octets : List Nat) : Option Text := do
  let units ← pairs? 256 bigFirst octets
  (← pairs? 65536 bigFirst units).mapM charAt?

def textOf? (octets : List Nat) : Option Text :=
  match octets with
  | 0 :: 0 :: 0xfe :: 0xff :: r => utf32? true r
  | 0xff :: 0xfe :: 0 :: 0 :: r => utf32? false r
  | 0xfe :: 0xff :: r => utf16? true r
  | 0xff :: 0xfe :: r => utf16? false r
  | 0xef :: 0xbb :: 0xbf :: r => utf8? r
  | a :: b :: c :: d :: _ =>
    if a = 0 then if b = 0 then utf32? true octets else utf16? true octets
    else if b = 0 then if c = 0 ∧ d = 0 then utf32? false octets else utf16? false octets
    else utf8? octets
  | [a, b] =>
    if a = 0 then utf16? true octets
    else if b = 0 then utf16? false octets
    else utf8? octets
  | octets => utf8? octets

end PullGauge.Payload
