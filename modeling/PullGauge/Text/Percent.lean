import PullGauge.Text.Hex
import PullGauge.Text.Utf8

/-!
# Percent encoding and form encoding

An octet may be written as a percent sign and two hexadecimal digits. A form is a
list of keys and values in which a space is written as a plus sign.
-/

namespace PullGauge.Text

def percentOctet (b : Nat) : Text := ['%', upperHexDigit (b / 16), upperHexDigit (b % 16)]

def percentEncode (keep : Char → Bool) (t : Text) : Text :=
  t.flatMap fun c => if keep c then [c] else (Utf8.encodeChar c).flatMap percentOctet

/-- The octets of a text in which some are percent-encoded; a percent sign that two
hexadecimal digits do not follow stands for itself. -/
def percentOctets : Text → List Nat
  | [] => []
  | '%' :: a :: b :: r =>
    match hexValue? a, hexValue? b with
    | some x, some y => (16 * x + y) :: percentOctets r
    | _, _ => 0x25 :: percentOctets (a :: b :: r)
  | c :: r => Utf8.encodeChar c ++ percentOctets r

def percentDecode (t : Text) : Text := Utf8.decode (percentOctets t)

namespace Form

def isPlain (c : Char) : Bool :=
  (decide ('a' ≤ c) && decide (c ≤ 'z')) || (decide ('A' ≤ c) && decide (c ≤ 'Z')) ||
    (decide ('0' ≤ c) && decide (c ≤ '9')) || c == '_' || c == '.' || c == '-' || c == '~'

def encode (t : Text) : Text :=
  (percentEncode (fun c => isPlain c || c == ' ') t).map fun c => if c = ' ' then '+' else c

def decode (t : Text) : Text :=
  percentDecode (t.map fun c => if c = '+' then ' ' else c)

def write (pairs : List (Text × Text)) : Text :=
  List.intercalate ['&'] (pairs.map fun (key, value) => encode key ++ '=' :: encode value)

def readPair (piece : Text) : Text × Text :=
  match splitAtFirst ['='] piece with
  | some (key, value) => (decode key, decode value)
  | none => (decode piece, [])

def read (t : Text) : List (Text × Text) :=
  ((cut '&' t).filter fun piece => !piece.isEmpty).map readPair

end Form

end PullGauge.Text
