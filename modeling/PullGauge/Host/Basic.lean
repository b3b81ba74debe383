import PullGauge.Host.Name
import PullGauge.Host.Numeric
import PullGauge.Text.Percent
import PullGauge.Text.Quoted

/-!
# Hosts

A host is written as numbers or as a name. It is kept as it is sent: in ASCII, a name in
small letters, groups of numbers without the brackets around them.
-/

namespace PullGauge.Host

inductive Flaw where
  | octets (t : Text)
  | groups (t : Text)
  | name (t : Text)

def Flaw.message : Flaw → Text
  | .octets t => "Invalid IPv4 address: ".toList ++ Text.quoted t
  | .groups t => "Invalid IPv6 address: ".toList ++ Text.quoted t
  | .name t => "Invalid IDNA hostname: ".toList ++ Text.quoted t

def keeps (c : Char) : Bool :=
  Text.Form.isPlain c || "!$&'()*+,;=\"\x60\x7b\x7d%|\\".toList.contains c

def bracketed? (t : Text) : Option Text :=
  match t with
  | '[' :: r => if r.getLast? == some ']' then some r.dropLast else none
  | _ => none

def read (t : Text) : Except Flaw Text :=
  if t.isEmpty then .ok []
  else if looksNumeric t then
    if isQuad t then .ok t else .error (.octets t)
  else match bracketed? t with
  | some groups => if isZoned groups then .ok groups else .error (.groups t)
  | none =>
    if isAscii t then .ok (Text.percentEncode keeps (t.map Text.lowerAscii))
    else match encodeName? (Text.lower t) with
    | some name => .ok name
    | none => .error (.name t)

def write (host : Text) : Text := if host.contains ':' then '[' :: host ++ [']'] else host

def isTellable (host : Text) : Bool :=
  isAscii host && (!mark.isPrefixOf host || (decodeName? host).isSome)

end PullGauge.Host
