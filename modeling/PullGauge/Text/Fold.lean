import PullGauge.Text.Basic

/-!
# Matching without regard to case

Patterns made of ASCII letters match in either case, and four characters beyond ASCII
match the letter whose case they share: the dotted capital I and the dotless i match
an i, the long s matches an s, and the kelvin sign matches a k.
-/

namespace PullGauge.Text

def foldChar (c : Char) : Char :=
  if 'A' ≤ c ∧ c ≤ 'Z' then Char.ofNat (c.toNat + 32)
  else if c = '\u0130' ∨ c = '\u0131' then 'i'
  else if c = '\u017f' then 's'
  else if c = '\u212a' then 'k'
  else c

def dropFolded : Text → Text → Option Text
  | [], t => some t
  | _ :: _, [] => none
  | p :: piece, c :: t => if foldChar c = p then dropFolded piece t else none

def startsFolded (piece t : Text) : Bool := (dropFolded piece t).isSome

end PullGauge.Text
