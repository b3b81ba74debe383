import PullGauge.Host.Letters
import PullGauge.Host.Joining
import PullGauge.Text.Punycode
import PullGauge.Text.Lower

/-!
# Labels

A label is a part of a host name. What it may hold is said character by character, except
that some characters are at home only beside certain others. A label that is not ASCII is
sent in letters, digits and hyphens.
-/

namespace PullGauge.Host

def isAscii (t : Text) : Bool := t.all Text.Punycode.isBasic

def isArabicDigit (c : Char) : Bool := decide ('\u0660' ≤ c) && decide (c ≤ '\u0669')

def isPersianDigit (c : Char) : Bool := decide ('\u06f0' ≤ c) && decide (c ≤ '\u06f9')

def isAtHome (label before : Text) (c : Char) (after : Text) : Bool :=
  isLetter c ||
    match c with
    | '\u200c' => partsLetters before after
    | '\u200d' => followsSilencer before
    | '·' => before.head? == some 'l' && after.head? == some 'l'
    | '\u0375' => after.head?.any isGreek
    | '\u05f3' | '\u05f4' => before.head?.any isHebrew
    | '\u30fb' => label.any isJapanese
    | c =>
      (isArabicDigit c && !label.any isPersianDigit) ||
        (isPersianDigit c && !label.any isArabicDigit)

def areAtHome (label before : Text) : Text → Bool
  | [] => true
  | c :: r => isAtHome label before c r && areAtHome label (c :: before) r

def hyphensFit (t : Text) : Bool :=
  t.head? != some '-' && t.getLast? != some '-' && (t.drop 2).take 2 != ['-', '-']

def nameLimit : Nat := 253

def isLabel (t : Text) : Bool :=
  !t.isEmpty && decide (t.length ≤ nameLimit + 1) && Text.isComposed t && hyphensFit t &&
    !t.head?.any isMark && areAtHome t [] t && isReadable t

def mark : Text := "xn--"

/-- The label that is meant; one that is not ASCII means itself. -/
def meant? (t : Text) : Option Text :=
  let told := if isAscii t then t.map Text.lowerAscii else t
  match Text.dropPiece? mark told with
  | some spelling =>
    if spelling.isEmpty || spelling.getLast? == some '-' then none
    else (Text.Punycode.read? spelling).filter isLabel
  | none => if isLabel told then some told else none

def labelLimit : Nat := 63

def sent? (t : Text) : Option Text :=
  let spelled? :=
    if isAscii t then (meant? t).map fun _ => t
    else if isLabel t then some (mark ++ Text.Punycode.write t)
    else none
  spelled?.filter fun s => decide (s.length ≤ labelLimit)

end PullGauge.Host
