import PullGauge.Text.Blank
import PullGauge.Text.Fold
import PullGauge.Text.WordChar

/-!
# Masking credentials in text

Four shapes of text give a credential away: a scheme word with a value behind it, two
families of access tokens, and an assignment to a secret name. Each is described by how
many characters of a text, from its head on, have that shape, and what stands in their
place. The shapes are masked one after the other, each from left to right, and the
characters that were replaced are not looked at again for the same shape.
-/

namespace PullGauge

namespace Masking

/-- The characters that a shape takes at the head of a text, and their replacement. The
first argument is the character just before the head. -/
abbrev Shape := Option Char → Text → Option (Nat × Text)

def maskFrom (shape : Shape) (before : Option Char) : Nat → Text → Text
  | _, [] => []
  | skip + 1, c :: r => maskFrom shape (some c) skip r
  | 0, c :: r =>
    match shape before (c :: r) with
    | some (n + 1, replacement) => replacement ++ maskFrom shape (some c) n r
    | _ => c :: maskFrom shape (some c) 0 r

def wordAtHead (words : List Text) (t : Text) : Option (Text × Text) :=
  words.findSome? fun w => (Text.dropFolded w t).map fun rest => (t.take w.length, rest)

def schemeWords : List Text := ["bearer", "token"]

def isSchemeValueChar (c : Char) : Bool :=
  let d := Text.foldChar c
  Text.isAsciiLetter d || Text.isAsciiDigit d || d == '_' || d == '-' || d == '.'

def schemeShape : Shape := fun _ t =>
  match wordAtHead schemeWords t with
  | none => none
  | some (word, rest) =>
    let blanks := rest.takeWhile Text.isBlank
    let value := (rest.drop blanks.length).takeWhile isSchemeValueChar
    if blanks.isEmpty || value.isEmpty then none
    else some (word.length + blanks.length + value.length, word ++ " [REDACTED]".toList)

def isAlphanumeric (c : Char) : Bool := Text.isAsciiLetter c || Text.isAsciiDigit c

def isWordAt (c : Option Char) : Bool := c.any Text.isWordChar

def tokenLength : Nat := 20

def tokenShape (marks : List Text) (inToken : Char → Bool) : Shape := fun before t =>
  if isWordAt before then none
  else match marks.find? fun mark => mark.isPrefixOf t with
    | none => none
    | some mark =>
      let rest := t.drop mark.length
      let value := rest.takeWhile inToken
      if value.length < tokenLength || isWordAt (rest.drop value.length).head? then none
      else some (mark.length + value.length, "[TOKEN_REDACTED]".toList)

def classicMarks : List Text := ["ghp_", "gho_", "ghu_", "ghs_", "ghr_"]

def classicShape : Shape := tokenShape classicMarks isAlphanumeric

def fineGrainedShape : Shape :=
  tokenShape ["github_pat_"] fun c => isAlphanumeric c || c == '_'

def secretWords : List Text := ["secret", "token", "password", "credential"]

def isQuote (c : Char) : Bool := c == '\x27' || c == '"'

def dropOne? (p : Char → Bool) : Text → Option Text
  | [] => none
  | c :: r => if p c then some r else none

def dropAssigned? (t : Text) : Option Text := do
  let t := (dropOne? isQuote t).getD t
  let t ← dropOne? (fun c => c == ':' || c == '=') (t.dropWhile Text.isBlank)
  let t ← dropOne? isQuote (t.dropWhile Text.isBlank)
  let value := t.takeWhile fun c => !isQuote c
  if value.isEmpty then none else dropOne? isQuote (t.drop value.length)

def assignmentShape : Shape := fun _ t =>
  match wordAtHead secretWords t with
  | none => none
  | some (word, rest) =>
    (dropAssigned? rest).map fun after =>
      (t.length - after.length, word ++ ": [REDACTED]".toList)

def shapes : List Shape := [schemeShape, classicShape, fineGrainedShape, assignmentShape]

end Masking

def mask (t : Text) : Text :=
  Masking.shapes.foldl (fun t shape => Masking.maskFrom shape none 0 t) t

end PullGauge
