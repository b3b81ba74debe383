import PullGauge.Text.Ranges
import PullGauge.Text.Basic

/-!
# Blanks

A blank separates words: tab to carriage return, the four information separators, the
space, and every space or line separator beyond ASCII. The zero-width space and the
byte order mark are not blanks.
-/

namespace PullGauge.Text

def blankRanges : List Range :=
  [(0x9, 0xd), (0x1c, 0x20), (0x85, 0x85), (0xa0, 0xa0), (0x1680, 0x1680), (0x2000, 0x200a),
   (0x2028, 0x2029), (0x202f, 0x202f), (0x205f, 0x205f), (0x3000, 0x3000)]

def isBlank (c : Char) : Bool := inRanges c.toNat blankRanges

/-- The blanks that may surround a written number: the information separators may not. -/
def isNumberBlank (c : Char) : Bool := isBlank c && !(decide ('\x1c' ≤ c) && decide (c ≤ '\x1f'))

def trim (t : Text) : Text := trimBy isBlank t

def closeWord (word : Text) (words : List Text) : List Text :=
  if word.isEmpty then words else word.reverse :: words

def wordsFrom (word : Text) : Text → List Text
  | [] => closeWord word []
  | c :: r => if isBlank c then closeWord word (wordsFrom [] r) else wordsFrom (c :: word) r

def words (t : Text) : List Text := wordsFrom [] t

end PullGauge.Text
