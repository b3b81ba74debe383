import PullGauge.Number.Written
import PullGauge.Text.Digit
import PullGauge.Text.Fold
import PullGauge.Text.Quoted
import PullGauge.Text.WordChar

/-!
# Line formats

A format is a text with fields. A field names a value between parentheses after a percent
sign, then says how it is laid out and ends with the letter of a conversion. A format
that cannot be read, or that asks for a value or a conversion that does not exist, writes
nothing at all.
-/

namespace PullGauge

namespace LineFormat

structure Layout where
  left : Bool
  plus : Bool
  blank : Bool
  based : Bool
  zeros : Bool
  width : Nat
  /-- The greatest length of a text, the least of a number. -/
  precision : Option Nat
  deriving DecidableEq

inductive Piece where
  | literal (c : Char)
  | field (name : Text) (layout : Layout) (conversion : Char)
  deriving DecidableEq

inductive Value where
  | text (t : Text)
  | number (n : Int)
  | mark (t : Text)
  deriving DecidableEq

/-! ### Writing a value -/

namespace Layout

def pad (l : Layout) (t : Text) : Text :=
  let fill := List.replicate (l.width - t.length) ' '
  if l.left then t ++ fill else fill ++ t

def setText (l : Layout) (t : Text) : Text := l.pad (t.take (l.precision.getD t.length))

def setNumber (l : Layout) (negative : Bool) (mark digits : Text) : Text :=
  let sign : Text :=
    if negative then ['-'] else if l.plus then ['+'] else if l.blank then [' '] else []
  let head := sign ++ if l.based then mark else []
  if l.zeros && !l.left then head ++ Text.padZeros (l.width - head.length) digits
  else l.pad (head ++ digits)

end Layout

def digitsIn (base n : Nat) : Text := Nat.toDigits base n

def Value.display : Value → Text
  | .text t => t
  | .number n => Text.ofInt n
  | .mark t => t

def Value.quoted : Value → Text
  | .text t => Text.quoted t
  | v => v.display

def Value.asciiQuoted : Value → Text
  | .text t => (Text.quoted t).flatMap Text.escapeWide
  | v => v.display

def writeInteger (l : Layout) (n : Int) (base : Nat) (mark : Text) (shape : Char → Char) : Text :=
  l.setNumber (decide (n < 0)) mark
    (Text.padZeros (l.precision.getD 0) ((digitsIn base n.natAbs).map shape))

def writePointed (l : Layout) (n : Int) : Option Text :=
  (Binary64.ofInt? n.natAbs).map fun x =>
    l.setNumber (decide (n < 0)) [] (writeFixed (l.precision.getD 6) x)

def Value.asChar? : Value → Option Char
  | .text [c] => some c
  | .number n => if 0 ≤ n ∧ n.toNat.isValidChar then some (Char.ofNat n.toNat) else none
  | _ => none

def Value.write? (l : Layout) (conversion : Char) (v : Value) : Option Text :=
  match conversion, v with
  | 's', v => some (l.setText v.display)
  | 'r', v => some (l.setText v.quoted)
  | 'a', v => some (l.setText v.asciiQuoted)
  | 'c', v => v.asChar?.map fun c => l.pad [c]
  | 'd', .number n => some (writeInteger l n 10 [] id)
  | 'i', .number n => some (writeInteger l n 10 [] id)
  | 'u', .number n => some (writeInteger l n 10 [] id)
  | 'o', .number n => some (writeInteger l n 8 "0o" id)
  | 'x', .number n => some (writeInteger l n 16 "0x" id)
  | 'X', .number n => some (writeInteger l n 16 "0X" Char.toUpper)
  | 'f', .number n => writePointed l n
  | 'F', .number n => writePointed l n
  | _, _ => none

/-! ### Reading a format -/

def closeAt : Nat → Text → Option (Text × Text)
  | _, [] => none
  | depth, c :: r =>
    if c = ')' then
      match depth with
      | 0 => some ([], r)
      | depth + 1 => (closeAt depth r).map fun (name, rest) => (c :: name, rest)
    else
      (closeAt (if c = '(' then depth + 1 else depth) r).map fun (name, rest) => (c :: name, rest)

def isFlag (c : Char) : Bool := "-+ #0".toList.contains c

def readNumber (t : Text) : Nat × Text :=
  (Text.digitsValue (t.takeWhile Text.isAsciiDigit), t.dropWhile Text.isAsciiDigit)

def readLayout (t : Text) : Layout × Text :=
  let flags := t.takeWhile isFlag
  let (width, t) := readNumber (t.dropWhile isFlag)
  let (precision, t) : Option Nat × Text := match t with
    | '.' :: t => let (n, t) := readNumber t; (some n, t)
    | t => (none, t)
  (⟨flags.contains '-', flags.contains '+', flags.contains ' ', flags.contains '#',
    flags.contains '0', width, precision⟩, t)

def dropSize : Text → Text
  | [] => []
  | c :: r => if c = 'h' ∨ c = 'l' ∨ c = 'L' then r else c :: r

def widthLimit : Nat := 9223372036854775807

def precisionLimit : Nat := 2147483647

def Layout.isMeasured (l : Layout) : Bool :=
  decide (l.width ≤ widthLimit) && l.precision.all fun n => decide (n ≤ precisionLimit)

def readField? : Text → Option (Piece × Text)
  | '%' :: r => some (.literal '%', r)
  | '(' :: r => do
    let (name, rest) ← closeAt 0 r
    let (layout, rest) := readLayout rest
    match dropSize rest with
    | [] => none
    | conversion :: rest =>
      if layout.isMeasured then some (.field name layout conversion, rest) else none
  | _ => none

/-- The pieces of a format; `skip` characters belong to a field that was read. -/
def piecesFrom : Nat → Text → Option (List Piece)
  | _, [] => some []
  | skip + 1, _ :: r => piecesFrom skip r
  | 0, c :: r =>
    if c = '%' then do
      let (piece, rest) ← readField? r
      pure (piece :: (← piecesFrom (r.length - rest.length) r))
    else do pure (.literal c :: (← piecesFrom 0 r))

def pieces? (format : Text) : Option (List Piece) := piecesFrom 0 format

def Piece.write? (values : List (Text × Value)) : Piece → Option Text
  | .literal c => some [c]
  | .field name layout conversion => do (← values.lookup name).write? layout conversion

def write? (format : Text) (values : List (Text × Value)) : Option Text := do
  pure (← (← pieces? format).mapM (Piece.write? values)).flatten

/-! ### Formats that are accepted -/

def conversionLetters : List Char := "diouxefgcrsa%".toList

def dropCount? : Text → Option Text
  | [] => none
  | c :: r =>
    if c = '*' then some r
    else if Text.isDigit c then some (r.dropWhile Text.isDigit)
    else none

def dropPrecision (t : Text) : Text :=
  match t with
  | '.' :: r => (dropCount? r).getD t
  | t => t

def startsField (t : Text) : Bool :=
  match Text.dropPiece? "%(" t with
  | none => false
  | some t =>
    match t.dropWhile Text.isWordChar with
    | ')' :: after =>
      let behind := after.dropWhile isFlag
      t.head? != some ')' && (dropPrecision ((dropCount? behind).getD behind)).head?.any fun c =>
        conversionLetters.contains (Text.foldChar c)
    | _ => false

def hasField : Text → Bool
  | [] => false
  | c :: r => startsField (c :: r) || hasField r

end LineFormat

end PullGauge
