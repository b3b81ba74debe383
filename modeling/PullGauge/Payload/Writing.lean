import PullGauge.Payload.Basic
import PullGauge.Text.Quoted

/-!
# Writing payloads

In the interchange format, and as messages show them.
-/

namespace PullGauge.Payload

def bareNumber (x : Float) : Text :=
  if Binary64.isNaN x then "NaN"
  else if Binary64.isNegative x then "-Infinity"
  else "Infinity"

structure Style where
  special : Float → Text := bareNumber
  quoted : Text → Text := Text.asciiQuoted
  gap : Text := [' ']

def Style.ascii : Style := {}

def Style.dense : Style := { quoted := Text.doubleQuoted, gap := [] }

mutual
def write (style : Style) : Payload → Text
  | .null => "null"
  | .bool true => "true"
  | .bool false => "false"
  | .int i => Text.ofInt i
  | .real x => if Binary64.isFinite x then NumberStyle.plain.write x else style.special x
  | .text t => style.quoted t
  | .list items => '[' :: writeItems style items ++ [']']
  | .object fields => '\x7b' :: writeFields style fields ++ ['\x7d']
termination_by structural p => p

def writeItems (style : Style) : List Payload → Text
  | [] => []
  | [p] => write style p
  | p :: r => write style p ++ ',' :: style.gap ++ writeItems style r
termination_by structural p => p

def writeFields (style : Style) : List (Text × Payload) → Text
  | [] => []
  | [(k, p)] => style.quoted k ++ ':' :: style.gap ++ write style p
  | (k, p) :: r =>
    style.quoted k ++ ':' :: style.gap ++ write style p ++ ',' :: style.gap ++
      writeFields style r
termination_by structural p => p
end

mutual
/-- A payload inside a message: texts are quoted. -/
def shown : Payload → Text
  | .null => "None"
  | .bool true => "True"
  | .bool false => "False"
  | .int i => Text.ofInt i
  | .real x => NumberStyle.plain.write x
  | .text t => Text.quoted t
  | .list items => '[' :: shownItems items ++ [']']
  | .object fields => '\x7b' :: shownFields fields ++ ['\x7d']
termination_by structural p => p

def shownItems : List Payload → Text
  | [] => []
  | [p] => shown p
  | p :: r => shown p ++ ',' :: ' ' :: shownItems r
termination_by structural p => p

def shownFields : List (Text × Payload) → Text
  | [] => []
  | [(k, p)] => Text.quoted k ++ ':' :: ' ' :: shown p
  | (k, p) :: r => Text.quoted k ++ ':' :: ' ' :: shown p ++ ',' :: ' ' :: shownFields r
termination_by structural p => p
end

/-- A payload as a message of its own: a text stands as it is. -/
def display : Payload → Text
  | .text t => t
  | p => shown p

end PullGauge.Payload
