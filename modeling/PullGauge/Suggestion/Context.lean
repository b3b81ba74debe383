import PullGauge.Suggestion.Basic
import PullGauge.Text.Blank
import PullGauge.Text.Fold

/-!
# What stands before the cursor

The word being typed, the qualifier that waits for a value, and whether the qualifiers
themselves are worth offering. One line feed at the very end is overlooked when the end
of a word or a value is looked for.
-/

namespace PullGauge

namespace Suggestion

def withoutLineEnd (t : Text) : Text :=
  if t.getLast? == some '\n' then t.dropLast else t

def isInk (c : Char) : Bool := !Text.isBlank c

def currentWord (before : Text) : Text := Text.trailing isInk (withoutLineEnd before)

inductive ValueKind where
  | user
  | repository
  | label
  deriving DecidableEq

def ValueKind.word : ValueKind → Text
  | .user => "user"
  | .repository => "repository"
  | .label => "label"

/-- What stands after the first occurrence of `head` behind which only a value follows. -/
def openValue (head : Text) (value? : Text → Option Text) : Text → Option Text
  | [] => none
  | c :: r =>
    if head.isPrefixOf (c :: r) then
      match value? ((c :: r).drop head.length) with
      | some v => some v
      | none => openValue head value? r
    else openValue head value? r

def wordValue? (t : Text) : Option Text :=
  let v := withoutLineEnd t
  if v.all isInk then some v else none

def quotedValue? (t : Text) : Option Text := if t.contains '"' then none else some t

/-- The qualifier before the cursor that waits for a value, and the part of the value
that is there; the qualifiers are tried in a fixed order. -/
def valueContext (before : Text) : Option (ValueKind × Text) :=
  ((openValue "author:" wordValue? before).map fun v => (ValueKind.user, v)).or <|
  ((openValue "reviewed-by:" wordValue? before).map fun v => (ValueKind.user, v)).or <|
  ((openValue "repo:" wordValue? before).map fun v => (ValueKind.repository, v)).or <|
  (openValue "label:\"" quotedValue? before).map fun v => (ValueKind.label, v)

def afterOperator (before : Text) : Bool :=
  let word := Text.trailing isInk (Text.dropTrailing Text.isBlank before)
  ["and".toList, "or".toList, "not".toList].contains (word.map Text.foldChar)

def valueHeads : List Text := ["author:", "reviewed-by:", "repo:", "label:\""]

def qualifierValues : List Text := qualifiers.map fun s => Text.lower s.value

def typesValue (lowered : Text) : Bool :=
  valueHeads.any (Text.startsFolded · lowered) && !qualifierValues.contains lowered

def showsQualifiers (before word : Text) : Bool :=
  if before.getLast? == some ' ' || (Text.trim before).isEmpty || afterOperator before ||
      word.isEmpty then true
  else
    let lowered := Text.lower word
    if typesValue lowered then false else qualifierValues.any fun v => lowered.isPrefixOf v

end Suggestion

end PullGauge
