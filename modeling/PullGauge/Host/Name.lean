import PullGauge.Host.Label

/-!
# Host names

Labels with dots between them, and perhaps a dot at the end. Other scripts have full stops
of their own.
-/

namespace PullGauge.Host

def isDot (c : Char) : Bool := c == '.' || c == '\u3002' || c == '\uff0e' || c == '\uff61'

def labels (name : Text) : List Text × Bool :=
  let pieces := Text.cut '.' (name.map fun c => if isDot c then '.' else c)
  if decide (1 < pieces.length) && pieces.getLast? == some [] then (pieces.dropLast, true)
  else (pieces, false)

def mapLabels? (f : Text → Option Text) (name : Text) : Option Text :=
  let (pieces, dotted) := labels name
  if name.length ≤ nameLimit + 1 then
    (pieces.mapM f).map fun l => List.intercalate ['.'] l ++ (if dotted then ['.'] else [])
  else none

def encodeName? (name : Text) : Option Text :=
  (mapLabels? sent? name).filter fun s =>
    decide (s.length ≤ nameLimit + (if (labels name).2 then 1 else 0))

def decodeName? (name : Text) : Option Text := mapLabels? meant? name

end PullGauge.Host
