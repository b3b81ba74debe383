import PullGauge.Query.Token

/-!
# How involved a query is

A query is complex if it combines conditions by operators or parentheses or has more
than eight words, moderate if it filters by date or has more than four, else simple.
-/

namespace PullGauge

inductive Complexity where
  | simple
  | moderate
  | complex
  deriving DecidableEq

namespace Complexity

def word : Complexity → Text
  | .simple => "simple"
  | .moderate => "moderate"
  | .complex => "complex"

/-- Whether the token combines conditions; a negation alone does not. -/
def combines (t : Token) : Bool :=
  match t.kind with
  | .operator => decide (t.text = "AND".toList) || decide (t.text = "OR".toList)
  | .leftParen => true
  | .rightParen => true
  | _ => false

def isDated (t : Token) : Bool :=
  match t.asQualifier? with
  | some q => decide (q.key = "created".toList) || decide (q.key = "updated".toList)
  | none => false

def ofQuery (query : Text) : Complexity :=
  let count := (Text.words query).length
  let tokens := tokenize query
  if tokens.any combines || decide (8 < count) then .complex
  else if tokens.any isDated || decide (4 < count) then .moderate
  else .simple

end Complexity

end PullGauge
