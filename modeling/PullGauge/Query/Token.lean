import PullGauge.Text.Blank
import PullGauge.Text.WordChar
import PullGauge.Text.Lower

/-!
# Tokens of a search query

A query is a row of qualifiers `key:value`, operators, parentheses and bare terms.
Blanks separate tokens except inside double quotes, a parenthesis outside quotes is a
token of its own, and a quote that is never closed runs to the end.
-/

namespace PullGauge

structure Qualifier where
  key : Text
  raw : Text
  negated : Bool
  deriving DecidableEq

namespace Qualifier

def value (q : Qualifier) : Text := q.raw.filter (· != '"')

def quoted (q : Qualifier) : Bool := q.raw.head? == some '"'

def closed (q : Qualifier) : Bool :=
  decide (2 ≤ q.raw.length) && q.quoted && q.raw.getLast? == some '"'

end Qualifier

inductive Token.Kind where
  | qualifier (q : Qualifier)
  | operator
  | leftParen
  | rightParen
  | term
  deriving DecidableEq

structure Token where
  kind : Token.Kind
  text : Text
  /-- The offset of the first of them. -/
  position : Nat
  deriving DecidableEq

namespace Token

def operators : List Text := ["AND", "OR", "NOT"]

def isQualifierKey : Text → Bool
  | [] => false
  | c :: r => Text.isAsciiLetter c && r.all fun d => Text.isWordChar d || d == '-'

def negation : Text → Bool × Text
  | '-' :: r => (true, r)
  | t => (false, t)

def qualifier? (word : Text) : Option Qualifier :=
  let (negated, body) := negation word
  match Text.splitAtFirst [':'] body with
  | some (key, raw) => if isQualifierKey key then some ⟨Text.lower key, raw, negated⟩ else none
  | none => none

def kindOf (word : Text) : Kind :=
  if operators.contains word then .operator
  else match qualifier? word with
    | some q => .qualifier q
    | none => .term

def ofWord (word : Text) (position : Nat) : Token := ⟨kindOf word, word, position⟩

def asQualifier? (t : Token) : Option Qualifier :=
  match t.kind with
  | .qualifier q => some q
  | _ => none

def termValue (t : Token) : Text := Text.trimBy (· == '"') t.text

def isParen (c : Char) : Bool := c == '(' || c == ')'

def paren (c : Char) (position : Nat) : Token :=
  ⟨if c = '(' then .leftParen else .rightParen, [c], position⟩

structure Begun where
  start : Nat
  reversed : Text
  inQuotes : Bool

def Begun.finish (b : Begun) : Token := ofWord b.reversed.reverse b.start

def scan : Nat → Option Begun → Text → List Token
  | _, none, [] => []
  | _, some b, [] => [b.finish]
  | position, none, c :: r =>
    if Text.isBlank c then scan (position + 1) none r
    else if isParen c then paren c position :: scan (position + 1) none r
    else scan (position + 1) (some ⟨position, [c], c == '"'⟩) r
  | position, some b, c :: r =>
    if c = '"' then scan (position + 1) (some ⟨b.start, c :: b.reversed, !b.inQuotes⟩) r
    else if b.inQuotes || !(Text.isBlank c || isParen c) then
      scan (position + 1) (some ⟨b.start, c :: b.reversed, b.inQuotes⟩) r
    else if isParen c then b.finish :: paren c position :: scan (position + 1) none r
    else b.finish :: scan (position + 1) none r

end Token

def tokenize (query : Text) : List Token := Token.scan 0 none query

def qualifierTokens (tokens : List Token) : List (Qualifier × Token) :=
  tokens.filterMap fun t => t.asQualifier?.map fun q => (q, t)

def tokensFor (tokens : List Token) (key : Text) (withNegated : Bool) : List Token :=
  ((qualifierTokens tokens).filter fun (q, _) =>
    decide (q.key = key) && (withNegated || !q.negated)).map (·.2)

def qualifiersFor (tokens : List Token) (key : Text) : List Qualifier :=
  (tokens.filterMap Token.asQualifier?).filter fun q => decide (q.key = key) && !q.negated

end PullGauge
