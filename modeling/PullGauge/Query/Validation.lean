import PullGauge.Query.Token
import PullGauge.Text.Digit
import PullGauge.Fault

/-!
# Validating a query

A query that is not blank is completed to search pull requests, stripped of angle
brackets, and then judged: its quotes, its parentheses, its operators, and the key and
the value of every qualifier. The problems come in a fixed order.
-/

namespace PullGauge

inductive ValueRule where
  | category
  | state
  | review
  | draft
  | flag
  | date
  | count
  | user
  | team
  | repository
  | branch
  | commit
  | status
  | reason
  | lacking
  deriving DecidableEq

inductive Problem where
  | empty
  | tooLong
  | unmatchedQuote
  | unmatchedParentheses
  | repeatedOperator (operator : Text)
  | operatorCase
  | unsupportedKey (key : Text)
  | badValue (rule : ValueRule) (key value : Text)
  deriving DecidableEq

inductive Warning where
  | completed
  | empty
  deriving DecidableEq

structure Validation where
  sanitized : Text
  problems : List Problem
  warnings : List Warning
  isValid : Bool
  deriving DecidableEq

namespace ValueRule

def choices : ValueRule → List Text
  | .category =>
    ["pr", "issue", "open", "closed", "merged", "unmerged", "draft", "public", "private",
     "locked", "unlocked", "queued"]
  | .state => ["open", "closed", "merged", "all"]
  | .review => ["none", "required", "approved", "changes_requested"]
  | .draft => ["true", "false"]
  | .flag => ["true", "false"]
  | .status => ["pending", "success", "failure", "error"]
  | .reason => ["completed", "not planned"]
  | .lacking => ["label", "milestone", "assignee", "project"]
  | _ => []

def keys : List (ValueRule × List Text) :=
  [(.category, ["is", "type"]), (.state, ["state"]), (.review, ["review"]),
   (.draft, ["draft"]), (.flag, ["archived", "locked"]),
   (.date, ["created", "updated", "closed", "merged"]),
   (.count, ["comments", "interactions", "reactions", "size"]),
   (.user, ["author", "assignee", "mentions", "commenter", "involves", "reviewed-by",
     "review-requested", "user-review-requested"]),
   (.team, ["team-review-requested", "team"]), (.repository, ["repo"]),
   (.branch, ["head", "base"]), (.commit, ["sha"]), (.status, ["status"]),
   (.reason, ["reason"]), (.lacking, ["no"])]

def ofKey? (key : Text) : Option ValueRule :=
  (keys.find? fun (_, names) => names.contains key).map (·.1)

def isDay : Text → Bool
  | [a, b, c, d, '-', e, f, '-', g, h] => [a, b, c, d, e, f, g, h].all Text.isDigit
  | _ => false

def isComparison (c : Char) : Bool := c == '<' || c == '>' || c == '='

def isRangeOf (single : Text → Bool) (t : Text) : Bool :=
  single t ||
    (match t with
     | [] => false
     | c :: _ => isComparison c && single (t.dropWhile isComparison)) ||
    (match Text.splitAtFirst ['.', '.'] t with
     | some (low, high) => single low && single high
     | none => false)

def isNumber (t : Text) : Bool := !t.isEmpty && t.all Text.isDigit

def isNameChar (c : Char) : Bool := Text.isWordChar c || c == '-'

def isName (t : Text) : Bool := !t.isEmpty && t.all isNameChar

def isDottedName (t : Text) : Bool := !t.isEmpty && t.all fun c => isNameChar c || c == '.'

def isUser (t : Text) : Bool :=
  decide (t = "@me".toList) || decide (t = ['*']) || isName t ||
    ("app/".toList.isPrefixOf t && isName (t.drop 4))

def isPair (part : Text → Bool) (t : Text) : Bool :=
  match Text.cut '/' t with
  | [a, b] => part a && part b
  | _ => false

def isBranch (t : Text) : Bool :=
  match Text.cut ':' t with
  | [a] => isDottedName a
  | [a, b] => isName a && isDottedName b
  | _ => false

def isHexDigit (c : Char) : Bool :=
  (decide ('0' ≤ c) && decide (c ≤ '9')) || (decide ('a' ≤ c) && decide (c ≤ 'f')) ||
    (decide ('A' ≤ c) && decide (c ≤ 'F'))

def isCommit (t : Text) : Bool :=
  decide (7 ≤ t.length) && decide (t.length ≤ 40) && t.all isHexDigit

/-- Whether `form` describes the text, or the text without a line feed at its end. -/
def fits (form : Text → Bool) (t : Text) : Bool :=
  form t || (t.getLast? == some '\n' && form t.dropLast)

def allows (rule : ValueRule) (value : Text) : Bool :=
  let lowered := Text.lower value
  match rule with
  | .date => fits (isRangeOf isDay) value
  | .count => fits (isRangeOf isNumber) value
  | .user => fits isUser value
  | .team => fits (isPair isName) value
  | .repository => fits (isPair isDottedName) value
  | .branch => fits isBranch value
  | .commit => fits isCommit value
  | .reason =>
    rule.choices.contains lowered ||
      rule.choices.contains (lowered.map fun c => if c = '_' then ' ' else c)
  | _ => rule.choices.contains lowered

def listed (rule : ValueRule) : Text := List.intercalate [',', ' '] rule.choices

def complaint (rule : ValueRule) (key value : Text) : Text :=
  let value := '"' :: value ++ ['"']
  match rule with
  | .category =>
    "Invalid value ".toList ++ value ++ " for ".toList ++ key ++ ". Valid values: ".toList ++
      rule.listed
  | .state => "Invalid state ".toList ++ value ++ ". Valid states: ".toList ++ rule.listed
  | .review =>
    "Invalid review state ".toList ++ value ++ ". Valid states: ".toList ++ rule.listed
  | .draft =>
    "Invalid draft value ".toList ++ value ++ ". Use \"true\" or \"false\"".toList
  | .flag =>
    "Invalid ".toList ++ key ++ " value ".toList ++ value ++
      ". Use \"true\" or \"false\"".toList
  | .date =>
    "Invalid date format for ".toList ++ key ++
      ". Use YYYY-MM-DD, >YYYY-MM-DD, <YYYY-MM-DD, or YYYY-MM-DD..YYYY-MM-DD".toList
  | .count =>
    "Invalid numeric format for ".toList ++ key ++
      ". Use number, >number, <number, or number..number".toList
  | .user =>
    "Invalid user format for ".toList ++ key ++ ". Use @me, username, or app/username".toList
  | .team => "Invalid team format for ".toList ++ key ++ ". Use org/team format".toList
  | .repository => "Invalid repository format. Use owner/repository format"
  | .branch =>
    "Invalid branch format for ".toList ++ key ++ ". Use branch or user:branch format".toList
  | .commit => "Invalid SHA format. Use at least 7 hexadecimal characters"
  | .status => "Invalid status ".toList ++ value ++ ". Valid statuses: ".toList ++ rule.listed
  | .reason => "Invalid reason ".toList ++ value ++ ". Valid reasons: ".toList ++ rule.listed
  | .lacking =>
    "Invalid \"no\" qualifier value ".toList ++ value ++ ". Valid values: ".toList ++
      rule.listed

end ValueRule

def Problem.message : Problem → Text
  | .empty => "Query cannot be empty"
  | .tooLong => "Query too long (max 256 characters)"
  | .unmatchedQuote => "Unmatched quote in query"
  | .unmatchedParentheses => "Unmatched parentheses in query"
  | .repeatedOperator operator =>
    "Repeated operator \"".toList ++ operator ++ "\" in query".toList
  | .operatorCase => "OR operator should be uppercase"
  | .unsupportedKey key => "Unsupported search qualifier: ".toList ++ key
  | .badValue rule key value => rule.complaint key value

def Warning.message : Warning → Text
  | .completed => "Added \"is:pr\" qualifier"
  | .empty => "Query is empty"

namespace Validation

def lengthLimit : Nat := 256

def supportedKeys : List Text :=
  ["is", "type", "in", "repo", "user", "org", "language", "author", "assignee", "mentions",
   "commenter", "involves", "team", "reviewed-by", "review-requested",
   "user-review-requested", "team-review-requested", "review", "state", "reason", "status",
   "draft", "archived", "locked", "label", "milestone", "project", "linked", "no", "created",
   "updated", "closed", "merged", "head", "base", "sha", "comments", "interactions",
   "reactions", "size", "public", "private"].map String.toList

def repeatedOperators : List Text := ["&&", "||", "!!"]

def marker : Text := "is:pr"

def complete (query : Text) : Text :=
  if Text.has marker query then query else marker ++ ' ' :: query

def stripAngles (t : Text) : Text := t.filter fun c => c != '<' && c != '>'

def balancedFrom (depth : Nat) : Text → Bool
  | [] => depth == 0
  | c :: r =>
    if c = '(' then balancedFrom (depth + 1) r
    else if c = ')' then (match depth with
      | 0 => false
      | d + 1 => balancedFrom d r)
    else balancedFrom depth r

def balanced (t : Text) : Bool := balancedFrom 0 t

def shapeProblems (t : Text) : List Problem :=
  (if t.count '"' % 2 = 0 then [] else [.unmatchedQuote]) ++
  (if balanced t then [] else [.unmatchedParentheses]) ++
  (repeatedOperators.filter fun o => Text.has o t).map .repeatedOperator

def isMiscased (t : Token) : Bool :=
  match t.kind with
  | .term => decide (Text.lower t.text = "or".toList)
  | _ => false

def operatorProblems (tokens : List Token) : List Problem :=
  if tokens.any isMiscased then [.operatorCase] else []

/-- What is wrong with a qualifier; a value that is empty is not judged. -/
def qualifierProblem? (q : Qualifier) : Option Problem :=
  if supportedKeys.contains q.key then
    if q.value.isEmpty then none
    else (ValueRule.ofKey? q.key).bind fun rule =>
      if rule.allows q.value then none else some (.badValue rule q.key q.value)
  else some (.unsupportedKey q.key)

def qualifierProblems (tokens : List Token) : List Problem :=
  (tokens.filterMap Token.asQualifier?).filterMap qualifierProblem?

def problemsOf (sanitized : Text) : List Problem :=
  let tokens := tokenize sanitized
  shapeProblems sanitized ++ operatorProblems tokens ++ qualifierProblems tokens

def ofQuery (query : Text) : Validation :=
  let trimmed := Text.trim query
  if trimmed.isEmpty then ⟨[], [.empty], [], false⟩
  else
    let completed := complete trimmed
    let sanitized := stripAngles completed
    let problems :=
      (if completed.length > lengthLimit then [.tooLong] else []) ++ problemsOf sanitized
    { sanitized := sanitized
      problems := problems
      warnings := if Text.has marker trimmed then [] else [.completed]
      isValid := problems.isEmpty }

def whileTyping (query : Text) : Validation :=
  if (Text.trim query).isEmpty then ⟨[], [], [.empty], false⟩ else ofQuery query

end Validation

def sanitize (query : Text) : Outcome Text :=
  let v := Validation.ofQuery query
  if v.isValid then .ok v.sanitized
  else
    let errors := v.problems.map Problem.message
    .error (.failure (.plain (.validation errors)
      ("Invalid query: ".toList ++ List.intercalate [',', ' '] errors)))

def fixAuthor : Text → Text
  | [] => []
  | c :: r =>
    let t := c :: r
    if "author:".toList.isPrefixOf t && ((t.drop 7).head?.any Text.isWordChar) then
      "author:@me".toList ++ (t.drop 7).dropWhile Text.isWordChar
    else c :: fixAuthor r

/-- Corrections of a query that an editor may offer; none is the query itself. -/
def quickFixes (query : Text) : List Text :=
  let completed := if Text.has Validation.marker query then [] else
    [Validation.marker ++ ' ' :: query]
  let mine :=
    if Text.has "author:" query && !Text.has "@me" query then [fixAuthor query] else []
  (completed ++ mine).filter fun fix => decide (Text.trim fix ≠ Text.trim query)

end PullGauge
