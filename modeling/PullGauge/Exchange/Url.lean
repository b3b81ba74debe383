import PullGauge.Host.Basic
import PullGauge.Text.Blank
import PullGauge.Number.Reading
import PullGauge.Payload.Writing

/-!
# Addresses

An address has a scheme, perhaps a user, a host, perhaps a socket, a path, and perhaps a
query and a fragment. All of them are kept as they are sent, percent-encoded where that is
needed; a percent sign is taken for encoded already. An address is completed from its parts
in one place, so that changing a part of it obeys the rules of reading it. A relative
address is appended to the path of the address it is relative to.
-/

namespace PullGauge

structure Url where
  scheme : Text := []
  /-- A name and perhaps a password, with a colon between them. -/
  user : Text := []
  host : Text := []
  socket : Option Int := none
  path : Text := []
  query : Option Text := none
  fragment : Option Text := none
  deriving DecidableEq

namespace Url

inductive Flaw where
  | tooLong
  | control (c : Char) (place : Nat)
  | host (flaw : Host.Flaw)
  | socket (t : Text)
  /-- A path beside a host that does not begin with a slash. -/
  | rootless
  /-- A path alone that could be taken for a host. -/
  | doubleSlash
  /-- A path alone that could be taken for what follows a scheme. -/
  | colon

def Flaw.message : Flaw → Text
  | .tooLong => "URL too long"
  | .control c place =>
    "Invalid non-printable ASCII character in URL, ".toList ++ Text.quoted [c] ++
      " at position ".toList ++ Text.ofNat place ++ ['.']
  | .host flaw => flaw.message
  | .socket t => "Invalid port: ".toList ++ Text.quoted t
  | .rootless => "For absolute URLs, path must be empty or begin with '/'"
  | .doubleSlash => "Relative URLs cannot have a path starting with '//'"
  | .colon => "Relative URLs cannot have a path starting with ':'"

def lengthLimit : Nat := 65536

def isPlainAscii (c : Char) : Bool := decide (' ' ≤ c) && decide (c ≤ '~')

def isControl (c : Char) : Bool := decide (c < ' ') || c == '\x7f'

def keepsInQuery (c : Char) : Bool :=
  isPlainAscii c && !" \"#<>".toList.contains c

def keepsInPath (c : Char) : Bool :=
  keepsInQuery c && !"?\x60\x7b\x7d".toList.contains c

def keepsInFragment (c : Char) : Bool :=
  isPlainAscii c && !" \"<>\x60".toList.contains c

def keepsInUser (c : Char) : Bool :=
  keepsInPath c && !"/;=@[\\]^|".toList.contains c

def isSchemeChar (c : Char) : Bool :=
  (Text.Form.isPlain c && c != '_' && c != '~') || c == '+'

def splitScheme (t : Text) : Text × Text :=
  let run := match t with
    | c :: _ => if c.isAlpha then t.takeWhile isSchemeChar else []
    | [] => []
  match t.drop run.length with
  | ':' :: r => (run, r)
  | _ => ([], t)

def upTo (marks : Text) (t : Text) : Text × Text :=
  let head := t.takeWhile fun c => !marks.contains c
  (head, t.drop head.length)

def atLast (mark : Char) (t : Text) : Text × Text :=
  let rest := Text.trailing (· != mark) t
  (t.take (t.length - rest.length - 1), rest)

def usualSocket? (scheme : Text) : Option Int :=
  if scheme = "http".toList ∨ scheme = "ws".toList then some 80
  else if scheme = "https".toList ∨ scheme = "wss".toList then some 443
  else if scheme = "ftp".toList then some 21
  else none

def readSocket (scheme t : Text) : Except Flaw (Option Int) :=
  if t.isEmpty then .ok none
  else match Reading.integer? t with
  | some n => .ok (if usualSocket? scheme = some n then none else some n)
  | none => .error (.socket t)

/-- Host and socket as they are written. A host in brackets ends with the last bracket,
another one with the first colon. -/
def splitHost (t : Text) : Text × Text :=
  let (host, rest) :=
    if t.head? == some '[' && t.contains ']' then
      let (inside, rest) := atLast ']' t
      (inside ++ [']'], rest)
    else upTo ":" t
  (host, match rest with
    | ':' :: socket => socket
    | socket => socket)

def readAuthority (scheme t : Text) : Except Flaw (Text × Text × Option Int) := do
  let (user, rest) := atLast '@' t
  let (host, socket) := splitHost rest
  let host ← (Host.read host).mapError .host
  let socket ← readSocket scheme socket
  pure (Text.percentEncode keepsInUser user, host, socket)

def resolveDots (path : Text) : Text :=
  let segments := Text.cut '/' path
  if segments.contains ['.'] || segments.contains ['.', '.'] then
    let kept := segments.foldl (fun out s =>
      if s = ['.'] then out
      else if s = ['.', '.'] then (if out.isEmpty || out == [[]] then out else out.dropLast)
      else out ++ [s]) []
    List.intercalate ['/'] kept
  else path

def pathFlaw? (hasScheme hasAuthority : Bool) (path : Text) : Option Flaw :=
  if hasAuthority then
    if path.isEmpty || path.head? == some '/' then none else some .rootless
  else if hasScheme then none
  else if "//".toList.isPrefixOf path then some .doubleSlash
  else if path.head? == some ':' then some .colon
  else none

def complete (scheme authority path : Text) (query fragment : Option Text) :
    Except Flaw Url := do
  let (user, host, socket) ← readAuthority scheme authority
  let hasAuthority := !user.isEmpty || !host.isEmpty || socket.isSome
  match pathFlaw? (!scheme.isEmpty) hasAuthority path with
  | some flaw => .error flaw
  | none =>
    let path := if !scheme.isEmpty || hasAuthority then resolveDots path else path
    pure {
      scheme := scheme.map Text.lowerAscii, user := user, host := host, socket := socket
      path := Text.percentEncode keepsInPath path
      query := query.map (Text.percentEncode keepsInQuery)
      fragment := fragment.map (Text.percentEncode keepsInFragment) }

def splitPath (t : Text) : Text × Option Text × Option Text :=
  let (path, rest) := upTo "?#" t
  match rest with
  | '?' :: r =>
    let (query, rest) := upTo "#" r
    (path, some query, match rest with
      | '#' :: f => some f
      | _ => none)
  | '#' :: f => (path, none, some f)
  | _ => (path, none, none)

def read (t : Text) : Except Flaw Url :=
  if lengthLimit < t.length then .error .tooLong
  else match t.find? isControl with
  | some c => .error (.control c (t.idxOf c))
  | none =>
    let (scheme, rest) := splitScheme t
    let (authority, rest) := match rest with
      | '/' :: '/' :: r => upTo "/?#" r
      | r => ([], r)
    let (path, query, fragment) := splitPath rest
    complete scheme authority path query fragment

def isAbsolute (u : Url) : Bool := !u.scheme.isEmpty && !u.host.isEmpty

def authority (u : Url) : Text :=
  (if u.user.isEmpty then [] else u.user ++ ['@']) ++ Host.write u.host ++
    (match u.socket with
     | some n => ':' :: Text.ofInt n
     | none => [])

def renew (u : Url) : Except Flaw Url :=
  let isLong (t : Text) : Bool := decide (lengthLimit < t.length)
  if isLong u.authority || isLong u.path || u.query.any isLong || u.fragment.any isLong then
    .error .tooLong
  else complete u.scheme u.authority u.path u.query u.fragment

def target (u : Url) : Text :=
  (if u.path.isEmpty then ['/'] else u.path) ++
    (match u.query with
     | some q => '?' :: q
     | none => [])

def withTarget (u : Url) (target : Text) : Except Flaw Url :=
  let (path, query) := match Text.splitAtFirst ['?'] target with
    | some (p, q) => (p, some q)
    | none => (target, none)
  renew { u with path := path, query := query }

def asFolder (u : Url) : Except Flaw Url :=
  if u.target.getLast? == some '/' then .ok u else u.withTarget (u.target ++ ['/'])

def resolve (base : Url) (t : Text) : Except Flaw Url := do
  let u ← read t
  if u.isAbsolute then pure u
  else base.withTarget (base.target ++ u.target.dropWhile (· == '/'))

def decodedPath (u : Url) : Text :=
  Text.percentDecode (if u.path.isEmpty then ['/'] else u.path)

def params (u : Url) : List (Text × Text) :=
  match u.query with
  | some q => Text.Form.read q
  | none => []

def withParams (u : Url) (params : List (Text × Text)) : Except Flaw Url :=
  renew { u with query := if params.isEmpty then none else some (Text.Form.write params) }

def login? (u : Url) : Option (Text × Text) :=
  let (name, password) := match Text.splitAtFirst [':'] u.user with
    | some (n, p) => (n, p)
    | none => (u.user, [])
  if name.isEmpty && password.isEmpty then none
  else some (Text.percentDecode name, Text.percentDecode password)

def write (u : Url) : Text :=
  let authority := u.authority
  (if u.scheme.isEmpty then [] else u.scheme ++ [':']) ++
    (if authority.isEmpty then [] else '/' :: '/' :: authority) ++ u.path ++
    (match u.query with
     | some q => '?' :: q
     | none => []) ++
    (match u.fragment with
     | some f => '#' :: f
     | none => [])

def isTyped (u : Url) : Bool :=
  let (word, rest) := upTo "/:" u.write
  !word.isEmpty && rest.head? == some ':'

/-- A value of a parameter as text: truth values in lower case, nothing as no text. -/
def paramValue : Payload → Text
  | .null => []
  | .bool true => "true"
  | .bool false => "false"
  | p => p.display

def paramPairs (params : Fields) : List (Text × Text) :=
  params.flatMap fun (key, p) =>
    match p with
    | .list items => items.map fun item => (key, paramValue item)
    | p => [(key, paramValue p)]

end Url

end PullGauge
