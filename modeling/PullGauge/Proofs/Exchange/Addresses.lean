import Mathlib
import PullGauge.Proofs.Text.Forms
import PullGauge.Proofs.Number.Integers
import PullGauge.Proofs.Exchange.Directories

/-!
# Plain addresses

A path that begins with one slash, has no segment of one dot or two, and holds only characters
that stand for themselves is kept as it is written: by the address it is appended to, by an
address that is written in full, and by who receives the request.
-/

namespace PullGauge

namespace Url

structure IsPlain (path : Text) : Prop where
  rooted : ∃ rest, path = '/' :: rest ∧ rest.head? ≠ some '/'
  chars : ∀ c ∈ path, keepsInPath c = true ∧ c ≠ '%'
  undotted : ['.'] ∉ Text.cut '/' path ∧ ['.', '.'] ∉ Text.cut '/' path

theorem upTo_eq_self {marks t : Text} (h : ∀ c ∈ t, c ∉ marks) : upTo marks t = (t, []) := by
  have htake : t.takeWhile (fun c => !marks.contains c) = t := by
    rw [List.takeWhile_eq_self_iff]
    intro c hc
    simpa using h c hc
  rw [upTo, htake, List.drop_length]

theorem upTo_append {marks a r : Text} (ha : ∀ c ∈ a, c ∉ marks) {c : Char} (hc : c ∈ marks) :
    upTo marks (a ++ c :: r) = (a, c :: r) := by
  have htake : (a ++ c :: r).takeWhile (fun c => !marks.contains c) = a := by
    rw [List.takeWhile_append_of_pos fun d hd => by simpa using ha d hd]
    simp [hc]
  rw [upTo, htake, List.drop_left]

theorem isControl_of_keepsInQuery {c : Char} (h : keepsInQuery c = true) : isControl c = false := by
  simp only [keepsInQuery, isPlainAscii, Bool.and_eq_true, decide_eq_true_eq] at h
  have hlow : ¬ c < ' ' := not_lt.2 h.1.1
  have hhigh : c ≠ '\x7f' := by
    rintro rfl
    exact absurd h.1.2 (by decide)
  simp [isControl, hlow, hhigh]

theorem keepsInQuery_of_keepsInPath {c : Char} (h : keepsInPath c = true) :
    keepsInQuery c = true := (Bool.and_eq_true _ _ ▸ h).1

theorem ne_of_keepsInPath {c d : Char} (h : keepsInPath c = true) (hd : keepsInPath d = false) :
    c ≠ d := by
  rintro rfl
  rw [h] at hd
  cases hd

section Path

variable {path : Text}

theorem IsPlain.not_mem (hp : IsPlain path) {c : Char} (hc : keepsInPath c = false) : c ∉ path :=
  fun h => ne_of_keepsInPath (hp.chars c h).1 hc rfl

theorem IsPlain.percentEncode (hp : IsPlain path) : Text.percentEncode keepsInPath path = path :=
  Text.percentEncode_of_all fun c hc => (hp.chars c hc).1

theorem IsPlain.percentDecode (hp : IsPlain path) : Text.percentDecode path = path := by
  -- with the percent sign among what is encoded, a plain path is still its own encoding
  let keep (c : Char) : Bool := keepsInPath c && c != '%'
  have hkeep : Text.percentEncode keep path = path := by
    refine Text.percentEncode_of_all ?_
    intro c hc
    simpa [keep] using hp.chars c hc
  have hmark : keep '%' = false := by decide
  have hdecode := Text.percentDecode_percentEncode hmark path
  rwa [hkeep] at hdecode

theorem IsPlain.resolveDots (hp : IsPlain path) : resolveDots path = path := by
  have hundotted := hp.undotted
  unfold Url.resolveDots
  dsimp only
  rw [if_neg (by simpa using hundotted)]

theorem IsPlain.not_mark (hp : IsPlain path) : ∀ c ∈ path, c ∉ "?#".toList := by
  have hmarks : ∀ d ∈ "?#".toList, keepsInPath d = false := Text.forall_mem_of_all (by decide)
  exact fun c hc hmark => hp.not_mem (hmarks c hmark) hc

theorem IsPlain.splitPath (hp : IsPlain path) : splitPath path = (path, none, none) := by
  unfold Url.splitPath
  rw [upTo_eq_self hp.not_mark]

theorem IsPlain.splitPath_query (hp : IsPlain path) {query : Text} (hq : '#' ∉ query) :
    Url.splitPath (path ++ '?' :: query) = (path, some query, none) := by
  have hquery : upTo "#" query = (query, []) := by
    refine upTo_eq_self ?_
    intro c hc hmark
    obtain rfl := List.mem_singleton.1 hmark
    exact hq hc
  unfold Url.splitPath
  rw [upTo_append hp.not_mark (by decide)]
  simp only [hquery]

end Path

def home : Url where
  scheme := "https"
  host := "api.github.com"

theorem readAuthority_home :
    readAuthority "https" "api.github.com" = .ok ([], "api.github.com".toList, none) := by
  rfl

def homeAt (path : Text) (query : Option Text) : Url := { home with path := path, query := query }

variable {path : Text} {query : Option Text}

theorem complete_home (hp : IsPlain path) (hq : ∀ q ∈ query, ∀ c ∈ q, keepsInQuery c = true) :
    complete "https" "api.github.com" path query none = .ok (homeAt path query) := by
  obtain ⟨rest, hrest, -⟩ := hp.rooted
  have hflaw : pathFlaw? true true path = none := by rw [hrest]; rfl
  have hquery : query.map (Text.percentEncode keepsInQuery) = query := by
    cases query with
    | none => rfl
    | some q => exact congrArg some (Text.percentEncode_of_all (hq q rfl))
  have hscheme : "https".toList.map Text.lowerAscii = "https".toList := by decide
  have htyped : (!"https".toList.isEmpty) = true := by decide
  have hhosted : (!"api.github.com".toList.isEmpty) = true := by decide
  unfold complete
  rw [readAuthority_home]
  dsimp only [bind, Except.bind]
  rw [htyped, hhosted, Bool.true_or, Bool.or_true, Bool.true_or, hflaw]
  dsimp only
  rw [hp.resolveDots, ite_self, hp.percentEncode, hquery, hscheme]
  rfl

theorem find?_isControl {t : Text} (h : ∀ c ∈ t, keepsInQuery c = true) :
    t.find? isControl = none := by
  rw [List.find?_eq_none]
  intro c hc
  rw [isControl_of_keepsInQuery (h c hc)]
  exact Bool.false_ne_true

theorem IsPlain.keepsInQuery (hp : IsPlain path) : ∀ c ∈ path, keepsInQuery c = true :=
  fun c hc => keepsInQuery_of_keepsInPath (hp.chars c hc).1

def splitAuthority : Text → Text × Text
  | '/' :: '/' :: r => upTo "/?#" r
  | r => ([], r)

theorem read_eq {t : Text} (hlength : t.length ≤ lengthLimit)
    (hplain : ∀ c ∈ t, Url.keepsInQuery c = true) :
    read t =
      let (authority, rest) := splitAuthority (splitScheme t).2
      let (path, query, fragment) := splitPath rest
      complete (splitScheme t).1 authority path query fragment := by
  unfold read
  rw [if_neg (not_lt.2 hlength), find?_isControl hplain]
  rfl

theorem read_path (hp : IsPlain path) (hlength : path.length ≤ lengthLimit) :
    read path = .ok { path := path } := by
  obtain ⟨rest, hrest, hsingle⟩ := hp.rooted
  have hscheme : splitScheme path = ([], path) := by rw [hrest]; rfl
  have hauthority : splitAuthority path = ([], path) := by
    rw [hrest, splitAuthority.eq_def]
    split
    · rename_i heq
      cases heq
      exact absurd rfl hsingle
    · rfl
  have hprefix : "//".toList.isPrefixOf path = false := by
    rw [Bool.eq_false_iff, ne_eq, List.isPrefixOf_iff_prefix, hrest]
    rintro ⟨more, hmore⟩
    obtain rfl := List.tail_eq_of_cons_eq hmore
    exact hsingle rfl
  have hflaw : pathFlaw? (!([] : Text).isEmpty) (!([] : Text).isEmpty || !([] : Text).isEmpty ||
      (none : Option Int).isSome) path = none := by
    show pathFlaw? false false path = none
    unfold pathFlaw?
    rw [if_neg Bool.false_ne_true, if_neg Bool.false_ne_true, hprefix, hrest]
    rfl
  rw [read_eq hlength hp.keepsInQuery, hscheme]
  dsimp only
  rw [hauthority]
  dsimp only
  rw [hp.splitPath]
  dsimp only
  unfold complete
  have hnone : readAuthority [] [] = .ok ([], [], none) := by rfl
  rw [hnone]
  dsimp only [bind, Except.bind]
  rw [hflaw]
  dsimp only
  rw [hp.resolveDots, ite_self, hp.percentEncode]
  rfl

theorem keepsInQuery_homeAddress (hp : IsPlain path) {query : Text}
    (hq : ∀ c ∈ query, Url.keepsInQuery c = true) :
    ∀ c ∈ Client.homeAddress ++ path ++ '?' :: query, Url.keepsInQuery c = true := by
  have hhome : ∀ c ∈ Client.homeAddress, Url.keepsInQuery c = true :=
    Text.forall_mem_of_all (by decide)
  simp only [List.mem_append, List.mem_cons]
  rintro c ((hc | hc) | rfl | hc)
  · exact hhome c hc
  · exact hp.keepsInQuery c hc
  · decide
  · exact hq c hc

theorem read_homeAddress (hp : IsPlain path) {query : Text}
    (hq : ∀ c ∈ query, Url.keepsInQuery c = true)
    (hlength : (Client.homeAddress ++ path ++ '?' :: query).length ≤ lengthLimit) :
    read (Client.homeAddress ++ path ++ '?' :: query) = .ok (homeAt path (some query)) := by
  obtain ⟨rest, hrest, -⟩ := hp.rooted
  have hscheme : splitScheme (Client.homeAddress ++ path ++ '?' :: query) =
      ("https".toList, '/' :: '/' :: ("api.github.com".toList ++ (path ++ '?' :: query))) := by
    rw [List.append_assoc]
    rfl
  have hauthority : splitAuthority ('/' :: '/' :: ("api.github.com".toList ++
      (path ++ '?' :: query))) = ("api.github.com".toList, path ++ '?' :: query) := by
    have hhost : ∀ c ∈ "api.github.com".toList, c ∉ "/?#".toList :=
      Text.forall_mem_of_all (by decide)
    rw [splitAuthority, hrest, List.cons_append]
    exact upTo_append hhost (by decide)
  have hmark : '#' ∉ query := by
    intro hc
    exact absurd (hq _ hc) (by decide)
  rw [read_eq hlength (keepsInQuery_homeAddress hp hq), hscheme]
  dsimp only
  rw [hauthority]
  dsimp only
  rw [hp.splitPath_query hmark]
  exact complete_home hp (by rintro q ⟨⟩; exact hq)

theorem renew_homeAt (hp : IsPlain path) (hq : ∀ q ∈ query, ∀ c ∈ q, Url.keepsInQuery c = true)
    (hlength : path.length ≤ lengthLimit) (hquery : ∀ q ∈ query, q.length ≤ lengthLimit) :
    renew (homeAt path query) = .ok (homeAt path query) := by
  have hauthority : (homeAt path query).authority = "api.github.com".toList := by rfl
  have hlong : query.any (fun q => decide (lengthLimit < q.length)) = false := by
    cases query with
    | none => rfl
    | some q => simpa using hquery q rfl
  have hpath : decide (lengthLimit < path.length) = false := by simpa using hlength
  have hshort : (decide (lengthLimit < "api.github.com".toList.length) ||
      decide (lengthLimit < path.length) ||
      query.any (fun q => decide (lengthLimit < q.length)) || false) = false := by
    rw [hpath, hlong]
    decide
  unfold renew
  dsimp only
  rw [hauthority]
  exact (if_neg (Bool.eq_false_iff.1 hshort)).trans (complete_home hp hq)

theorem resolve_path (hp : IsPlain path) (hlength : path.length ≤ lengthLimit) :
    home.resolve path = .ok (homeAt path none) := by
  obtain ⟨rest, hrest, hsingle⟩ := hp.rooted
  have hdrop : path.dropWhile (· == '/') = rest := by
    rw [hrest, List.dropWhile_cons_of_pos (by decide)]
    refine Text.dropWhile_of_head ?_
    rintro c hc
    refine beq_eq_false_iff_ne.2 ?_
    rintro rfl
    exact hsingle hc
  have htarget : ({ path := path } : Url).target = path := by
    rw [target, hrest]
    exact List.append_nil _
  have hhome : home.target = ['/'] := by rfl
  have hnone : Text.splitAtFirst ['?'] path = none :=
    Text.splitAtFirst_eq_none (hp.not_mem (by decide))
  unfold resolve
  rw [read_path hp hlength]
  dsimp only [bind, Except.bind]
  refine (if_neg Bool.false_ne_true).trans ?_
  rw [htarget, hdrop, hhome, List.singleton_append, ← hrest, withTarget, hnone]
  exact renew_homeAt hp nofun hlength nofun

theorem resolve_homeAddress (base : Url) (hp : IsPlain path) {query : Text}
    (hq : ∀ c ∈ query, Url.keepsInQuery c = true)
    (hlength : (Client.homeAddress ++ path ++ '?' :: query).length ≤ lengthLimit) :
    base.resolve (Client.homeAddress ++ path ++ '?' :: query) =
      .ok (homeAt path (some query)) := by
  unfold resolve
  rw [read_homeAddress hp hq hlength]
  rfl

def queryOf (pairs : List (Text × Text)) : Option Text :=
  if pairs.isEmpty then none else some (Text.Form.write pairs)

theorem keepsInQuery_of_isPlain {c : Char} (h : Text.Form.isPlain c = true) :
    Url.keepsInQuery c = true := by
  have hout : ∀ d ∈ " \"#<>".toList, Text.Form.isPlain d = false :=
    Text.forall_mem_of_all (by decide)
  have hmark : c ∉ " \"#<>".toList := by
    intro hc
    rw [hout c hc] at h
    cases h
  have hrange : ' ' ≤ c ∧ c ≤ '~' := by
    simp only [Text.Form.isPlain, Bool.or_eq_true, Bool.and_eq_true, decide_eq_true_eq,
      beq_iff_eq] at h
    rcases h with ((((((h | h) | h) | rfl) | rfl) | rfl) | rfl)
    · exact ⟨le_trans (by decide) h.1, le_trans h.2 (by decide)⟩
    · exact ⟨le_trans (by decide) h.1, le_trans h.2 (by decide)⟩
    · exact ⟨le_trans (by decide) h.1, le_trans h.2 (by decide)⟩
    all_goals decide
  rw [Url.keepsInQuery, isPlainAscii, decide_eq_true hrange.1, decide_eq_true hrange.2,
    List.contains_eq_mem, decide_eq_false hmark]
  rfl

theorem keepsInQuery_of_mem_write {pairs : List (Text × Text)} {c : Char}
    (h : c ∈ Text.Form.write pairs) : Url.keepsInQuery c = true := by
  have hmarks : ∀ d ∈ ['&', '='], Url.keepsInQuery d = true := Text.forall_mem_of_all (by decide)
  rcases Text.Form.isEncoded_or_mem_of_mem_write h with h | h
  · rw [Text.Form.isEncoded, Bool.or_eq_true, Bool.or_eq_true, beq_iff_eq, beq_iff_eq] at h
    rcases h with (h | rfl) | rfl
    · exact keepsInQuery_of_isPlain h
    · decide
    · decide
  · exact hmarks c h

theorem withParams_homeAt (hp : IsPlain path) (hlength : path.length ≤ lengthLimit)
    {pairs : List (Text × Text)} (hpairs : (Text.Form.write pairs).length ≤ lengthLimit) :
    (homeAt path none).withParams pairs = .ok (homeAt path (queryOf pairs)) := by
  have hmake : ∀ q ∈ queryOf pairs, q = Text.Form.write pairs := by
    unfold queryOf
    split_ifs
    · nofun
    · rintro q ⟨⟩
      rfl
  refine renew_homeAt hp ?_ hlength ?_
  · intro q hq c hc
    rw [hmake q hq] at hc
    exact keepsInQuery_of_mem_write hc
  · intro q hq
    rwa [hmake q hq]

theorem params_homeAt (path : Text) (pairs : List (Text × Text)) :
    (homeAt path (queryOf pairs)).params = pairs := by
  unfold queryOf
  split_ifs with h
  · rw [List.isEmpty_iff.1 h]
    rfl
  · exact Text.Form.read_write pairs

theorem decodedPath_homeAt (hp : IsPlain path) : (homeAt path query).decodedPath = path := by
  obtain ⟨rest, hrest, -⟩ := hp.rooted
  have hfull : path.isEmpty = false := by rw [hrest]; rfl
  show Text.percentDecode (if path.isEmpty then ['/'] else path) = path
  rw [hfull]
  exact hp.percentDecode

theorem isTyped_homeAt : (homeAt path query).isTyped = true := by
  have hscheme : ∀ c ∈ "https".toList, c ∉ "/:".toList := Text.forall_mem_of_all (by decide)
  obtain ⟨r, hr⟩ : ∃ r, (homeAt path query).write = "https".toList ++ ':' :: r := ⟨_, rfl⟩
  rw [isTyped, hr, upTo_append hscheme (by decide)]
  rfl

theorem isTellable_home : Host.isTellable home.host = true := by decide +kernel

end Url

namespace Client

open Url

variable {c : Client} {path : Text}

theorem addressOf_homeAddress :
    addressOf (Url.read (Text.dropTrailing (· == '/') homeAddress) >>= Url.asFolder) =
      .ok home :=
  Outcome.eq_ok_of_toOption (by decide +kernel)

theorem make_eq {settings : Settings} (hs : settings.baseUrl = homeAddress) (limit : Nat) :
    make settings limit =
      if Host.isAscii settings.token && Host.isAscii settings.userAgent then
        .ok ⟨settings, home, limit⟩
      else .error .unsendable := by
  unfold make Settings.transportUrl
  rw [hs, addressOf_homeAddress]
  rfl

def pairsOf (params : Option Fields) : List (Text × Text) := (params.map paramPairs).getD []

def requestAt (c : Client) (path : Text) (pairs : List (Text × Text)) : Request :=
  ⟨"GET", homeAt path (queryOf pairs), c.headers (homeAt path (queryOf pairs)), none⟩

theorem requestAt_eq (c : Client) (path : Text) (pairs : List (Text × Text)) :
    c.requestAt path pairs = ⟨Text.upper "GET", homeAt path (queryOf pairs),
      c.headers (homeAt path (queryOf pairs)), none⟩ := by
  have hupper : Text.upper "GET".toList = "GET".toList := by decide +kernel
  rw [hupper]
  rfl

theorem requestFor_path (hc : c.base = home) (hp : IsPlain path)
    (hlength : path.length ≤ lengthLimit) {params : Option Fields}
    (hwritten : ∀ p ∈ params, (Payload.object p).check false = .ok ())
    (hparams : (Text.Form.write (pairsOf params)).length ≤ lengthLimit) :
    c.requestFor "GET" path params none = .ok (c.requestAt path (pairsOf params)) := by
  refine requestFor_eq_ok_iff.2 ⟨?_, nofun, isTellable_home, c.requestAt_eq path _⟩
  have hbase : addressOf (c.base.resolve path) = .ok (homeAt path none) := by
    rw [hc, resolve_path hp hlength]
    rfl
  cases params with
  | none => exact addressFor_eq hbase
  | some p =>
    have hwith : (homeAt path none).withParams (paramPairs p) =
        .ok (homeAt path (queryOf (paramPairs p))) := withParams_homeAt hp hlength hparams
    rw [addressFor, hbase, Outcome.ok_bind]
    dsimp only
    rw [hwritten p rfl, Outcome.ok_bind, hwith]
    rfl

theorem requestFor_homeAddress (c : Client) (hp : IsPlain path) {pairs : List (Text × Text)}
    (hpairs : pairs ≠ [])
    (hlength : (homeAddress ++ path ++ '?' :: Text.Form.write pairs).length ≤ lengthLimit) :
    c.requestFor "GET" (homeAddress ++ path ++ '?' :: Text.Form.write pairs) none none =
      .ok (c.requestAt path pairs) := by
  have hquery : queryOf pairs = some (Text.Form.write pairs) := by
    unfold queryOf
    rw [if_neg (by simpa using hpairs)]
  have hresolve := resolve_homeAddress c.base hp (fun _ h => keepsInQuery_of_mem_write h) hlength
  rw [← hquery] at hresolve
  refine requestFor_eq_ok_iff.2 ⟨addressFor_eq ?_, nofun, isTellable_home, c.requestAt_eq path _⟩
  rw [hresolve]
  rfl

end Client

end PullGauge
