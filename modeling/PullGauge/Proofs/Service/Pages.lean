import Mathlib
import PullGauge.Proofs.Exchange.Paging
import PullGauge.Session

/-!
# Lists that are served in pages

A scripted service that knows the pages of a list is asked for all of them. Each page is asked
for once, the first one with the parameters of the caller, every later one by the link of the
page before it and with nothing but its number, and the items come in the order of the pages.
If the service answers one of the requests with an error, this is the last request, and the
error is all that comes of it.
-/

namespace PullGauge

open Url (IsPlain)

namespace Script

def linkAddress (path : Text) (page : Nat) : Text :=
  Client.homeAddress ++ path ++ "?page=".toList ++ Text.ofNat page

/-- Whether a service has the pages of the list at a path, and nothing stands in their way. -/
structure Serves (s : Script) (path : Text) (pages : List (List Payload)) : Prop where
  listed : s.pages.lookup path = some pages
  unrouted : ∀ r ∈ s.routes, r.method = "GET".toList → r.path ≠ path
  direct : s.standIns.lookup ("GET".toList, path) = none
  sendable : ∀ page ∈ pages, (Payload.list page).IsSendable 0

theorem add_le_foldl_length {α β : Type} (l : List (α × List β)) (n : Nat) :
    ∀ x ∈ l, n + x.2.length ≤ l.foldl (fun n x => n + x.2.length) n := by
  have hgrows (l : List (α × List β)) (n : Nat) : n ≤ l.foldl (fun n x => n + x.2.length) n := by
    induction l generalizing n with
    | nil => exact le_rfl
    | cons x l ih => exact le_trans (Nat.le_add_right ..) (ih _)
  induction l generalizing n with
  | nil => nofun
  | cons first l ih =>
    intro x hx
    rcases List.mem_cons.1 hx with rfl | hx
    · exact hgrows l _
    · exact le_trans (Nat.add_le_add_right (Nat.le_add_right ..) _) (ih _ x hx)

theorem Serves.le_linkBound {s : Script} {path : Text} {pages : List (List Payload)}
    (hs : s.Serves path pages) : max 1 pages.length ≤ s.linkBound := by
  obtain ⟨before, after, hpages, -⟩ := List.lookup_eq_some_iff.1 hs.listed
  have hmem : (path, pages) ∈ s.pages := by simp [hpages]
  have hcount : 0 + pages.length ≤ _ := add_le_foldl_length s.pages 0 _ hmem
  show max 1 pages.length ≤ s.routes.length + s.standIns.length +
    2 * s.pages.foldl (fun n x => n + x.2.length) 0 + 2
  omega

theorem serves_servePages {s : Script} {path : Text} {pages : List (List Payload)}
    (hroutes : ∀ r ∈ s.routes, r.method = "GET".toList → r.path ≠ path)
    (hdirect : s.standIns.lookup ("GET".toList, path) = none)
    (hsendable : ∀ page ∈ pages, (Payload.list page).IsSendable 0) :
    (s.servePages path pages).Serves path pages :=
  ⟨List.lookup_cons_self, hroutes, hdirect, hsendable⟩

end Script

namespace Client

/-- Whether the requests for the pages of a list can be written and read: its path is plain, the
parameters of the caller can be written and name no page, and the addresses that the links tell
are short enough. -/
structure CanPage (path : Text) (params : Option Fields) (count : Nat) : Prop where
  plain : IsPlain path
  short : path.length ≤ Url.lengthLimit
  paramsWritten : ∀ p ∈ params, (Payload.object p).check false = .ok ()
  paramsShort : (Text.Form.write (pairsOf params)).length ≤ Url.lengthLimit
  paramsPageless : ∀ pair ∈ pairsOf params, pair.1 ≠ "page".toList
  /-- A semicolon would end the address in its link. -/
  linked : ∀ page, 2 ≤ page → page ≤ count → ';' ∉ path ∧
    (Script.linkAddress path page).length ≤ Url.lengthLimit ∧
    (Text.ofNat page).length ≤ Reading.digitLimit

def pairsAt (params : Option Fields) : Nat → List (Text × Text)
  | 0 => pairsOf params
  | j + 1 => [("page".toList, Text.ofNat (j + 2))]

def addressAt (path : Text) : Nat → Text
  | 0 => path
  | j + 1 => Script.linkAddress path (j + 2)

def paramsAt (params : Option Fields) : Nat → Option Fields
  | 0 => params
  | _ + 1 => none

theorem linkAddress_eq (path : Text) (page : Nat) : Script.linkAddress path page =
    homeAddress ++ path ++ '?' :: Text.Form.write [("page".toList, Text.ofNat page)] := by
  have hdigit : ∀ c ∈ "0123456789".toList, Text.Form.isPlain c = true :=
    Text.forall_mem_of_all (by decide)
  have hnumber : Text.Form.encode (Text.ofNat page) = Text.ofNat page :=
    Text.Form.encode_of_isPlain fun c hc =>
      hdigit c (Text.mem_of_isDigit (Text.isDigit_of_mem_ofNat hc))
  have hform : Text.Form.write [("page".toList, Text.ofNat page)] =
      "page=".toList ++ Text.ofNat page := by
    have hkey : Text.Form.encode "page".toList = "page".toList := by decide
    rw [Text.Form.write, List.map_singleton, List.intercalate_singleton]
    dsimp only
    rw [hkey, hnumber]
    rfl
  rw [hform, Script.linkAddress, List.append_assoc, List.append_assoc, List.append_assoc]
  rfl

variable {path : Text} {params : Option Fields} {pages : List (List Payload)} {c : Client}

theorem requestFor_at (hc : c.base = Url.home) (h : CanPage path params pages.length) {j : Nat}
    (hj : j < max 1 pages.length) :
    c.requestFor "GET" (addressAt path j) (paramsAt params j) none =
      .ok (c.requestAt path (pairsAt params j)) := by
  cases j with
  | zero => exact requestFor_path hc h.plain h.short h.paramsWritten h.paramsShort
  | succ j =>
    obtain ⟨-, hlength, -⟩ := h.linked (j + 2) (by omega) (by omega)
    rw [linkAddress_eq] at hlength
    rw [addressAt, linkAddress_eq]
    exact requestFor_homeAddress c h.plain (List.cons_ne_nil _ _) hlength

theorem ofRequest_requestAt (c : Client) (hp : IsPlain path) (pairs : List (Text × Text)) :
    Call.ofRequest (c.requestAt path pairs) = ⟨"GET", path, Call.firstValues pairs, .null⟩ := by
  rw [Call.ofRequest, requestAt, Url.decodedPath_homeAt hp, Url.params_homeAt]
  rfl

end Client

namespace Script

variable {path : Text} {pages : List (List Payload)}

def replyAt (path : Text) (pages : List (List Payload)) (j : Nat) : Reply where
  status := 200
  headers := if j + 1 < pages.length then
    [("Link".toList, Reply.writeNext (linkAddress path (j + 2)))] else []
  body := .json (.list (pages[j]?.getD []))

theorem isLinkable_linkAddress (hp : IsPlain path) (hlink : ';' ∉ path) (page : Nat) :
    Reply.IsLinkable (linkAddress path page) := by
  have hdigit : ∀ c ∈ "0123456789".toList, (c ≠ '<' ∧ c ≠ ';') ∧ c ∉ "<> '\"".toList :=
    Text.forall_mem_of_all (by decide)
  have hnumber : ∀ c ∈ Text.ofNat page, (c ≠ '<' ∧ c ≠ ';') ∧ c ∉ "<> '\"".toList :=
    fun c hc => hdigit c (Text.mem_of_isDigit (Text.isDigit_of_mem_ofNat hc))
  obtain ⟨r, hr⟩ : ∃ r, linkAddress path page = 'h' :: r := ⟨_, rfl⟩
  refine ⟨?_, hr ▸ List.cons_ne_nil _ _, ?_, ?_⟩
  · have hhome : ∀ c ∈ Client.homeAddress, c ≠ '<' ∧ c ≠ ';' := Text.forall_mem_of_all (by decide)
    have hkey : ∀ c ∈ "?page=".toList, c ≠ '<' ∧ c ≠ ';' := Text.forall_mem_of_all (by decide)
    intro c hc
    rw [linkAddress, List.mem_append, List.mem_append, List.mem_append] at hc
    rcases hc with ((hc | hc) | hc) | hc
    · exact hhome c hc
    · exact ⟨Url.ne_of_keepsInPath (hp.chars c hc).1 (by decide), fun h => hlink (h ▸ hc)⟩
    · exact hkey c hc
    · exact (hnumber c hc).1
  · rw [hr]
    rintro c ⟨⟩
    decide
  · intro c hc
    rw [linkAddress, List.getLast?_append_of_ne_nil _ (Text.ofNat_ne_nil page)] at hc
    exact (hnumber c (List.mem_of_getLast? hc)).2

theorem next?_replyAt {params : Option Fields} (h : Client.CanPage path params pages.length)
    {j : Nat} : (replyAt path pages j).next? =
      if j + 1 < pages.length then some (linkAddress path (j + 2)) else none := by
  unfold replyAt
  split_ifs with hj
  · exact Reply.next?_of_link
      (isLinkable_linkAddress h.plain (h.linked (j + 2) (by omega) (by omega)).1 _)
  · rfl

theorem pageAt_succ (pages : List (List Payload)) (j : Nat) :
    pageAt pages ((j : Int) + 1) = .ok (pages[j]?.getD []) := by
  unfold pageAt
  by_cases hbeyond : (pages.length : Int) < (j : Int) + 1
  · rw [if_pos hbeyond, List.getElem?_eq_none (by omega)]
    rfl
  · have hin : j < pages.length := by omega
    have hindex : ((j : Int) + 1 - 1).toNat = j := by omega
    rw [if_neg hbeyond, if_neg (by omega), if_neg (by omega), hindex,
      List.getElem?_eq_getElem hin]
    rfl

theorem number_pairsAt {params : Option Fields} (h : Client.CanPage path params pages.length)
    {j : Nat} (hj : j < max 1 pages.length) :
    Reading.integer?
        (((Call.firstValues (Client.pairsAt params j)).lookup "page".toList).getD "1") =
      some ((j : Int) + 1) := by
  cases j with
  | zero =>
    have hnone : (Client.pairsOf params).lookup "page".toList = none :=
      List.lookup_eq_none_iff.2 fun pair hpair => bne_iff_ne.2 (h.paramsPageless pair hpair).symm
    rw [Client.pairsAt, Call.lookup_firstValues, hnone]
    rfl
  | succ j =>
    obtain ⟨-, -, hdigits⟩ := h.linked (j + 2) (by omega) (by omega)
    have hvalue : (Call.firstValues (Client.pairsAt params (j + 1))).lookup "page".toList =
        some (Text.ofNat (j + 2)) := List.lookup_cons_self
    rw [hvalue, Option.getD_some, Reading.integer?_ofNat, if_pos hdigits]
    rfl

theorem isAscii_of_keepsInQuery {t : Text} (h : ∀ c ∈ t, Url.keepsInQuery c = true) :
    Host.isAscii t = true := by
  rw [Host.isAscii, List.all_eq_true]
  intro c hc
  have hkeeps := h c hc
  rw [Url.keepsInQuery, Url.isPlainAscii, Bool.and_eq_true, Bool.and_eq_true,
    decide_eq_true_eq, decide_eq_true_eq] at hkeeps
  have hhigh : c.toNat ≤ '~'.toNat := hkeeps.1.2
  exact decide_eq_true (lt_of_le_of_lt hhigh (by decide))

theorem linkTo_eq (path : Text) (page : Nat) :
    linkTo path page = Reply.writeNext (linkAddress path page) := by
  rfl

theorem isAscii_linkTo (hp : IsPlain path) (page : Nat) :
    Host.isAscii (linkTo path page) = true := by
  have haddress : Host.isAscii (linkAddress path page) = true := by
    rw [Client.linkAddress_eq]
    exact isAscii_of_keepsInQuery
      (Url.keepsInQuery_homeAddress hp fun _ hc => Url.keepsInQuery_of_mem_write hc)
  have hmark : Host.isAscii ">; rel=\"next\"".toList = true := by decide
  rw [Host.isAscii] at haddress hmark
  rw [linkTo_eq, Reply.writeNext, Host.isAscii, List.all_append, List.all_cons, haddress, hmark]
  decide

theorem codings_link (status : Int) (value : Text) (body : Reply.Body) :
    Reply.codings ⟨status, [("Link".toList, value)], body⟩ = [] := by
  rfl

theorem make_replyAt (hp : IsPlain path)
    (hsend : ∀ page ∈ pages, (Payload.list page).IsSendable 0) (j : Nat) :
    Reply.make 200 (if j + 1 < pages.length then
        [("Link".toList, .text (linkTo path ((j + 2 : Nat) : Int)))] else [])
      (.list (pages[j]?.getD [])) = .ok (replyAt path pages j) := by
  have hitems : (Payload.list (pages[j]?.getD [])).check true = .ok () := by
    cases hpage : pages[j]? with
    | none => rfl
    | some page => exact Payload.check_eq_ok_iff.2 (hsend page (List.mem_of_getElem? hpage))
  unfold Reply.make replyAt
  split_ifs with hj
  · have hheader : sendableHeaders [("Link".toList, .text (linkTo path ((j + 2 : Nat) : Int)))] =
        .ok [("Link".toList, linkTo path ((j + 2 : Nat) : Int))] := by
      rw [sendableHeaders, isAscii_linkTo hp]
      rfl
    rw [hheader]
    dsimp only [bind, Except.bind]
    rw [hitems, codings_link, linkTo_eq]
    rfl
  · dsimp only [sendableHeaders, bind, Except.bind]
    rw [hitems]
    rfl

section Served

variable {s : Script} (hs : s.Serves path pages)

include hs

theorem Serves.route?_eq_none {c : Call} (hmethod : c.method = "GET".toList)
    (hpath : c.path = path) : s.route? c = none := by
  refine Script.route?_eq_none fun r hr => ?_
  rw [hmethod, hpath]
  exact hs.unrouted r hr

theorem Serves.replyTo_pairsAt {params : Option Fields}
    (h : Client.CanPage path params pages.length) {j : Nat} (hj : j < max 1 pages.length) :
    s.replyTo ⟨"GET", path, Call.firstValues (Client.pairsAt params j), .null⟩ =
      .ok (replyAt path pages j) := by
  have hlinks : (if (j : Int) + 1 < pages.length then
      [("Link".toList, Payload.text (linkTo path ((j : Int) + 1 + 1)))] else []) =
      if j + 1 < pages.length then
        [("Link".toList, Payload.text (linkTo path ((j + 2 : Nat) : Int)))] else [] := by
    have hnext : (j : Int) + 1 + 1 = ((j + 2 : Nat) : Int) := by omega
    rw [hnext]
    exact if_congr (by omega) rfl rfl
  rw [replyTo, hs.direct]
  dsimp only
  rw [scripted, hs.route?_eq_none rfl rfl]
  dsimp only
  rw [if_pos rfl, hs.listed]
  dsimp only
  rw [pageReply]
  dsimp only
  rw [number_pairsAt h hj]
  dsimp only [bind, Except.bind]
  rw [pageAt_succ]
  dsimp only
  rw [hlinks, make_replyAt h.plain hs.sendable]
  rfl

end Served

end Script

namespace Client

variable {path : Text} {params : Option Fields} {pages : List (List Payload)} {c : Client}

theorem receive_requestAt (c : Client) (path : Text) (pairs : List (Text × Text)) {reply : Reply}
    (h : Reply.redirections.contains reply.status = false) :
    receive (c.requestAt path pairs) reply = .ok reply := by
  have htyped : (c.requestAt path pairs).url.isTyped = true := Url.isTyped_homeAt
  have hlocation : reply.location? = none := by
    rw [Reply.location?, h]
    rfl
  rw [receive, htyped, hlocation]
  rfl

theorem givesPage_replyAt (c : Client) (path : Text) (pairs : List (Text × Text))
    (pages : List (List Payload)) (j : Nat) :
    GivesPage (c.requestAt path pairs) (Script.replyAt path pages j) (pages[j]?.getD []) :=
  ⟨receive_requestAt c path pairs rfl, (by decide : (200 : Int) < 400), rfl⟩

theorem take_append_getD (pages : List (List Payload)) (j : Nat) :
    (pages.take j).flatten ++ pages[j]?.getD [] = (pages.take (j + 1)).flatten := by
  rw [List.take_add_one, List.flatten_append]
  cases pages[j]? <;> simp

def requestsFor (c : Client) (path : Text) (params : Option Fields) (count : Nat) : List Request :=
  (List.range count).map fun j => c.requestAt path (pairsAt params j)

@[simp] theorem length_requestsFor (c : Client) (path : Text) (params : Option Fields)
    (count : Nat) : (c.requestsFor path params count).length = count := by
  simp [requestsFor]

@[simp] theorem requestsFor_zero (c : Client) (path : Text) (params : Option Fields) :
    c.requestsFor path params 0 = [] := rfl

theorem take_requestsFor (c : Client) (path : Text) (params : Option Fields) {k count : Nat}
    (hk : k ≤ count) : (c.requestsFor path params count).take k = c.requestsFor path params k := by
  rw [requestsFor, ← List.map_take, List.take_range, min_eq_left hk]
  rfl

theorem requestsFor_succ (c : Client) (path : Text) (params : Option Fields) (count : Nat) :
    c.requestsFor path params (count + 1) =
      c.requestsFor path params count ++ [c.requestAt path (pairsAt params count)] := by
  rw [requestsFor, List.range_succ, List.map_append]
  rfl

section Walk

variable {S : Type} [Service S] {now : Moment} (hc : c.base = Url.home)
  (h : CanPage path params pages.length)

include hc h

theorem follows_of_follows {m : Nat} (hm : m < max 1 pages.length) {s : Nat → S}
    (hs : ∀ j < m, Service.answer (s j) (c.requestAt path (pairsAt params j)) =
      (.ok (Script.replyAt path pages j), s (j + 1)))
    {requests : List Request} {outcome : Outcome (List Payload)} {s' : S}
    (hrest : Follows c now (addressAt path m) (paramsAt params m) (s m) requests outcome s') :
    Follows c now path params (s 0) (c.requestsFor path params m ++ requests)
      (outcome.map ((pages.take m).flatten ++ ·)) s' := by
  -- the last of the pages is put in front of what follows, and the pages before it are fewer
  induction m generalizing requests outcome with
  | zero =>
    have hsame : outcome.map (([] : List Payload) ++ ·) = outcome := by cases outcome <;> rfl
    show Follows c now path params (s 0) requests (outcome.map (([] : List Payload) ++ ·)) s'
    rwa [hsame]
  | succ m ih =>
    have hnext : (Script.replyAt path pages m).next? = some (addressAt path (m + 1)) := by
      rw [Script.next?_replyAt h, if_pos (by omega)]
      rfl
    have hstep := Follows.more (requestFor_at hc h (by omega)) (hs m (by omega))
      (givesPage_replyAt c path _ pages m) hnext hrest
    have hbefore := ih (by omega) (fun j hj => hs j (by omega)) hstep
    have houtcome : (outcome.map (pages[m]?.getD [] ++ ·)).map ((pages.take m).flatten ++ ·) =
        outcome.map ((pages.take (m + 1)).flatten ++ ·) := by
      cases outcome with
      | error f => rfl
      | ok rest =>
        show Except.ok ((pages.take m).flatten ++ (pages[m]?.getD [] ++ rest)) = _
        rw [← List.append_assoc, take_append_getD]
        rfl
    rw [houtcome] at hbefore
    rw [requestsFor_succ, List.append_assoc]
    exact hbefore

theorem follows_pages {s : Nat → S} (hs : ∀ j < max 1 pages.length,
      Service.answer (s j) (c.requestAt path (pairsAt params j)) =
        (.ok (Script.replyAt path pages j), s (j + 1))) :
    Follows c now path params (s 0) (c.requestsFor path params (max 1 pages.length))
      (.ok pages.flatten) (s (max 1 pages.length)) := by
  obtain ⟨m, hm⟩ : ∃ m, max 1 pages.length = m + 1 := Nat.exists_eq_add_one.2 (by omega)
  have hnext : (Script.replyAt path pages m).next? = none := by
    rw [Script.next?_replyAt h, if_neg (by omega)]
  have hlast : Follows c now (addressAt path m) (paramsAt params m) (s m)
      [c.requestAt path (pairsAt params m)] (.ok (pages[m]?.getD [])) (s (m + 1)) :=
    .last (requestFor_at hc h (by omega)) (hs m (by omega)) (givesPage_replyAt c path _ pages m)
      hnext
  have hall := follows_of_follows hc h (by omega) (fun j hj => hs j (by omega)) hlast
  have hitems : pages.take (m + 1) = pages := List.take_of_length_le (by omega)
  rw [hm, requestsFor_succ]
  rw [Except.map, take_append_getD, hitems] at hall
  exact hall

theorem follows_refused {k : Nat} (hk : k < max 1 pages.length) {s : Nat → S}
    (hs : ∀ j < k, Service.answer (s j) (c.requestAt path (pairsAt params j)) =
      (.ok (Script.replyAt path pages j), s (j + 1))) {reply : Reply} {s' : S}
    (hrefused : Service.answer (s k) (c.requestAt path (pairsAt params k)) = (.ok reply, s'))
    (hstatus : 400 ≤ reply.status) :
    Follows c now path params (s 0) (c.requestsFor path params (k + 1))
      (Failure.ofReply now reply >>= fun f => .error (.failure f)) s' := by
  have hredirect : Reply.redirections.contains reply.status = false := by
    have hlow : ∀ i ∈ Reply.redirections, i < 400 := by decide
    simp only [List.contains_eq_mem, decide_eq_false_iff_not]
    intro hmem
    have hless := hlow _ hmem
    omega
  have hlast : Follows c now (addressAt path k) (paramsAt params k) (s k)
      [c.requestAt path (pairsAt params k)]
      (Failure.ofReply now reply >>= fun f => .error (.failure f)) s' :=
    .refused (requestFor_at hc h hk) hrefused (receive_requestAt c path _ hredirect) hstatus
  have hall := follows_of_follows hc h hk hs hlast
  rw [requestsFor_succ]
  cases hmapped : Failure.ofReply now reply with
  | error f =>
    rw [hmapped] at hall
    exact hall
  | ok f =>
    rw [hmapped] at hall
    exact hall

end Walk

end Client

namespace Script

def heard (s : Script) (requests : List Request) : Script :=
  { s with calls := s.calls ++ requests.map Call.ofRequest }

theorem answer_heard (s : Script) (requests : List Request) (r : Request) :
    Service.answer (s.heard requests) r =
      (s.replyTo (Call.ofRequest r), s.heard (requests ++ [r])) := by
  have hcalls : (s.calls ++ requests.map Call.ofRequest) ++ [Call.ofRequest r] =
      s.calls ++ (requests ++ [r]).map Call.ofRequest := by
    rw [List.map_append, List.append_assoc]
    rfl
  unfold heard
  rw [← hcalls]
  rfl

@[simp] theorem heard_nil (s : Script) : s.heard [] = s := by
  rw [heard, List.map_nil, List.append_nil]

end Script

/-- A service that answers some more requests from its script, and then only with one reply. -/
structure Faltering where
  script : Script
  left : Nat
  reply : Reply

namespace Faltering

def answer (f : Faltering) (r : Request) : Except Outage Reply × Faltering :=
  let (said, script) := f.script.answer r
  match f.left with
  | 0 => (.ok f.reply, { f with script := script })
  | left + 1 => (said, { f with script := script, left := left })

instance : Service Faltering := ⟨answer⟩

end Faltering

def World.withService {S S' T : Type} (w : World S T) (s : S') : World S' T :=
  ⟨s, w.caches, w.now, w.time, w.lines⟩

namespace Client

variable {path : Text} {params : Option Fields} {pages : List (List Payload)} {c : Client}
  {s : Script}

def Links (s : Script) (a b : Request) : Prop :=
  ∃ reply next, s.replyTo (Call.ofRequest a) = .ok reply ∧ reply.next? = some next ∧
    Url.read next = .ok b.url

theorem answer_requestsFor (hs : s.Serves path pages) (h : CanPage path params pages.length)
    {j : Nat} (hj : j < max 1 pages.length) :
    Service.answer (s.heard (c.requestsFor path params j)) (c.requestAt path (pairsAt params j)) =
      (.ok (Script.replyAt path pages j), s.heard (c.requestsFor path params (j + 1))) := by
  rw [Script.answer_heard, ofRequest_requestAt c h.plain, hs.replyTo_pairsAt h hj,
    requestsFor_succ]

theorem answer_faltering (hs : s.Serves path pages) (h : CanPage path params pages.length)
    {j k : Nat} (hj : j < k) (hk : k < max 1 pages.length) (reply : Reply) :
    Service.answer (Faltering.mk (s.heard (c.requestsFor path params j)) (k - j) reply)
        (c.requestAt path (pairsAt params j)) =
      (.ok (Script.replyAt path pages j),
        Faltering.mk (s.heard (c.requestsFor path params (j + 1))) (k - (j + 1)) reply) := by
  have hleft : k - j = k - (j + 1) + 1 := by omega
  have hscript : (s.heard (c.requestsFor path params j)).answer
      (c.requestAt path (pairsAt params j)) = _ := answer_requestsFor hs h (by omega)
  show Faltering.answer _ _ = _
  rw [Faltering.answer, hscript, hleft]

theorem answer_faltered (s : Script) (c : Client) (path : Text) (params : Option Fields) (k : Nat)
    (reply : Reply) :
    Service.answer (Faltering.mk (s.heard (c.requestsFor path params k)) 0 reply)
        (c.requestAt path (pairsAt params k)) =
      (.ok reply, Faltering.mk (s.heard (c.requestsFor path params (k + 1))) 0 reply) := by
  have hscript : (s.heard (c.requestsFor path params k)).answer
      (c.requestAt path (pairsAt params k)) = _ := s.answer_heard _ _
  show Faltering.answer _ _ = _
  rw [Faltering.answer, hscript, requestsFor_succ]

theorem isChain_requestsFor (hs : s.Serves path pages) (h : CanPage path params pages.length) :
    (c.requestsFor path params (max 1 pages.length)).IsChain (Links s) := by
  rw [requestsFor, List.isChain_map, List.isChain_range]
  intro j hj
  refine ⟨Script.replyAt path pages j, Script.linkAddress path (j + 2), ?_, ?_, ?_⟩
  · rw [ofRequest_requestAt c h.plain]
    exact hs.replyTo_pairsAt h (by omega)
  · rw [Script.next?_replyAt h, if_pos (by omega)]
  · obtain ⟨-, hlength, -⟩ := h.linked (j + 2) (by omega) (by omega)
    rw [linkAddress_eq] at hlength ⊢
    exact Url.read_homeAddress h.plain (fun _ hc => Url.keepsInQuery_of_mem_write hc) hlength

theorem map_ofRequest_requestsFor (h : CanPage path params pages.length) :
    (c.requestsFor path params (max 1 pages.length)).map Call.ofRequest =
      ⟨"GET", path, Call.firstValues (pairsOf params), .null⟩ ::
        (List.range' 2 (pages.length - 1)).map fun page =>
          ⟨"GET", path, [("page".toList, Text.ofNat page)], .null⟩ := by
  have hcount : max 1 pages.length = (pages.length - 1) + 1 := by omega
  rw [hcount, requestsFor, List.map_map, List.range_succ_eq_map, List.map_cons, List.map_map,
    List.range'_eq_map_range, List.map_map]
  refine congrArg₂ _ (ofRequest_requestAt c h.plain _) (List.map_congr_left ?_)
  intro j _
  have hpage : 2 + j = j + 2 := Nat.add_comm 2 j
  show Call.ofRequest (c.requestAt path (pairsAt params (j + 1))) =
    ⟨"GET", path, [("page".toList, Text.ofNat (2 + j))], .null⟩
  rw [ofRequest_requestAt c h.plain, hpage]
  rfl

variable {settings : Settings} {limit : Nat} {T : Type} [TimeScale T]

theorem run_pages_of_follows {S : Type} [Service S] {w : World S T} (hlimit : c.pageLimit = limit)
    (hp : IsPlain path) {requests : List Request} {outcome : Outcome (List Payload)} {t : S}
    (hrun : Follows c w.now path params w.service requests outcome t)
    (hcount : requests.length ≤ limit) :
    World.run (c.pages path params) w = (outcome, { w with service := t }) := by
  obtain ⟨rest, hrest, -⟩ := hp.rooted
  have hfull : path.isEmpty = false := by rw [hrest]; rfl
  unfold pages
  rw [hfull, hlimit]
  exact hrun.run World.runErrand rfl rfl hcount

/-- A list is asked for page by page: once for each page, or once if there are none, first with
the parameters of the caller and then by the link of the page before. All items come, in the
order of the pages. If one of the requests is answered with an error instead, it is the last one,
and the failure that the error means is all that comes. -/
theorem pages_of_serves (hs : s.Serves path pages) (h : CanPage path params pages.length)
    (hc : make settings limit = .ok c) (hhome : settings.baseUrl = homeAddress)
    (hlimit : max 1 pages.length ≤ limit) (w : World Script T) :
    ∃ requests : List Request, requests.length = max 1 pages.length ∧
      requests.map Call.ofRequest =
        ⟨"GET", path, Call.firstValues (pairsOf params), .null⟩ ::
          (List.range' 2 (pages.length - 1)).map (fun page =>
            ⟨"GET", path, [("page".toList, Text.ofNat page)], .null⟩) ∧
      requests.IsChain (Links s) ∧
      World.run (c.pages path params) (w.withService s) =
        (.ok pages.flatten, w.withService (s.heard requests)) ∧
      ∀ k < max 1 pages.length, ∀ reply : Reply, 400 ≤ reply.status →
        World.run (c.pages path params) (w.withService (Faltering.mk s k reply)) =
          (Failure.ofReply w.now reply >>= fun f => .error (.failure f),
            w.withService (Faltering.mk (s.heard (requests.take (k + 1))) 0 reply)) := by
  obtain ⟨hbase, hpages⟩ : c.base = Url.home ∧ c.pageLimit = limit := by
    rw [make_eq hhome] at hc
    split_ifs at hc
    cases hc
    exact ⟨rfl, rfl⟩
  refine ⟨c.requestsFor path params (max 1 pages.length), ?_, map_ofRequest_requestsFor h,
    isChain_requestsFor hs h, ?_, ?_⟩
  · exact c.length_requestsFor path params _
  · have hall : Follows c w.now path params (s.heard (c.requestsFor path params 0))
        (c.requestsFor path params (max 1 pages.length)) (.ok pages.flatten)
        (s.heard (c.requestsFor path params (max 1 pages.length))) :=
      follows_pages (s := fun j => s.heard (c.requestsFor path params j)) hbase h
        fun j hj => answer_requestsFor hs h hj
    rw [requestsFor_zero, Script.heard_nil] at hall
    refine run_pages_of_follows (w := w.withService s) hpages h.plain hall ?_
    rwa [length_requestsFor]
  · intro k hk reply hstatus
    have hrefused : Follows c w.now path params
        (Faltering.mk (s.heard (c.requestsFor path params 0)) (k - 0) reply)
        (c.requestsFor path params (k + 1))
        (Failure.ofReply w.now reply >>= fun f => .error (.failure f))
        (Faltering.mk (s.heard (c.requestsFor path params (k + 1))) 0 reply) := by
      refine follows_refused
        (s := fun j => Faltering.mk (s.heard (c.requestsFor path params j)) (k - j) reply)
        hbase h hk (fun j hj => answer_faltering hs h hj hk reply) ?_ hstatus
      rw [Nat.sub_self]
      exact answer_faltered s c path params k reply
    have htake : (c.requestsFor path params (max 1 pages.length)).take (k + 1) =
        c.requestsFor path params (k + 1) := c.take_requestsFor path params hk
    rw [requestsFor_zero, Script.heard_nil] at hrefused
    rw [htake]
    refine run_pages_of_follows (w := w.withService (Faltering.mk s k reply)) hpages h.plain
      hrefused ?_
    rw [length_requestsFor]
    omega

end Client

namespace Script

def listWorld (path : Text) (pages : List (List Payload)) : World Script (Number Float) where
  service := ({} : Script).servePages path pages
  caches := fun _ => ⟨1, []⟩
  now := .midnight ⟨2024, 6, 15, by decide⟩
  time := .int 0

def gappedPath : Text := "/users/o'neil/repos"

def gappedPages : List (List Payload) := [[.int 1], [], [.text "two"]]

end Script

namespace Client

open Script (listWorld gappedPath gappedPages)

theorem pages_of_serves_gapped :
    ∃ (c : Client) (requests : List Request), requests.length = 3 ∧
      make { token := "t" } (listWorld gappedPath gappedPages).service.linkBound = .ok c ∧
      World.run (c.pages gappedPath (some [("per_page", .int 100)]))
          (listWorld gappedPath gappedPages) =
        (.ok [.int 1, .text "two"], (listWorld gappedPath gappedPages).withService
          ((listWorld gappedPath gappedPages).service.heard requests)) ∧
      (World.run (c.pages gappedPath (some [("per_page", .int 100)]))
          ((listWorld gappedPath gappedPages).withService (Faltering.mk
            (listWorld gappedPath gappedPages).service 1 ⟨500, [], .empty⟩))).1 =
        .error (.failure ⟨.remote, .text "HTTP 500", some 500, none⟩) := by
  let w := listWorld gappedPath gappedPages
  have hserves : w.service.Serves gappedPath gappedPages :=
    Script.serves_servePages nofun rfl (by decide)
  have hpage : CanPage gappedPath (some [("per_page".toList, .int 100)]) gappedPages.length := by
    refine ⟨⟨⟨_, rfl, by decide⟩, Text.forall_mem_of_all (by decide), by decide⟩, by decide, ?_,
      by decide, by decide, ?_⟩
    · rintro p ⟨⟩
      rfl
    intro page hlow hhigh
    have hcount : page ≤ 3 := hhigh
    interval_cases page <;> refine ⟨by decide, by decide, by decide⟩
  have hc : make { token := "t" } w.service.linkBound =
      .ok ⟨{ token := "t" }, Url.home, w.service.linkBound⟩ :=
    (make_eq rfl _).trans (if_pos (by decide))
  obtain ⟨requests, hlength, -, -, hrun, hrefused⟩ :=
    pages_of_serves hserves hpage hc rfl hserves.le_linkBound w
  refine ⟨_, requests, hlength, hc, hrun, ?_⟩
  rw [hrefused 1 (by decide) ⟨500, [], .empty⟩ (by decide)]
  rfl

/-- An empty path, one that does not begin with one slash, one with dots to resolve, one that a
link does not tell and one that is not received as it is written. -/
theorem pages_astray :
    ∃ c, make { token := "t" } 10 = .ok c ∧
      ∀ path ∈ ["".toList, "repos".toList, "//repos".toList, "/repos/./pulls".toList,
          "/a/../b".toList, "/repos;a".toList, "/repos/%70ulls".toList],
        (World.run (c.pages path none) (listWorld path [[.int 1], [.int 2]])).1 ≠
          .ok [.int 1, .int 2] := by
  refine ⟨⟨{ token := "t" }, Url.home, 10⟩, (make_eq rfl _).trans (if_pos (by decide)), ?_⟩
  intro path hpath hrun
  have hshort : ["".toList, "repos".toList, "//repos".toList, "/repos/./pulls".toList,
      "/a/../b".toList, "/repos;a".toList, "/repos/%70ulls".toList].all (fun path =>
        (World.run (pages ⟨{ token := "t" }, Url.home, 10⟩ path none)
          (listWorld path [[.int 1], [.int 2]])).1.toOption.all (·.length != 2)) = true := by
    decide +kernel
  have hnone := List.all_eq_true.1 hshort path hpath
  rw [hrun] at hnone
  cases hnone

end Client

end PullGauge
