import Mathlib
import PullGauge.Proofs.Exchange.Batch
import PullGauge.Pipeline.Search

/-!
# Searches made one by one

A search can be answered without caches, batches or tasks that run together: the page is asked
for, every stub on it is looked up by itself, and of those with a detail the commits are asked
for, all pages of them. What a task of any client comes to at a site, whatever runs beside it,
is what it comes to for a guest who is alone there.
-/

namespace PullGauge

/-- What answers at an address: by the method, the address and the body of a request alone. -/
structure Site where
  base : Url
  pageLimit : Nat
  answer : Text → Url → Option Payload → Except Outage Reply

namespace Site

def service (site : Site) : FixedService := ⟨fun r => site.answer r.method r.url r.body⟩

def Replies (site : Site) (r : Request) (reply : Except Outage Reply) : Prop :=
  reply = site.answer r.method r.url r.body

def client (site : Site) (settings : Client.Settings) : Client :=
  ⟨settings, site.base, site.pageLimit⟩

def guest (site : Site) : Client := site.client { token := [] }

theorem base_client (site : Site) (settings : Client.Settings) :
    (site.client settings).base = site.guest.base := rfl

theorem pageLimit_client (site : Site) (settings : Client.Settings) :
    (site.client settings).pageLimit = site.guest.pageLimit := rfl

end Site

variable {J T α β γ : Type} [TimeScale T]

namespace Talk

/-- Whatever comes back, an answer of the one task is the answer that the other comes to in the
world by itself, and it leaves the world as it is. -/
def Mirrors (terms : Terms) (job : J → (Outcome Payload → Prop) → Prop)
    (w : World FixedService T) (t : Talk J α) (t' : Plan α) : Prop :=
  t.Answers terms job fun a => World.run t' w = (.ok a, w)

variable {terms : Terms} {job : J → (Outcome Payload → Prop) → Prop} {w : World FixedService T}

theorem mirrors_failed (f : Fault) (t' : Plan α) :
    (failed f : Talk J α).Mirrors terms job w t' := answers_failed f _

theorem mirrors_clock_failed {next : Moment → Talk J α} (h : ∀ now, ∃ f, next now = failed f)
    (t' : Plan α) : (clock next).Mirrors terms job w t' := by
  intro now
  obtain ⟨f, hf⟩ := h now
  rw [hf]
  show (failed f : Talk J α).Mirrors terms job w t'
  exact mirrors_failed f t'

theorem mirrors_done (a : α) : (done a : Talk J α).Mirrors terms job w (done a) :=
  answers_done rfl

theorem Mirrors.bind {t : Talk J α} {t' : Plan α} {f : α → Talk J β} {f' : α → Plan β}
    (h : t.Mirrors terms job w t') (hf : ∀ a, (f a).Mirrors terms job w (f' a)) :
    (t >>= f).Mirrors terms job w (t' >>= f') := by
  refine Answers.bind h ?_
  intro a ha
  refine (hf a).answers ?_
  intro sent b hb
  show World.runWith World.runErrand (t'.bind f') w = _
  have hrun : World.runWith World.runErrand t' w = (.ok a, w) := ha
  rw [World.runWith_bind, hrun]
  exact hb b rfl

theorem mirrors_lift_bind {x : Outcome α} {x' : Outcome γ} {f : α → Talk J β} {f' : γ → Plan β}
    (h : ∀ a, x = .ok a → ∃ a', x' = .ok a' ∧ (f a).Mirrors terms job w (f' a')) :
    ((liftM x : Talk J α) >>= f).Mirrors terms job w ((liftM x' : Plan γ) >>= f') := by
  refine answers_lift_bind ?_
  intro a ha
  obtain ⟨a', rfl, hf⟩ := h a ha
  exact hf

theorem mirrors_lift (x : Outcome α) :
    (liftM x : Talk J α).Mirrors terms job w (liftM x : Plan α) := by
  refine answers_ofOutcome ?_
  rintro a rfl
  rfl

end Talk

namespace Client

open Talk

structure Alike (r r' : Request) : Prop where
  method : r.method = r'.method
  url : r.url = r'.url
  body : r.body = r'.body

theorem exists_alike {c c' : Client} (hbase : c.base = c'.base) {method path : Text}
    {params : Option Fields} {body : Option Payload} {r : Request}
    (h : c.requestFor method path params body = .ok r) :
    ∃ r', c'.requestFor method path params body = .ok r' ∧ Alike r r' := by
  obtain ⟨hurl, hsent, htold, hr⟩ := requestFor_eq_ok_iff.1 h
  unfold addressFor at hurl
  rw [hbase] at hurl
  refine ⟨⟨Text.upper method, r.url, c'.headers r.url, body⟩,
    requestFor_eq_ok_iff.2 ⟨hurl, hsent, htold, rfl⟩, ?_⟩
  rw [hr]
  exact ⟨rfl, rfl, rfl⟩

theorem receive_of_alike {r r' : Request} (h : Alike r r') (reply : Reply) :
    receive r reply = receive r' reply := by
  unfold receive redirect
  rw [h.url]

theorem decode_of_alike {r r' : Request} (h : Alike r r') (reply : Reply) :
    decode r reply = decode r' reply := by
  unfold decode
  rw [h.url]

theorem AnswersFrom.of_base {c c' : Client} (hbase : c.base = c'.base)
    {replies replies' : Request → Except Outage Reply → Prop} {selection : Text}
    {directory : Directory} (h : c'.AnswersFrom replies' selection directory)
    (hreplies : ∀ document r r' reply, c.Asks document r → Alike r r' → replies r reply →
      replies' r' reply) : c.AnswersFrom replies selection directory := by
  intro places r reply hreadable hasks hreply
  obtain ⟨r', hr', halike⟩ := exists_alike hbase hasks
  obtain ⟨data, ⟨answer, fields, errors, hanswer, hreceive, hrest⟩, hanswers⟩ :=
    h places r' reply hreadable hr' (hreplies _ r r' reply hasks halike hreply)
  rw [← receive_of_alike halike] at hreceive
  exact ⟨data, ⟨answer, fields, errors, hanswer, hreceive, hrest⟩, hanswers⟩

variable {site : Site} {terms : Terms} {job : J → (Outcome Payload → Prop) → Prop}
  {w : World FixedService T}

theorem mirrors_send (hterms : terms.replies = site.Replies) (hw : w.service = site.service)
    {r r' : Request} (h : Alike r r') {next : Except Outage Reply → Talk J α}
    {next' : Except Outage Reply → Plan α}
    (hnext : ∀ reply, (next reply).Mirrors terms job w (next' reply)) :
    (send r next).Mirrors terms job w (send r' next') := by
  intro reply hreply
  rw [hterms] at hreply
  have hanswer : Service.answer w.service r' = (reply, w.service) := by
    rw [hreply, h.method, h.url, h.body, hw]
    rfl
  refine (hnext reply).mono ?_
  intro sent o ho a ha
  show World.runWith _ (next' (Service.answer w.service r').1)
    { w with service := (Service.answer w.service r').2 } = _
  rw [hanswer]
  exact ho a ha

theorem mirrors_exchange (hterms : terms.replies = site.Replies) (hw : w.service = site.service)
    {r r' : Request} (h : Alike r r') :
    (exchange r : Talk J Reply).Mirrors terms job w (exchange r') := by
  refine mirrors_send hterms hw h ?_
  intro reply
  cases reply with
  | error outage =>
    cases outage with
    | refused message => exact mirrors_failed _ _
    | crashed fault => exact mirrors_failed _ _
  | ok reply =>
    dsimp only
    rw [receive_of_alike h]
    cases receive r' reply with
    | error fault => exact mirrors_failed _ _
    | ok reply =>
      dsimp only
      split_ifs with hstatus
      · exact mirrors_done reply
      · refine mirrors_clock_failed ?_ _
        intro now
        cases Failure.ofReply now reply with
        | error fault => exact ⟨fault, rfl⟩
        | ok f => exact ⟨.failure f, rfl⟩

theorem mirrors_ask_bind (hterms : terms.replies = site.Replies) (hw : w.service = site.service)
    {c c' : Client} (hbase : c.base = c'.base) {method path : Text} {params : Option Fields}
    {body : Option Payload} {next : Request → Reply → Talk J α} {next' : Request → Reply → Plan α}
    (hnext : ∀ r r' reply, Alike r r' → (next r reply).Mirrors terms job w (next' r' reply)) :
    ((liftM (c.requestFor method path params body) : Talk J Request) >>= fun r =>
        exchange r >>= next r).Mirrors terms job w
      ((liftM (c'.requestFor method path params body) : Plan Request) >>= fun r =>
        exchange r >>= next' r) := by
  refine mirrors_lift_bind ?_
  intro r hr
  obtain ⟨r', hr', halike⟩ := exists_alike hbase hr
  refine ⟨r', hr', (mirrors_exchange hterms hw halike).bind ?_⟩
  intro reply
  exact hnext r r' reply halike

theorem mirrors_request (hterms : terms.replies = site.Replies) (hw : w.service = site.service)
    {c c' : Client} (hbase : c.base = c'.base) (method path : Text) (params : Option Fields)
    (body : Option Payload) :
    (c.request method path params body : Talk J Payload).Mirrors terms job w
      (c'.request method path params body) := by
  unfold request
  refine mirrors_ask_bind hterms hw hbase ?_
  intro r r' reply halike
  rw [decode_of_alike halike]
  exact mirrors_lift _

theorem mirrors_pagesFrom (hterms : terms.replies = site.Replies) (hw : w.service = site.service)
    {c c' : Client} (hbase : c.base = c'.base) (limit : Nat) (path : Text)
    (params : Option Fields) :
    (c.pagesFrom limit path params : Talk J (List Payload)).Mirrors terms job w
      (c'.pagesFrom limit path params) := by
  induction limit generalizing path params with
  | zero => exact mirrors_failed _ _
  | succ limit ih =>
    unfold pagesFrom
    refine mirrors_ask_bind hterms hw hbase ?_
    intro r r' reply halike
    rw [decode_of_alike halike]
    refine (mirrors_lift _).bind fun p => (mirrors_lift _).bind fun items => ?_
    cases reply.next? with
    | none => exact mirrors_done items
    | some next => exact (ih next none).bind fun more => mirrors_done _

theorem mirrors_pullCommits (hterms : terms.replies = site.Replies)
    (hw : w.service = site.service) {c c' : Client} (hbase : c.base = c'.base)
    (hlimit : c.pageLimit = c'.pageLimit) (owner name : Text) (number : Payload) :
    (c.pullCommits owner name number : Talk J (List Payload)).Mirrors terms job w
      (c'.pullCommits owner name number) := by
  unfold pullCommits pages
  split_ifs with hempty
  · exact mirrors_done []
  · rw [hlimit]
    exact mirrors_pagesFrom hterms hw hbase _ _ _

theorem mirrors_searchPage (hterms : terms.replies = site.Replies) (hw : w.service = site.service)
    {c c' : Client} (hbase : c.base = c'.base) (query : Text) (o : SearchOptions)
    (advanced : Bool) :
    (c.searchPage query o advanced : Talk J SearchPage).Mirrors terms job w
      (c'.searchPage query o advanced) := by
  unfold searchPage Client.get
  exact (mirrors_request hterms hw hbase _ _ _ _).bind fun p => mirrors_lift _

end Client

namespace Site

variable (site : Site) (w : World FixedService T) (directory : Directory)

def commitsOf (owner name : Text) (number : Payload) : Outcome (List Payload) :=
  (World.run (site.guest.pullCommits owner name number) w).1

def commitsFor (r : Resolved) : Outcome (List Payload) := do
  site.commitsOf w r.owner r.name (← r.stub.member "number")

def recordOf (r : Resolved) : Outcome Record := do
  Record.assemble r.detail r.stub r.owner r.name (← site.commitsFor w r)

def record? (stub : Payload) : Outcome (Option Record) := do
  match ← Resolved.alone directory stub with
  | none => pure none
  | some r => do pure (some (← site.recordOf w r))

def pageOf (query : Text) (o : Client.SearchOptions) : Outcome Client.SearchPage :=
  (World.run (site.guest.searchPage query o true) w).1

def resultOf (query : Text) (o : Client.SearchOptions) : Outcome SearchResult := do
  let page ← site.pageOf w query o
  let records ← (← Resolved.stubsOf page.items).mapM (site.record? w directory)
  pure ⟨page.totalCount, page.incomplete, records.reduceOption⟩

def search (query : Text) (o : Client.SearchOptions) : Outcome SearchResult := do
  site.resultOf w directory (← sanitize query) o

end Site

end PullGauge
