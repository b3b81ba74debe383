import Mathlib
import PullGauge.World
import PullGauge.Exchange.Resources

/-!
# Tasks that only ask

Whatever the client looks up, it sends requests and looks at the clock, and does nothing else. So
while a service answers in its fixed way, what such a task comes to depends on the service and on
the clock only, and it leaves the world as it is.
-/

namespace PullGauge

variable {J T α β : Type}

namespace Talk

def OnlyAsks : Talk J α → Prop
  | .done _ => True
  | .failed _ => True
  | .send _ next => ∀ reply, OnlyAsks (next reply)
  | .clock next => ∀ now, OnlyAsks (next now)
  | .consult .. => False
  | .keep .. => False
  | .note .. => False
  | .together .. => False

theorem OnlyAsks.bind {t : Talk J α} {f : α → Talk J β} (h : t.OnlyAsks)
    (hf : ∀ a, (f a).OnlyAsks) : (t.bind f).OnlyAsks := by
  induction t with
  | done a => exact hf a
  | failed fault => trivial
  | send r next ih => exact fun reply => ih reply (h reply)
  | clock next ih => exact fun now => ih now (h now)
  | consult s key next ih => exact h.elim
  | keep s key data life next ih => exact h.elim
  | note line next ih => exact h.elim
  | together jobs next ih => exact h.elim

theorem onlyAsks_ofOutcome (x : Outcome α) : (ofOutcome x : Talk J α).OnlyAsks := by
  cases x with
  | error fault => trivial
  | ok a => trivial

end Talk

namespace World

variable [TimeScale T]

theorem runWith_of_onlyAsks {t : Talk J α} (h : t.OnlyAsks)
    (job job' : J → World FixedService T → Outcome Payload × World FixedService T)
    {w w' : World FixedService T} (hs : w.service = w'.service) (hn : w.now = w'.now) :
    runWith job t w = ((runWith job' t w').1, w) := by
  induction t with
  | done a => rfl
  | failed fault => rfl
  | send r next ih =>
    have hsame : Service.answer w'.service r = ((Service.answer w.service r).1, w'.service) := by
      rw [← hs]
      rfl
    have hnext := ih (Service.answer w.service r).1 (h _)
    rw [runWith, runWith, hsame]
    exact hnext
  | clock next ih =>
    rw [runWith, runWith, ← hn]
    exact ih w.now (h _)
  | consult s key next ih => exact h.elim
  | keep s key data life next ih => exact h.elim
  | note line next ih => exact h.elim
  | together jobs next ih => exact h.elim

theorem inOrder_of_onlyAsks {jobs : List Errand} (h : ∀ e ∈ jobs, e.OnlyAsks)
    (w : World FixedService T) :
    inOrder runErrand jobs w = (jobs.map fun e => (runErrand e w).1, w) := by
  induction jobs with
  | nil => rfl
  | cons e jobs ih =>
    rw [List.forall_mem_cons] at h
    have hfirst : runErrand e w = ((runErrand e w).1, w) := runWith_of_onlyAsks h.1 _ _ rfl rfl
    rw [inOrder, hfirst]
    dsimp only
    rw [ih h.2]
    rfl

end World

namespace Client

open Talk (OnlyAsks onlyAsks_ofOutcome)

theorem onlyAsks_exchange (r : Request) : (exchange r : Talk J Reply).OnlyAsks := by
  intro reply
  cases reply with
  | error outage =>
    cases outage with
    | refused message => trivial
    | crashed fault => trivial
  | ok reply =>
    dsimp only
    cases receive r reply with
    | error fault => trivial
    | ok reply =>
      dsimp only
      split_ifs
      · trivial
      · intro now
        dsimp only
        cases Failure.ofReply now reply with
        | error fault => trivial
        | ok f => trivial

theorem onlyAsks_request (c : Client) (method path : Text) (params : Option Fields)
    (body : Option Payload) : (c.request method path params body : Talk J Payload).OnlyAsks := by
  refine (onlyAsks_ofOutcome (c.requestFor method path params body)).bind fun r => ?_
  exact (onlyAsks_exchange r).bind fun reply => onlyAsks_ofOutcome (decode r reply)

theorem onlyAsks_pagesFrom (c : Client) (limit : Nat) (path : Text) (params : Option Fields) :
    (c.pagesFrom limit path params : Talk J (List Payload)).OnlyAsks := by
  induction limit generalizing path params with
  | zero => trivial
  | succ limit ih =>
    refine (onlyAsks_ofOutcome (c.requestFor "GET" path params none)).bind fun r => ?_
    refine (onlyAsks_exchange r).bind fun reply => ?_
    refine (onlyAsks_ofOutcome (decode r reply)).bind fun answer => ?_
    refine (onlyAsks_ofOutcome (pageItems answer)).bind fun items => ?_
    cases reply.next? with
    | none => trivial
    | some next => exact (ih next none).bind fun more => trivial

theorem onlyAsks_pages (c : Client) (path : Text) (params : Option Fields) :
    (c.pages path params : Talk J (List Payload)).OnlyAsks := by
  unfold pages
  split_ifs
  · trivial
  · exact onlyAsks_pagesFrom c c.pageLimit path params

variable (c : Client) (owner name : Text)

theorem onlyAsks_repository : (c.repository owner name : Talk J Payload).OnlyAsks :=
  onlyAsks_request ..

theorem onlyAsks_commitActivity : (c.commitActivity owner name : Talk J (List Payload)).OnlyAsks := by
  refine OnlyAsks.bind (onlyAsks_request ..) fun answer => ?_
  cases answer <;> trivial

theorem onlyAsks_communityProfile : (c.communityProfile owner name : Talk J Payload).OnlyAsks :=
  OnlyAsks.bind (onlyAsks_request ..) fun _ => trivial

end Client

end PullGauge
