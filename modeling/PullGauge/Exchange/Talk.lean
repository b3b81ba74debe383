import PullGauge.Exchange.Message
import PullGauge.Record.Assembly
import PullGauge.Metrics.Developer
import PullGauge.Log.Logger

/-!
# Conversations

A task that talks to the service is a tree: what it does next, and how it goes on with what
comes back. It can send a request, read and fill the caches, note a line in the log, ask
for the time, and let several smaller tasks run together. What runs it decides in which
world that happens.
-/

namespace PullGauge

structure Details where
  title : Payload
  created : Option Moment
  published : Option Moment
  closed : Option Moment
  merged : Option Moment
  submissions : List Moment

structure SearchResult where
  totalCount : Payload
  incomplete : Payload
  records : List Record

inductive Shelf where
  | user
  | repository
  | commit
  | search
  deriving DecidableEq

inductive Account where
  | searcher (data : Payload)
  | profile (p : Profile)

inductive RepositoryNote where
  | data (p : Payload)
  | details (d : Details)

def Shelf.Value : Shelf → Type
  | .user => Account
  | .repository => RepositoryNote
  | .commit => List Payload
  | .search => SearchResult

/-- A task with answers of type `α`; `J` is the type of the tasks that it lets run
together. -/
inductive Talk (J α : Type) where
  | done (a : α)
  | failed (f : Fault)
  | send (r : Request) (next : Except Outage Reply → Talk J α)
  | consult (s : Shelf) (key : Text) (next : Option s.Value → Talk J α)
  | keep (s : Shelf) (key : Text) (data : Option s.Value) (life : Option Nat)
      (next : Talk J α)
  | note (line : LogLine) (next : Talk J α)
  | clock (next : Moment → Talk J α)
  | together (jobs : List J) (next : List (Outcome Payload) → Talk J α)

namespace Talk

variable {J α β γ : Type}

def bind (f : α → Talk J β) : Talk J α → Talk J β
  | done a => f a
  | failed e => failed e
  | send r next => send r fun reply => bind f (next reply)
  | consult s key next => consult s key fun v => bind f (next v)
  | keep s key data life next => keep s key data life (bind f next)
  | note line next => note line (bind f next)
  | clock next => clock fun now => bind f (next now)
  | together jobs next => together jobs fun results => bind f (next results)

theorem bind_bind (t : Talk J α) (f : α → Talk J β) (g : β → Talk J γ) :
    bind g (bind f t) = bind (fun a => bind g (f a)) t := by
  induction t with
  | done a => rfl
  | failed e => rfl
  | send r next ih => exact congrArg (send r) (funext ih)
  | consult s key next ih => exact congrArg (consult s key) (funext ih)
  | keep s key data life next ih => exact congrArg (keep s key data life) ih
  | note line next ih => exact congrArg (note line) ih
  | clock next ih => exact congrArg clock (funext ih)
  | together jobs next ih => exact congrArg (together jobs) (funext ih)

instance : Monad (Talk J) where
  pure := done
  bind t f := t.bind f

/-- The outcome of a task as its answer: a failed task goes on as well. -/
def attempt : Talk J α → Talk J (Outcome α)
  | done a => done (.ok a)
  | failed e => done (.error e)
  | send r next => send r fun reply => attempt (next reply)
  | consult s key next => consult s key fun v => attempt (next v)
  | keep s key data life next => keep s key data life (attempt next)
  | note line next => note line (attempt next)
  | clock next => clock fun now => attempt (next now)
  | together jobs next => together jobs fun results => attempt (next results)

def ofOutcome : Outcome α → Talk J α
  | .ok a => done a
  | .error e => failed e

instance : MonadLift (Except Fault) (Talk J) := ⟨ofOutcome⟩

def say (logger : Text) (level : Int) (message : Text) : Talk J Unit :=
  note ⟨Log.loggerName (some logger), level, message⟩ (done ())

def now : Talk J Moment := clock done

def find (s : Shelf) (key : Text) : Talk J (Option s.Value) := consult s key done

def store (s : Shelf) (key : Text) (data : Option s.Value) (life : Option Nat) :
    Talk J Unit :=
  keep s key data life (done ())

/-- Lets tasks run together and waits for all of them; the first that failed, in order,
is the one that is told. -/
def gather (jobs : List J) : Talk J (List Payload) :=
  together jobs fun results => ofOutcome (results.mapM id)

end Talk

abbrev Errand := Talk Empty Payload

abbrev Plan (α : Type) := Talk Errand α

end PullGauge
