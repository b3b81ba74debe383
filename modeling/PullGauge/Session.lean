import PullGauge.World
import PullGauge.Service.Script
import PullGauge.Service.Samples
import PullGauge.Pipeline.People
import PullGauge.Pipeline.Repositories
import PullGauge.Suggestion.Engine
import PullGauge.Metrics.Summary

/-!
# Sessions

A client, a pipeline and a suggestion engine that work on one scripted service. What a
step does shows in the world of the session: the calls that the service received, the
lines that were noted, the keys of the caches.
-/

namespace PullGauge

structure Session where
  world : World Script (Number Float)
  today : Date
  /-- The credentials for which the engine has a client. -/
  credentials : List Text := []
  last : Option SearchResult := none

namespace Session

def cacheSize : Int := 100

def startTime : Nat := 1000

def credential : Text := "ghp_testtoken"

def loggers : Loggers := ⟨Log.debug, Log.info, []⟩

def makeCache (sizes : Shelf → Int) (s : Shelf) : Outcome (Cache (Number Float) s.Value) :=
  match Cache.make? (sizes s) with
  | some c => .ok c
  | none => .error .noCapacity

def makeCaches (sizes : Shelf → Int) : Outcome (Caches (Number Float)) := do
  let user ← makeCache sizes .user
  let repository ← makeCache sizes .repository
  let commit ← makeCache sizes .commit
  let search ← makeCache sizes .search
  pure fun
    | .user => user
    | .repository => repository
    | .commit => commit
    | .search => search

def make (now : Moment) (today : Date) (sizes : Shelf → Int) : Outcome Session := do
  let caches ← makeCaches sizes
  pure ⟨⟨{}, caches, now, TimeScale.seconds startTime, []⟩, today, [], none⟩

def script (s : Session) : Script := s.world.service

def rewire (s : Session) (f : Script → Script) : Session :=
  { s with world := { s.world with service := f s.world.service } }

def advance (s : Session) (seconds : Number Float) : Session :=
  { s with world := { s.world with time := s.world.time + seconds } }

def renew (s : Session) : Session :=
  { s with world := { s.world with caches := fun shelf => (s.world.caches shelf).clear } }

def client (s : Session) (token : Text) : Outcome Client :=
  Client.make { token := token } s.script.linkBound

def listen (s : Session) : Session := { s with world := { s.world with lines := [] } }

def callsSince (s earlier : Session) : List Call :=
  s.script.calls.drop earlier.script.calls.length

variable {α : Type}

def run (s : Session) (p : Plan α) : Outcome α × Session :=
  let (result, world) := World.run p s.world
  (result, { s with world := world })

def ask (s : Session) (p : Client → Plan α) : Outcome α × Session :=
  match s.client credential with
  | .ok c => s.run (p c)
  | .error fault => (.error fault, s)

def search (s : Session) (query : Text) (o : Client.SearchOptions) :
    Outcome SearchResult × Session :=
  match s.ask fun c => Pipeline.search c query o with
  | (.ok found, s) => (.ok found, { s with last := some found })
  | (.error fault, s) => (.error fault, s)

/-- Empties what the last search found; what is kept is not touched. -/
def dropLast (s : Session) : Session :=
  { s with last := s.last.map fun found => { found with records := [] } }

def summarizeLast (s : Session) : Outcome (Option (Summary Float)) :=
  match s.last with
  | some found => summarize found.records s.world.now
  | none => .error (.lacks .null "items")

def newCredential? (s : Session) (query : Text) (cursor : Int) (token : Text) : Option Text :=
  if Suggestion.callsForClient s.today query cursor && !s.credentials.contains token then
    some token
  else none

def suggest (s : Session) (query : Text) (cursor : Int) (token : Text) :
    Outcome (List (Suggestion Payload)) × Session :=
  let c := s.client token
  let made := match s.newCredential? query cursor token, c with
    | some new, .ok _ => [new]
    | _, _ => []
  { s with credentials := s.credentials ++ made }.run
    (Suggestion.suggest c s.today query cursor)

def closeEngine (s : Session) : Session := { s with credentials := [] }

end Session

end PullGauge
