import PullGauge.Service.Basic
import PullGauge.Exchange.Talk
import PullGauge.Cache

/-!
# Worlds

Where tasks run: a service, four caches, a clock, the time by which the caches count, and
the lines that were noted. Tasks that run together run in their order, each to its end,
and one that fails does not keep the others from running.
-/

namespace PullGauge

/-- Time as caches count it: it can be added and compared, and has seconds. -/
class TimeScale (T : Type) extends Add T, LT T where
  decidableLess : DecidableLT T
  seconds : Nat → T

instance TimeScale.decidableLT {T : Type} [TimeScale T] : DecidableLT T :=
  TimeScale.decidableLess

instance TimeScale.ofNumbers : TimeScale (Number Float) where
  decidableLess := inferInstance
  seconds n := .int n

abbrev Caches (T : Type) := (s : Shelf) → Cache T s.Value

def Caches.put {T : Type} (all : Caches T) (s : Shelf) (c : Cache T s.Value) : Caches T :=
  fun t => if h : s = t then h ▸ c else all t

theorem Caches.put_self {T : Type} (all : Caches T) (s : Shelf) (c : Cache T s.Value) :
    all.put s c s = c := by
  simp [put]

theorem Caches.put_of_ne {T : Type} (all : Caches T) {s t : Shelf} (h : s ≠ t)
    (c : Cache T s.Value) : all.put s c t = all t := by
  simp [put, h]

structure World (S T : Type) where
  service : S
  caches : Caches T
  now : Moment
  /-- By which the caches count. -/
  time : T
  lines : List LogLine := []

namespace World

variable {S T J α β : Type} [TimeScale T]

def note (w : World S T) (line : LogLine) : World S T := { w with lines := w.lines ++ [line] }

def consult (w : World S T) (s : Shelf) (key : Text) : Option s.Value × World S T :=
  let (found, c) := (w.caches s).get w.time key
  (found, { w with caches := w.caches.put s c })

def dropLine (key : Text) : LogLine :=
  ⟨Log.loggerName (some "cache".toList), Log.debug,
    "Evicted oldest cache entry ".toList ++ Text.quoted key⟩

def keep (w : World S T) (s : Shelf) (key : Text) (data : Option s.Value)
    (life : Option Nat) : World S T :=
  let w := match (w.caches s).evicted? key with
    | some dropped => w.note (dropLine dropped)
    | none => w
  let c := (w.caches s).set w.time key data (life.map TimeScale.seconds)
  { w with caches := w.caches.put s c }

def inOrder (job : J → World S T → Outcome Payload × World S T) :
    List J → World S T → List (Outcome Payload) × World S T
  | [], w => ([], w)
  | j :: more, w =>
    let (result, w) := job j w
    let (results, w) := inOrder job more w
    (result :: results, w)

def runWith [Service S] (job : J → World S T → Outcome Payload × World S T) :
    Talk J α → World S T → Outcome α × World S T
  | .done a, w => (.ok a, w)
  | .failed f, w => (.error f, w)
  | .send r next, w =>
    let (reply, service) := Service.answer w.service r
    runWith job (next reply) { w with service := service }
  | .consult s key next, w =>
    let (found, w) := w.consult s key
    runWith job (next found) w
  | .keep s key data life next, w => runWith job next (w.keep s key data life)
  | .note line next, w => runWith job next (w.note line)
  | .clock next, w => runWith job (next w.now) w
  | .together jobs next, w =>
    let (results, w) := inOrder job jobs w
    runWith job (next results) w

theorem runWith_bind [Service S] (job : J → World S T → Outcome Payload × World S T)
    (f : α → Talk J β) (t : Talk J α) (w : World S T) :
    runWith job (t.bind f) w =
      match runWith job t w with
      | (.ok a, w') => runWith job (f a) w'
      | (.error e, w') => (.error e, w') := by
  induction t generalizing w with
  | done a => rfl
  | failed e => rfl
  | send r next ih => exact ih _ _
  | consult s key next ih => exact ih _ _
  | keep s key data life next ih => exact ih _
  | note line next ih => exact ih _
  | clock next ih => exact ih _ _
  | together jobs next ih => exact ih _ _

def runErrand [Service S] : Errand → World S T → Outcome Payload × World S T :=
  runWith fun none _ => nomatch none

def run [Service S] (p : Plan α) (w : World S T) : Outcome α × World S T := runWith runErrand p w

end World

end PullGauge
