import Mathlib
import PullGauge.Pipeline.Repositories
import PullGauge.Proofs.Cache.History
import PullGauge.Proofs.Exchange.Asking
import PullGauge.Proofs.Exchange.Batch

/-!
# Insights over time

The insights into one repository are asked for again and again, while the service changes in
between. Everything but the data of the repository is asked anew each time; the data stay what they
were when they were first told. So the open issues of a call are counted from what the first
lookup told, and from the pull requests that are open now.
-/

namespace PullGauge

variable {T : Type}

theorem Caches.put_same (all : Caches T) (s : Shelf) : all.put s (all s) = all := by
  funext t
  by_cases h : s = t
  · subst h
    exact all.put_self s (all s)
  · exact all.put_of_ne h (all s)

namespace World

variable {S : Type} [TimeScale T]

theorem consult_of_find?_none {w : World S T} {s : Shelf} {key : Text}
    (h : (w.caches s).find? key = none) : w.consult s key = (none, w) := by
  rw [consult, Cache.get, h]
  dsimp only
  rw [Caches.put_same]

theorem consult_of_find?_lasting {w : World S T} {s : Shelf} {key : Text} {data : s.Value}
    {stored : T} (h : (w.caches s).find? key = some ⟨key, some data, stored, none⟩) :
    w.consult s key = (some data, w) := by
  have hget : (w.caches s).get w.time key = (some data, w.caches s) := by
    rw [Cache.get, h]
    rfl
  rw [consult, hget]
  dsimp only
  rw [Caches.put_same]

theorem caches_keep (w : World S T) (s : Shelf) (key : Text) (data : Option s.Value)
    (life : Option Nat) : (w.keep s key data life).caches s =
      (w.caches s).set w.time key data (life.map TimeScale.seconds) := by
  unfold keep
  cases (w.caches s).evicted? key with
  | none => exact w.caches.put_self s _
  | some dropped => exact w.caches.put_self s _

theorem service_keep (w : World S T) (s : Shelf) (key : Text) (data : Option s.Value)
    (life : Option Nat) : (w.keep s key data life).service = w.service := by
  unfold keep
  cases (w.caches s).evicted? key <;> rfl

theorem now_keep (w : World S T) (s : Shelf) (key : Text) (data : Option s.Value)
    (life : Option Nat) : (w.keep s key data life).now = w.now := by
  unfold keep
  cases (w.caches s).evicted? key <;> rfl

end World

theorem Insights.open_of_ofSource {s : Source} {since : Moment} {ins : Insights Float}
    (h : ofSource s since = .ok ins) : ins.openPulls = s.openPulls.length ∧
      ∃ total, s.repository.fieldOr "open_issues_count" (.int 0) = .ok total ∧
        issuesWithout s.openPulls.length total = .ok ins.openIssues := by
  unfold ofSource at h
  obtain ⟨leadTimes, -, h⟩ := Outcome.exists_of_bind h
  obtain ⟨leadTime, -, h⟩ := Outcome.exists_of_bind h
  obtain ⟨runs, -, h⟩ := Outcome.exists_of_bind h
  extract_lets recent failures successes rest at h
  have hrest (rate : Float) (h : rest rate = .ok ins) : ins.openPulls = s.openPulls.length ∧
      ∃ total, s.repository.fieldOr "open_issues_count" (.int 0) = .ok total ∧
        issuesWithout s.openPulls.length total = .ok ins.openIssues := by
    obtain ⟨restoreTimes, -, h⟩ := Outcome.exists_of_bind h
    obtain ⟨restore, -, h⟩ := Outcome.exists_of_bind h
    obtain ⟨weekly, -, h⟩ := Outcome.exists_of_bind h
    obtain ⟨total, htotal, h⟩ := Outcome.exists_of_bind h
    obtain ⟨openIssues, hissues, h⟩ := Outcome.exists_of_bind h
    obtain ⟨health, -, h⟩ := Outcome.exists_of_bind h
    obtain rfl := Except.ok.inj h
    exact ⟨rfl, total, htotal, hissues⟩
  split_ifs at h
  · exact hrest _ h
  · obtain ⟨rate, -, h⟩ := Outcome.exists_of_bind h
    exact hrest rate h

namespace Pipeline

/-- One call for the insights into a repository: the service as it is then, and the time. -/
structure Survey (T : Type) where
  service : FixedService
  now : Moment
  time : T
  at_ : Option Moment := none

variable [TimeScale T] (c : Client) (owner name : Text)

namespace Survey

def enter (v : Survey T) (w : World FixedService T) : World FixedService T :=
  { w with service := v.service, now := v.now, time := v.time }

def call (v : Survey T) (w : World FixedService T) :
    Outcome (Insights Float) × World FixedService T :=
  World.run (insights c owner name true v.at_) (v.enter w)

def bare (v : Survey T) : World FixedService T := ⟨v.service, fun _ => ⟨0, []⟩, v.now, v.time, []⟩

def since? (v : Survey T) : Option Moment :=
  (v.at_.getD v.now).add? (-(windowDays * Calendar.dayMicros))

def lookup (v : Survey T) : Outcome Payload := (World.run (c.repository owner name) v.bare).1

def openPulls (v : Survey T) : Outcome Payload :=
  (World.runErrand (listErrand (c.pulls owner name "open")) v.bare).1

def told? (v : Survey T) : Option Payload :=
  if v.since?.isSome then (v.lookup c owner name).toOption else none

structure Shows (v : Survey T) (count : Int) (pulls : Nat) : Prop where
  counted : ∀ p, v.lookup c owner name = .ok p →
    p.fieldOr "open_issues_count" (.int 0) = .ok (.int count)
  listed : ∀ items, v.openPulls c owner name = .ok (.list items) → items.length = pulls

end Survey

def surveyed (w : World FixedService T) (calls : List (Survey T)) : World FixedService T :=
  calls.foldl (fun w v => (v.call c owner name w).2) w

variable {c owner name}

def report (c : Client) (owner name : Text) (v : Survey T) (since : Moment) (data : Payload) :
    Outcome (Insights Float) := do
  let branch ← data.field "default_branch"
  let answers ← ((insightErrands c owner name branch since).map
    fun e => (World.runErrand e v.bare).1).mapM id
  Insights.ofSource (sourceOf data answers) since

theorem onlyAsks_insightErrands (c : Client) (owner name : Text) (branch : Payload)
    (since : Moment) : ∀ e ∈ insightErrands c owner name branch since, e.OnlyAsks := by
  have hlist {t : Talk Empty (List Payload)} (h : t.OnlyAsks) : (listErrand t).OnlyAsks :=
    h.bind fun _ => trivial
  simp only [insightErrands, List.forall_mem_cons, List.not_mem_nil, false_imp_iff,
    implies_true, and_true]
  exact ⟨hlist (Client.onlyAsks_pages ..), hlist (Client.onlyAsks_pages ..),
    hlist (Client.onlyAsks_pages ..), hlist (Client.onlyAsks_pages ..),
    hlist (Client.onlyAsks_commitActivity ..), hlist (Client.onlyAsks_pages ..),
    Client.onlyAsks_communityProfile ..⟩

theorem run_gather {jobs : List Errand} (h : ∀ e ∈ jobs, e.OnlyAsks)
    {w w' : World FixedService T} (hs : w.service = w'.service) (hn : w.now = w'.now) :
    World.run (Talk.gather jobs) w =
      ((jobs.map fun e => (World.runErrand e w').1).mapM id, w) := by
  have hjobs : jobs.map (fun e => (World.runErrand e w).1) =
      jobs.map fun e => (World.runErrand e w').1 := by
    refine List.map_congr_left fun e he => ?_
    have hrun : World.runErrand e w = ((World.runErrand e w').1, w) :=
      World.runWith_of_onlyAsks (h e he) _ _ hs hn
    rw [hrun]
  rw [World.run, Talk.gather, World.runWith, World.inOrder_of_onlyAsks h, hjobs]
  dsimp only
  cases (jobs.map fun e => (World.runErrand e w').1).mapM id with
  | error fault => rfl
  | ok answers => rfl

theorem run_lookup (v : Survey T) (w : World FixedService T) :
    World.run (c.repository owner name) (v.enter w) = (v.lookup c owner name, v.enter w) :=
  World.runWith_of_onlyAsks (Client.onlyAsks_repository c owner name) _ _ rfl rfl

theorem run_repositoryData_of_none {v : Survey T} {w : World FixedService T}
    (h : (w.caches .repository).find? (Key.repository owner name) = none) :
    World.run (repositoryData c owner name true) (v.enter w) =
      World.run ((c.repository owner name).bind fun p =>
        (Talk.store .repository (Key.repository owner name)
          (p.toOption.map RepositoryNote.data) none).bind fun _ => .done p) (v.enter w) := by
  have hconsult : (v.enter w).consult .repository (Key.repository owner name) =
      (none, v.enter w) := World.consult_of_find?_none h
  show World.runWith World.runErrand (Talk.consult .repository (Key.repository owner name) _) _ = _
  rw [World.runWith, hconsult]
  rfl

theorem run_repositoryData_of_error {v : Survey T} {w : World FixedService T} {fault : Fault}
    (h : (w.caches .repository).find? (Key.repository owner name) = none)
    (hlookup : v.lookup c owner name = .error fault) :
    World.run (repositoryData c owner name true) (v.enter w) = (.error fault, v.enter w) := by
  rw [run_repositoryData_of_none h, World.run, World.runWith_bind, ← World.run, run_lookup, hlookup]

theorem run_repositoryData_of_ok {v : Survey T} {w : World FixedService T} {p : Payload}
    (h : (w.caches .repository).find? (Key.repository owner name) = none)
    (hlookup : v.lookup c owner name = .ok p) (hp : p.toOption = some p) :
    World.run (repositoryData c owner name true) (v.enter w) =
      (.ok p, (v.enter w).keep .repository (Key.repository owner name)
        (some (RepositoryNote.data p)) none) := by
  rw [run_repositoryData_of_none h, World.run, World.runWith_bind, ← World.run, run_lookup, hlookup]
  dsimp only
  rw [hp]
  rfl

theorem run_repositoryData_of_some {v : Survey T} {w : World FixedService T} {p : Payload}
    {stored : T} (h : (w.caches .repository).find? (Key.repository owner name) =
      some ⟨Key.repository owner name, some (.data p), stored, none⟩) :
    World.run (repositoryData c owner name true) (v.enter w) = (.ok p, v.enter w) := by
  have hconsult : (v.enter w).consult .repository (Key.repository owner name) =
      (some (.data p), v.enter w) := World.consult_of_find?_lasting h
  show World.runWith World.runErrand (Talk.consult .repository (Key.repository owner name) _) _ = _
  rw [World.runWith, hconsult]
  rfl

theorem lookup_of_told? {v : Survey T} {p : Payload} (h : v.told? c owner name = some p) :
    v.lookup c owner name = .ok p := by
  unfold Survey.told? at h
  split_ifs at h
  cases hlookup : v.lookup c owner name with
  | error fault =>
    rw [hlookup] at h
    cases h
  | ok q =>
    rw [hlookup] at h
    exact congrArg Except.ok (Option.some.inj h)

def surveyFrom (c : Client) (owner name : Text) : Option Moment → Plan (Insights Float)
  | none => .failed .beyondCalendar
  | some since =>
    (repositoryData c owner name true).bind fun data =>
      (Talk.ofOutcome (data.field "default_branch")).bind fun branch =>
        (Talk.gather (insightErrands c owner name branch since)).bind fun answers =>
          Talk.ofOutcome (Insights.ofSource (sourceOf data answers) since)

theorem call_eq {v : Survey T} {beginning : Option Moment} (h : v.since? = beginning)
    (w : World FixedService T) :
    v.call c owner name w = World.run (surveyFrom c owner name beginning) (v.enter w) := by
  delta Survey.since? at h
  delta Survey.call insights
  -- the sum of a moment and a window must not be opened: it would be computed in unary
  generalize Moment.add? = add at h ⊢
  generalize -(windowDays * (Calendar.dayMicros : Int)) = reach at h ⊢
  subst h
  have hpure {α β : Type} (a : α) (f : α → Plan β) (u : World FixedService T) :
      World.run (pure a >>= f) u = World.run (f a) u := rfl
  have hclock {β : Type} (f : Moment → Plan β) (u : World FixedService T) :
      World.run (Talk.now >>= f) u = World.run (f u.now) u := rfl
  have hnow : (v.enter w).now = v.now := rfl
  cases v.at_ with
  | some m =>
    refine (hpure m _ _).trans ?_
    rw [Option.getD_some]
    beta_reduce
    cases add m reach with
    | none => rfl
    | some since => rfl
  | none =>
    refine (hclock _ _).trans ?_
    rw [hnow, Option.getD_none]
    beta_reduce
    cases add v.now reach with
    | none => rfl
    | some since => rfl

theorem run_surveyFrom {v : Survey T} {w w' : World FixedService T} {data : Payload}
    (hdata : World.run (repositoryData c owner name true) w = (.ok data, w'))
    (hs : w'.service = v.service) (hn : w'.now = v.now) (since : Moment) :
    World.run (surveyFrom c owner name (some since)) w = (report c owner name v since data, w') := by
  rw [World.run, surveyFrom, World.runWith_bind, ← World.run, hdata]
  dsimp only
  unfold report
  cases data.field "default_branch" with
  | error fault => rfl
  | ok branch =>
    have hjobs := onlyAsks_insightErrands c owner name branch since
    have hgather := @run_gather T _ _ hjobs w' v.bare hs hn
    show World.runWith World.runErrand
      ((Talk.gather (insightErrands c owner name branch since)).bind _) w' = _
    rw [World.runWith_bind, ← World.run, hgather]
    dsimp only [bind, Except.bind]
    cases ((insightErrands c owner name branch since).map
        fun e => (World.runErrand e v.bare).1).mapM id with
    | error fault => rfl
    | ok answers =>
      dsimp only
      cases (Insights.ofSource (sourceOf data answers) since : Outcome (Insights Float)) with
      | error fault => rfl
      | ok ins => rfl

/-- What the cache has of a repository: nothing, or data that are kept for good. -/
def Keeps (owner name : Text) (w : World FixedService T) : Option Payload → Prop
  | none => (w.caches .repository).find? (Key.repository owner name) = none
  | some p => ∃ stored, (w.caches .repository).find? (Key.repository owner name) =
      some ⟨Key.repository owner name, some (.data p), stored, none⟩

theorem keeps_keep (w : World FixedService T) (p : Payload) :
    Keeps owner name (w.keep .repository (Key.repository owner name)
      (some (RepositoryNote.data p)) none) (some p) := by
  refine ⟨w.time, ?_⟩
  rw [World.caches_keep, Option.map_none]
  exact Cache.find?_set ..

theorem call_keeps {v : Survey T} {w : World FixedService T} {kept : Option Payload}
    (hkeeps : Keeps owner name w kept)
    (hpresent : ∀ p, v.lookup c owner name = .ok p → p.toOption = some p) :
    Keeps owner name (v.call c owner name w).2 (kept.or (v.told? c owner name)) ∧
      ∀ ins, (v.call c owner name w).1 = .ok ins →
        ∃ since data, kept.or (v.told? c owner name) = some data ∧
          report c owner name v since data = .ok ins := by
  unfold Survey.told?
  cases hsince : v.since? with
  | none =>
    have hcall : v.call c owner name w = (.error .beyondCalendar, v.enter w) := call_eq hsince w
    rw [hcall]
    refine ⟨?_, nofun⟩
    rw [Option.isSome_none, if_neg (by decide), Option.or_none]
    -- entering leaves the caches alone, which is seen once it is known whether data are kept
    cases kept with
    | none => exact hkeeps
    | some p => exact hkeeps
  | some since =>
    rw [Option.isSome_some, if_pos rfl, call_eq hsince w]
    cases kept with
    | some p =>
      obtain ⟨stored, hfound⟩ := hkeeps
      rw [run_surveyFrom (run_repositoryData_of_some hfound) rfl rfl since]
      exact ⟨⟨stored, hfound⟩, fun ins h => ⟨since, p, rfl, h⟩⟩
    | none =>
      cases hlookup : v.lookup c owner name with
      | error fault =>
        have hrun : World.run (surveyFrom c owner name (some since)) (v.enter w) =
            (.error fault, v.enter w) := by
          rw [World.run, surveyFrom, World.runWith_bind, ← World.run,
            run_repositoryData_of_error hkeeps hlookup]
        rw [hrun]
        exact ⟨hkeeps, nofun⟩
      | ok p =>
        have hdata := run_repositoryData_of_ok hkeeps hlookup (hpresent p hlookup)
        rw [run_surveyFrom hdata (World.service_keep ..) (World.now_keep ..) since]
        exact ⟨keeps_keep (v.enter w) p, fun ins h => ⟨since, p, rfl, h⟩⟩

theorem surveyed_keeps {w : World FixedService T} (hempty : Keeps owner name w none)
    {calls : List (Survey T)} (hpresent : ∀ v ∈ calls, ∀ p,
      v.lookup c owner name = .ok p → p.toOption = some p) :
    Keeps owner name (surveyed c owner name w calls)
      (calls.findSome? fun v => v.told? c owner name) := by
  -- a call is added at the end, where it can only keep what none before it was told
  induction calls using List.reverseRecOn with
  | nil => exact hempty
  | append_singleton calls v ih =>
    have hearlier := ih fun u hu => hpresent u (List.mem_append_left _ hu)
    have hstep := call_keeps hearlier (hpresent v (by simp))
    rw [surveyed, List.foldl_append, List.findSome?_append, List.findSome?_singleton]
    exact hstep.1

theorem openPulls_of_report {v : Survey T} {since : Moment} {data : Payload}
    {ins : Insights Float} (h : report c owner name v since data = .ok ins) :
    ∃ items, v.openPulls c owner name = .ok (.list items) ∧ ins.openPulls = items.length ∧
      ∃ total, data.fieldOr "open_issues_count" (.int 0) = .ok total ∧
        Insights.issuesWithout items.length total = .ok ins.openIssues := by
  obtain ⟨branch, -, h⟩ := Outcome.exists_of_bind h
  obtain ⟨answers, hanswers, h⟩ := Outcome.exists_of_bind h
  have hall := Outcome.eq_map_ok_of_mapM_id hanswers
  have hthird : some (v.openPulls c owner name) = (answers[2]?).map .ok := by
    rw [← List.getElem?_map, ← hall]
    rfl
  obtain ⟨answer, hanswer, hok⟩ := Option.map_eq_some_iff.1 hthird.symm
  obtain ⟨items, rfl⟩ : ∃ items, answer = .list items := by
    have hrun : v.openPulls c owner name = (World.runErrand
        ((c.pulls owner name "open").bind fun items => .done (.list items)) v.bare).1 := rfl
    rw [hrun, World.runErrand, World.runWith_bind] at hok
    split at hok
    · exact ⟨_, Except.ok.inj hok⟩
    · cases hok
  have hitems : (sourceOf data answers).openPulls = items := by
    unfold sourceOf
    dsimp only
    rw [hanswer]
  have hopen := Insights.open_of_ofSource h
  rw [hitems] at hopen
  exact ⟨items, hok.symm, hopen⟩

/-- The open issues of a call are those that were counted when the repository was first looked up,
without the pull requests that are open now. -/
theorem openIssues_of_call {w : World FixedService T} {before : List (Survey T)} {v : Survey T}
    {count : Survey T → Int} {pulls : Survey T → Nat}
    (hempty : Key.repository owner name ∉ (w.caches .repository).keys)
    (hshows : ∀ u ∈ before ++ [v], u.Shows c owner name (count u) (pulls u))
    {ins : Insights Float}
    (h : (v.call c owner name (surveyed c owner name w before)).1 = .ok ins) :
    ∃ u, (before ++ [v]).find? (fun u => (u.told? c owner name).isSome) = some u ∧
      ins.openIssues = .int (count u - pulls v) ∧ ins.openPulls = pulls v := by
  have hpresent : ∀ u ∈ before ++ [v], ∀ p, u.lookup c owner name = .ok p →
      p.toOption = some p := by
    intro u hu p hp
    have hcounted := (hshows u hu).counted p hp
    cases p <;> first | rfl | cases hcounted
  have hkeeps := surveyed_keeps (Cache.find?_eq_none_of_notMem hempty)
    fun u hu => hpresent u (List.mem_append_left _ hu)
  obtain ⟨since, data, hdata, hreport⟩ := (call_keeps hkeeps (hpresent v (by simp))).2 ins h
  obtain ⟨items, hitems, hpulls, total, htotal, hissues⟩ := openPulls_of_report hreport
  have hlength := (hshows v (by simp)).listed items hitems
  have hfirst : (before ++ [v]).findSome? (fun u => u.told? c owner name) = some data := by
    rw [List.findSome?_append, List.findSome?_singleton]
    exact hdata
  obtain ⟨earlier, u, later, hsplit, htold, hearlier⟩ := List.findSome?_eq_some_iff.1 hfirst
  have hcounted := (hshows u (by rw [hsplit]; simp)).counted data (lookup_of_told? htold)
  obtain rfl := Except.ok.inj (hcounted.symm.trans htotal)
  have hdifference : Insights.issuesWithout (F := Float) items.length (.int (count u)) =
      .ok (.int (count u - items.length)) := rfl
  rw [hdifference] at hissues
  refine ⟨u, ?_, ?_, hpulls.trans hlength⟩
  · refine List.find?_eq_some_iff_append.2 ⟨by rw [htold]; rfl, earlier, later, hsplit, ?_⟩
    intro x hx
    rw [hearlier x hx]
    rfl
  · rw [← Except.ok.inj hissues, hlength]

def tracker (count : Int) (pulls : Nat) : FixedService where
  reply r :=
    if r.url.path = "/repos/a/b".toList then
      .ok ⟨200, [], .json (.object [("open_issues_count".toList, .int count)])⟩
    else if r.url.path = "/repos/a/b/pulls".toList then
      .ok ⟨200, [], .json (.list (List.replicate pulls (.object [])))⟩
    else .ok ⟨200, [], .json (.list [])⟩

theorem shows_tracker (count : Int) (pulls : Nat) (now : Moment) (time : T) (m : Option Moment) :
    Survey.Shows probe "a" "b" ⟨tracker count pulls, now, time, m⟩ count pulls where
  counted p hp := by
    have hlookup : Survey.lookup probe "a" "b" ⟨tracker count pulls, now, time, m⟩ =
        .ok (.object [("open_issues_count".toList, .int count)]) := by rfl
    rw [hlookup] at hp
    obtain rfl := Except.ok.inj hp
    rfl
  listed items hitems := by
    have hopen : Survey.openPulls probe "a" "b" ⟨tracker count pulls, now, time, m⟩ =
        .ok (.list (List.replicate pulls (.object []))) := by rfl
    rw [hopen] at hitems
    cases hitems
    exact List.length_replicate

/-- A call for the insights into a repository to which five issues come each day of the month,
three of them pull requests. -/
def surveyOn (date : Date) : Survey (Number Float) :=
  ⟨tracker (5 * date.day) (3 * date.day), .midnight date, .int date.day, none⟩

def firstDay : Survey (Number Float) := surveyOn ⟨1970, 1, 1, by decide⟩
def secondDay : Survey (Number Float) := surveyOn ⟨1970, 1, 2, by decide⟩

def unvisited : World FixedService (Number Float) :=
  ⟨tracker 0 0, fun _ => ⟨1, []⟩, .midnight ⟨1970, 1, 1, by decide⟩, .int 0, []⟩

def openIssues? : Outcome (Insights Float) → Option Int
  | .ok ⟨_, _, _, _, .int n, _, _, _, _⟩ => some n
  | _ => none

theorem exists_of_openIssues? {o : Outcome (Insights Float)} {n : Int}
    (h : openIssues? o = some n) : ∃ ins, o = .ok ins ∧ ins.openIssues = .int n := by
  unfold openIssues? at h
  split at h
  · obtain rfl := Option.some.inj h
    exact ⟨_, rfl, rfl⟩
  · cases h

theorem openIssues?_secondDay : openIssues? (secondDay.call probe "a" "b"
    (surveyed probe "a" "b" unvisited [firstDay])).1 = some (-1) := by decide +kernel

theorem openIssues_of_secondDay : ∃ ins u,
    (secondDay.call probe "a" "b" (surveyed probe "a" "b" unvisited [firstDay])).1 = .ok ins ∧
      [firstDay, secondDay].find? (fun u => (u.told? probe "a" "b").isSome) = some u ∧
      ins.openIssues = .int (5 * u.now.date.day - (3 * secondDay.now.date.day : Nat)) ∧
      ins.openPulls = 3 * secondDay.now.date.day := by
  obtain ⟨ins, hcall, -⟩ := exists_of_openIssues? openIssues?_secondDay
  have hshows : ∀ u ∈ [firstDay] ++ [secondDay], u.Shows probe "a" "b"
      (5 * u.now.date.day) (3 * u.now.date.day) := by
    intro u hu
    obtain rfl | rfl : u = firstDay ∨ u = secondDay := by simpa using hu
    · exact shows_tracker _ _ _ _ _
    · exact shows_tracker _ _ _ _ _
  have hempty : Key.repository "a" "b" ∉ (unvisited.caches .repository).keys := List.not_mem_nil
  obtain ⟨u, hu, hissues, hpulls⟩ := openIssues_of_call hempty hshows hcall
  exact ⟨ins, u, hcall, hu, hissues, hpulls⟩

/-- On the second day, ten issues are counted and six pull requests are open; yet what is told
are the five issues of the first day without the six pull requests of the second. -/
theorem secondDay_short_of_issues :
    firstDay.Shows probe "a" "b" 5 3 ∧ secondDay.Shows probe "a" "b" 10 6 ∧
      ∃ ins, (secondDay.call probe "a" "b" (surveyed probe "a" "b" unvisited [firstDay])).1 =
        .ok ins ∧ ins.openIssues = .int (-1) ∧ ins.openIssues ≠ .int (10 - 6) := by
  obtain ⟨ins, hcall, hissues⟩ := exists_of_openIssues? openIssues?_secondDay
  refine ⟨shows_tracker 5 3 _ _ _, shows_tracker 10 6 _ _ _, ins, hcall, hissues, ?_⟩
  rw [hissues]
  simp

end Pipeline

end PullGauge
