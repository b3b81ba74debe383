import Mathlib
import PullGauge.Proofs.Pipeline.Course
import PullGauge.Proofs.Pipeline.Search

/-!
# Searches one after the other

A pipeline is visited again and again, while its service changes and others use its other caches.
A visit that sends no request has the result of the last visit for the same search that did, not
later than the life of a result. A visit that comes within that life sends no request, unless as
many other searches as the cache holds were stored since.
-/

namespace PullGauge

variable {S T α β : Type}

theorem exists_of_flatMap_eq {f : α → List β} {l : List α} {a b : List β} {x : β}
    (h : l.flatMap f = a ++ x :: b) :
    ∃ before y after c d, l = before ++ y :: after ∧ f y = c ++ x :: d ∧
      b = d ++ after.flatMap f := by
  induction l generalizing a with
  | nil => simp at h
  | cons z l ih =>
    rw [List.flatMap_cons] at h
    rcases List.append_eq_append_iff.1 h with ⟨c, rfl, hrest⟩ | ⟨d, hz, hrest⟩
    · obtain ⟨before, y, after, c', d, rfl, hy, hb⟩ := ih hrest
      exact ⟨z :: before, y, after, c', d, rfl, hy, hb⟩
    · cases d with
      | nil =>
        obtain ⟨before, y, after, c', d, rfl, hy, hb⟩ := @ih [] hrest.symm
        exact ⟨z :: before, y, after, c', d, rfl, hy, hb⟩
      | cons x' d =>
        obtain ⟨rfl, rfl⟩ := List.cons_eq_cons.1 hrest
        exact ⟨[], z, l, a, d, rfl, hz, rfl⟩

namespace Pipeline

/-- One search on a pipeline: what it was called for, what was done, and how it ended. -/
structure Visit (T : Type) where
  query : Text
  options : Client.SearchOptions
  deeds : List (Deed T)
  outcome : Outcome SearchResult

namespace Visit

def Asks (v : Visit T) : Prop := Deed.HasAsked v.deeds

def IsLike (u v : Visit T) : Prop :=
  u.options = v.options ∧ ∃ sanitized, sanitize u.query = .ok sanitized ∧
    sanitize v.query = .ok sanitized

def LooksAt (v : Visit T) (now : T) : Prop :=
  ∃ key found, .looked .search now key found ∈ v.deeds

def Stores (v : Visit T) (result : SearchResult) (time : T) : Prop :=
  v.outcome = .ok result ∧ v.Asks ∧
    ∃ key life, .stored .search time key (some result) life ∈ v.deeds

def events (v : Visit T) : List (Cache.Event T Shelf.search.Value) := Deed.events .search v.deeds

end Visit

def past (visits : List (Visit T)) : List (Cache.Event T Shelf.search.Value) :=
  visits.flatMap Visit.events

def storedKeys (visits : List (Visit T)) : Finset Text := (Cache.setKeys (past visits)).toFinset

@[simp] theorem past_append (a b : List (Visit T)) : past (a ++ b) = past a ++ past b :=
  List.flatMap_append ..

@[simp] theorem past_cons (v : Visit T) (visits : List (Visit T)) :
    past (v :: visits) = v.events ++ past visits := List.flatMap_cons ..

theorem past_concat (visits : List (Visit T)) (v : Visit T) :
    past (visits ++ [v]) = past visits ++ v.events := by
  rw [past_append, past_cons]
  exact congrArg _ (List.append_nil _)

theorem storedKeys_mono {a b : List (Visit T)} (h : a <+: b) : storedKeys a ⊆ storedKeys b := by
  obtain ⟨c, rfl⟩ := h
  intro key hkey
  rw [storedKeys, List.mem_toFinset] at hkey ⊢
  rw [past_append, Cache.setKeys_append]
  exact List.mem_append_left _ hkey

variable [Service S] [TimeScale T]

/-- Others leave the results alone, and the clock does not go back. -/
def Apart (w w' : World S T) : Prop :=
  w'.caches .search = w.caches .search ∧ Cache.Follows w.time w'.time

/-- The visits of a pipeline, each of which begins after the one before has come to its end. -/
inductive Visits (c : Client) (w : World S T) : List (Visit T) → World S T → Prop
  | nil : Visits c w [] w
  | apart {visits : List (Visit T)} {w' w'' : World S T} (hvisits : Visits c w visits w')
      (h : Apart w' w'') : Visits c w visits w''
  | visit {visits : List (Visit T)} {w' w'' : World S T} (hvisits : Visits c w visits w')
      (v : Visit T) {u : Undertaking SearchResult}
      (hrun : Undertaking.Run Apart (Undertaking.start (search c v.query v.options)) w' v.deeds u w'')
      (hend : u.strand.outcome? = some v.outcome) : Visits c w (visits ++ [v]) w''

variable {c : Client} {w w' : World S T} {visits before after : List (Visit T)} {v : Visit T}

theorem Visits.caches_eq (h : Visits c w visits w') :
    w'.caches .search = (w.caches .search).run (past visits) := by
  induction h with
  | nil => rfl
  | apart hvisits happart ih => rw [happart.1, ih]
  | visit hvisits v hrun hend ih =>
    rw [hrun.caches_eq fun _ _ h => h.1, ih, past_concat, Cache.run_append]
    rfl

theorem Visits.clockRuns (h : Visits c w visits w') : Cache.ClockRuns (past visits) w'.time := by
  induction h with
  | nil => exact List.pairwise_singleton _ _
  | apart hvisits happart ih => exact ih.later happart.2
  | visit hvisits v hrun hend ih =>
    rw [past_concat]
    exact hrun.clockRuns (fun _ _ h => h.2) ih

theorem Visits.at_visit (h : Visits c w visits w') (hsplit : visits = before ++ v :: after) :
    ∃ w₁ w₂ u, Visits c w before w₁ ∧
      Undertaking.Run Apart (Undertaking.start (search c v.query v.options)) w₁ v.deeds u w₂ ∧
      u.strand.outcome? = some v.outcome := by
  induction h generalizing after with
  | nil => simp at hsplit
  | apart _ _ ih => exact ih hsplit
  | visit hvisits x hrun hend ih =>
    rcases split_concat hsplit with ⟨-, rfl, rfl⟩ | ⟨rest, -, hbefore⟩
    · exact ⟨_, _, _, hvisits, hrun, hend⟩
    · exact ih hbefore

theorem Visits.course (h : Visits c w visits w') (hmem : v ∈ visits) :
    Course v.query v.options v.deeds (some v.outcome) := by
  obtain ⟨before, after, hsplit⟩ := List.append_of_mem hmem
  obtain ⟨w₁, w₂, u, -, hrun, hend⟩ := h.at_visit hsplit
  rw [← hend]
  exact (course_of_run hrun).2

theorem Visits.look (h : Visits c w visits w') (hsplit : visits = before ++ v :: after) {now : T}
    {key : Text} {found : Option Shelf.search.Value} {rest : List (Deed T)}
    (huses : Deed.uses .search v.deeds = .looked .search now key found :: rest) :
    found = (((w.caches .search).run (past before)).get now key).1 ∧
      Cache.ClockRuns (past before) now := by
  obtain ⟨w₁, w₂, u, hbefore, hrun, -⟩ := h.at_visit hsplit
  constructor
  · obtain ⟨a, b, hdeeds, hnone, -, -⟩ := List.filter_eq_cons_iff.1 huses
    have hfirst : Deed.events .search a = [] := by
      rw [← Deed.events_uses, Deed.uses, List.filter_eq_nil_iff.2 hnone, Deed.events_nil]
    have hfound := hrun.found_eq (fun _ _ h => h.1) hdeeds
    rwa [hfirst, hbefore.caches_eq] at hfound
  · have hclock := hrun.clockRuns (fun _ _ h => h.2) hbefore.clockRuns
    rw [← Deed.events_uses, huses, Deed.events_looked] at hclock
    refine hclock.sublist ?_
    rw [List.map_append, List.append_assoc]
    exact (List.Sublist.refl _).append ((List.nil_sublist _).cons_cons now)

namespace Visit

structure Keeps (v : Visit T) (sanitized : Text) (time later : T) (result : SearchResult) :
    Prop where
  query : sanitize v.query = .ok sanitized
  outcome : v.outcome = .ok result
  asks : v.Asks
  uses : Deed.uses .search v.deeds = [.looked .search time (Key.search sanitized v.options) none,
    .stored .search later (Key.search sanitized v.options) (some result)
      (some (TimeScale.seconds searchLife))]

variable {u v : Visit T} {sanitized : Text} {time later now : T} {result : SearchResult}

theorem Keeps.events_eq (h : v.Keeps sanitized time later result) :
    v.events = [⟨time, .get (Key.search sanitized v.options)⟩,
      ⟨later, .set (Key.search sanitized v.options) (some result)
        (some (TimeScale.seconds searchLife))⟩] := by
  rw [events, ← Deed.events_uses, h.uses, Deed.events_looked, Deed.events_stored, Deed.events_nil]

theorem Keeps.key_mem_past (h : v.Keeps sanitized time later result) (hmem : v ∈ visits) :
    Key.search sanitized v.options ∈ Cache.setKeys (past visits) := by
  refine List.mem_filterMap.2 ⟨⟨later, .set (Key.search sanitized v.options) (some result)
    (some (TimeScale.seconds searchLife))⟩, List.mem_flatMap.2 ⟨v, hmem, ?_⟩, rfl⟩
  rw [h.events_eq]
  exact List.mem_cons_of_mem _ (List.mem_singleton_self _)

theorem Keeps.stores (h : v.Keeps sanitized time later result) : v.Stores result later := by
  refine ⟨h.outcome, h.asks, Key.search sanitized v.options,
    some (TimeScale.seconds searchLife), ?_⟩
  have hmem : .stored .search later (Key.search sanitized v.options) (some result)
      (some (TimeScale.seconds searchLife)) ∈ Deed.uses .search v.deeds := by
    rw [h.uses]
    simp
  exact (List.mem_filter.1 hmem).1

theorem Keeps.eq_of_stores (h : v.Keeps sanitized time later result) {other : SearchResult}
    {t : T} (hstores : v.Stores other t) : t = later ∧ other = result := by
  obtain ⟨hout, -, key, life, hmem⟩ := hstores
  rw [h.outcome] at hout
  have huse : .stored .search t key (some other) life ∈ Deed.uses .search v.deeds :=
    List.mem_filter.2 ⟨hmem, rfl⟩
  rw [h.uses, List.mem_cons, List.mem_singleton] at huse
  rcases huse with huse | huse
  · cases huse
  · cases huse
    exact ⟨rfl, rfl⟩

end Visit

section Courses

variable {sanitized : Text} {time later now : T} {result : SearchResult}

theorem keeps_of_asks (hcourse : Course v.query v.options v.deeds (some v.outcome))
    (hasks : v.Asks) (hout : v.outcome = .ok result) :
    ∃ sanitized time later, v.Keeps sanitized time later result := by
  obtain ⟨query, o, deeds, outcome⟩ := v
  change Course query o deeds (some outcome) at hcourse
  obtain rfl : outcome = .ok result := hout
  cases hcourse with
  | found hquery hfound =>
    obtain ⟨r, reply, hmem⟩ := hasks
    cases List.mem_singleton.1 hmem
  | missed hquery huses hmissed =>
    obtain hmissed | ⟨f, hmissed, -⟩ := hmissed <;> cases hmissed
  | kept hquery huses hasked => exact ⟨_, _, _, hquery, rfl, hasked, huses⟩

theorem keeps_of_mem_setKeys (hcourse : Course v.query v.options v.deeds (some v.outcome))
    {key : Text} (hkey : key ∈ Cache.setKeys v.events) :
    ∃ sanitized time later result, v.Keeps sanitized time later result ∧
      key = Key.search sanitized v.options := by
  obtain ⟨query, o, deeds, outcome⟩ := v
  change Course query o deeds (some outcome) at hcourse
  change key ∈ Cache.setKeys (Deed.events .search deeds) at hkey
  cases hcourse with
  | refused => cases hkey
  | found hquery hfound => cases hkey
  | missed hquery huses hmissed =>
    rw [← Deed.events_uses, huses] at hkey
    cases hkey
  | kept hquery huses hasked =>
    rw [← Deed.events_uses, huses] at hkey
    exact ⟨_, _, _, _, ⟨hquery, rfl, hasked, huses⟩, List.mem_singleton.1 hkey⟩

theorem exists_look (hcourse : Course v.query v.options v.deeds (some v.outcome))
    (hquery : sanitize v.query = .ok sanitized) :
    ∃ now found rest, Deed.uses .search v.deeds =
        .looked .search now (Key.search sanitized v.options) found :: rest ∧
      (∀ kept, found = some kept → ¬ v.Asks ∧ v.outcome = .ok kept) ∧
      (¬ v.Asks → ∀ result, v.outcome = .ok result → found = some result) := by
  obtain ⟨query, o, deeds, outcome⟩ := v
  change Course query o deeds (some outcome) at hcourse
  change sanitize query = .ok sanitized at hquery
  cases hcourse with
  | refused hrefused =>
    rw [hrefused] at hquery
    cases hquery
  | found hsame hfound =>
    rw [hsame] at hquery
    cases hquery
    obtain hfound | hfound := hfound <;> cases hfound
    refine ⟨_, _, _, rfl, ?_, ?_⟩
    · rintro kept ⟨⟩
      refine ⟨?_, rfl⟩
      rintro ⟨r, reply, hmem⟩
      cases List.mem_singleton.1 hmem
    · rintro - result ⟨⟩
      rfl
  | missed hsame huses hmissed =>
    rw [hsame] at hquery
    cases hquery
    refine ⟨_, _, _, huses, nofun, ?_⟩
    rintro - result ⟨⟩
    obtain hmissed | ⟨f, hmissed, -⟩ := hmissed <;> cases hmissed
  | kept hsame huses hasked =>
    rw [hsame] at hquery
    cases hquery
    exact ⟨_, _, _, huses, nofun, fun hnot => absurd hasked hnot⟩

theorem Course.exists_sanitized {query : Text} {o : Client.SearchOptions} {deeds : List (Deed T)}
    (hcourse : Course query o deeds (some (.ok result))) :
    ∃ sanitized, sanitize query = .ok sanitized := by
  cases hcourse with
  | found hquery => exact ⟨_, hquery⟩
  | missed hquery => exact ⟨_, hquery⟩
  | kept hquery => exact ⟨_, hquery⟩

end Courses

section Reuse

variable {u : Visit T} {first between rest : List (Visit T)} {sanitized : Text}
  {time later now : T} {result : SearchResult}

theorem isLastSet_past (hkeeps : u.Keeps sanitized time later result)
    (hfresh : Key.search sanitized u.options ∉ Cache.setKeys (past between)) :
    Cache.IsLastSet (past (first ++ u :: between))
      ⟨Key.search sanitized u.options, some result, later, some (TimeScale.seconds searchLife)⟩
      (past between) := by
  refine ⟨⟨past first ++ [⟨time, .get (Key.search sanitized u.options)⟩], ?_⟩, hfresh, ?_⟩
  · rw [past_append, past_cons, hkeeps.events_eq]
    simp only [List.cons_append, List.nil_append, List.append_assoc]
    rfl
  · intro x hx
    obtain ⟨y, -, hy⟩ := List.mem_flatMap.1 hx
    exact Deed.act_ne_clear_of_mem hy

theorem Visits.found_of_fresh (hrecalls : (w.caches .search).Recalls [])
    (h : Visits c w visits w') (hkeeps : u.Keeps sanitized time later result)
    (hsplit : visits = (first ++ u :: between) ++ v :: after)
    (hfresh : Key.search sanitized u.options ∉ Cache.setKeys (past between))
    (hroom : (storedKeys between).card < (w.caches .search).capacity)
    {found : Option Shelf.search.Value} {more : List (Deed T)}
    (huses : Deed.uses .search v.deeds =
      .looked .search now (Key.search sanitized u.options) found :: more)
    (hlife : ¬ later + TimeScale.seconds searchLife < now) : found = some result := by
  obtain ⟨rfl, hclock⟩ := h.look hsplit huses
  refine (hrecalls.run _).get_of_isLastSet hclock (isLastSet_past hkeeps hfresh) ?_ ?_
  · rintro life ⟨⟩
    exact hlife
  · rw [Cache.capacity_run]
    exact hroom

theorem Visits.notMem_setKeys (hrecalls : (w.caches .search).Recalls [])
    (h : Visits c w visits w') (hkeeps : u.Keeps sanitized time later result)
    (hsplit : visits = (first ++ u :: between) ++ rest)
    (hclock : Cache.ClockRuns (past (first ++ u :: between)) now)
    (hlife : ¬ later + TimeScale.seconds searchLife < now)
    (hroom : ((storedKeys between).erase (Key.search sanitized u.options)).card <
      (w.caches .search).capacity) :
    Key.search sanitized u.options ∉ Cache.setKeys (past between) := by
  -- on the visits between, of which the next one would find the result that all before it left
  induction between using List.reverseRecOn generalizing rest with
  | nil => exact List.not_mem_nil
  | append_singleton between x ih =>
    have hsplit' : visits = (first ++ u :: between) ++ x :: rest := by simpa using hsplit
    have hpast : past (first ++ u :: (between ++ [x])) =
        past (first ++ u :: between) ++ x.events := by
      rw [← List.cons_append, ← List.append_assoc, past_concat]
    rw [hpast] at hclock
    have hmore := storedKeys_mono (List.prefix_append between [x])
    have hfresh := ih hsplit' (hclock.sublist (by simp))
      ((Finset.card_le_card (Finset.erase_subset_erase _ hmore)).trans_lt hroom)
    rw [past_concat, Cache.setKeys_append, List.mem_append, not_or]
    refine ⟨hfresh, fun hkey => ?_⟩
    -- it has kept one under the key only if it found none
    obtain ⟨sanitized', t, later', result', hkeeps', hsame⟩ :=
      keeps_of_mem_setKeys (h.course (by simp [hsplit'])) hkey
    have huses := hkeeps'.uses
    rw [← hsame] at huses
    have hbefore : Cache.Follows t now := by
      refine hclock.follows (x := ⟨t, .get (Key.search sanitized' x.options)⟩) ?_
      simp [hkeeps'.events_eq]
    have hroom' : (storedKeys between).card < (w.caches .search).capacity := by
      refine (Finset.card_le_card fun key hmem => ?_).trans_lt hroom
      refine Finset.mem_erase.2 ⟨?_, hmore hmem⟩
      rintro rfl
      exact hfresh (List.mem_toFinset.1 hmem)
    have hfound := h.found_of_fresh hrecalls hkeeps hsplit' hfresh hroom' huses
      fun hlt => hlife (hbefore _ hlt)
    cases hfound

theorem Visit.IsLike.key_eq (hlike : u.IsLike v) (hkeeps : u.Keeps sanitized time later result) :
    sanitize v.query = .ok sanitized ∧
      Key.search sanitized u.options = Key.search sanitized v.options := by
  obtain ⟨hoptions, common, hu, hv⟩ := hlike
  rw [hkeeps.query] at hu
  cases hu
  exact ⟨hv, by rw [hoptions]⟩

omit [TimeScale T] in
theorem Visit.looksAt_of_uses {key : Text} {found : Option Shelf.search.Value}
    {more : List (Deed T)} (huses : Deed.uses .search v.deeds = .looked .search now key found :: more) :
    v.LooksAt now := by
  have hmem : .looked .search now key found ∈ Deed.uses .search v.deeds := by simp [huses]
  exact ⟨key, found, (List.mem_filter.1 hmem).1⟩

theorem Visits.exists_keeps (hrecalls : (w.caches .search).Recalls []) (h : Visits c w visits w')
    (hdocumented : ∀ v ∈ visits, v.options.IsDocumented)
    (hsplit : visits = before ++ v :: after) (hquery : sanitize v.query = .ok sanitized)
    (hfound : (((w.caches .search).run (past before)).get now (Key.search sanitized v.options)).1 =
      some result) :
    ∃ first u between time later, before = first ++ u :: between ∧ u.IsLike v ∧
      u.Keeps sanitized time later result ∧
      Key.search sanitized v.options ∉ Cache.setKeys (past between) ∧
      ¬ later + TimeScale.seconds searchLife < now := by
  obtain ⟨e, since, hlast, hkey, hdata, hlive⟩ := (hrecalls.run _).get_eq_some hfound
  obtain ⟨front, hpast⟩ := hlast.split
  obtain ⟨first, u, between, c, d, rfl, hevents, rfl⟩ := exists_of_flatMap_eq hpast
  have hevent : e.event ∈ u.events := by simp [hevents]
  have hset : e.key ∈ Cache.setKeys u.events := List.mem_filterMap.2 ⟨_, hevent, rfl⟩
  obtain ⟨sanitized', time, later, result', hkeeps, hsame⟩ :=
    keeps_of_mem_setKeys (h.course (by simp [hsplit])) hset
  rw [hkey] at hsame
  obtain ⟨rfl, hoptions⟩ := Key.search_inj (hdocumented v (by simp [hsplit]))
    (hdocumented u (by simp [hsplit])) hsame
  -- the visit set a key once, so this set is the one of its own result
  rw [hkeeps.events_eq, List.mem_cons, List.mem_singleton] at hevent
  obtain hevent | hevent := hevent
  · cases hevent
  · obtain ⟨key, data, stored, life⟩ := e
    cases hevent
    cases hdata
    refine ⟨first, u, between, time, _, rfl, ⟨hoptions.symm, _, hkeeps.query, hquery⟩, hkeeps,
      ?_, hlive _ rfl⟩
    have hfresh := hlast.notSet
    rw [Cache.setKeys_append, List.mem_append, not_or] at hfresh
    rw [hoptions]
    exact hfresh.2

def Visit.key? (v : Visit T) : Option Text :=
  (sanitize v.query).toOption.map fun sanitized => Key.search sanitized v.options

omit [TimeScale T] in
theorem Visit.otherKeys_eq (v : Visit T) (hquery : sanitize v.query = .ok sanitized) (keys : Finset Text) :
    keys.filter (fun key => v.key? ≠ some key) = keys.erase (Key.search sanitized v.options) := by
  have hkey : v.key? = some (Key.search sanitized v.options) := by
    rw [Visit.key?, hquery]
    rfl
  ext key
  rw [Finset.mem_filter, Finset.mem_erase, hkey, and_comm, ne_eq, Option.some_inj, eq_comm]

theorem outcome_ne_ok (hcourse : Course u.query u.options u.deeds (some u.outcome))
    (hu : u ∈ between) (hquery : sanitize v.query = .ok sanitized)
    (hfresh : Key.search sanitized v.options ∉ Cache.setKeys (past between)) :
    u.IsLike v → u.Asks → ∀ r, u.outcome ≠ .ok r := by
  intro hlike hasks r hr
  obtain ⟨sanitized', time, later, hkeeps⟩ := keeps_of_asks hcourse hasks hr
  obtain ⟨hquery', hkey⟩ := hlike.key_eq hkeeps
  rw [hquery] at hquery'
  cases hquery'
  rw [← hkey] at hfresh
  exact hfresh (hkeeps.key_mem_past hu)

/-- A visit that sends no request has the result of the last visit for the same search that did,
in its life; and a visit in the life of a result sends none, if fewer other searches were stored
since than fit in the cache. -/
theorem search_reuse {capacity : Int} (hmake : Cache.make? capacity = some (w.caches .search))
    (h : Visits c w visits w') (hdocumented : ∀ v ∈ visits, v.options.IsDocumented)
    (hsplit : visits = before ++ v :: after) :
    (¬ v.Asks → ∀ result, v.outcome = .ok result →
      ∃ first u between time now, before = first ++ u :: between ∧ u.IsLike v ∧
        u.Stores result time ∧ (∀ x ∈ between, x.IsLike v → x.Asks → ∀ r, x.outcome ≠ .ok r) ∧
        v.LooksAt now ∧ ¬ time + TimeScale.seconds 300 < now) ∧
    (∀ first u between result time, before = first ++ u :: between → u.IsLike v →
      u.Stores result time →
      (((storedKeys between).filter fun key => v.key? ≠ some key).card : Int) < capacity →
      ∃ now, v.LooksAt now ∧ (¬ time + TimeScale.seconds 300 < now →
        ¬ v.Asks ∧ v.outcome = .ok result)) := by
  have hrecalls := Cache.recalls_of_make? hmake
  have hcourse := h.course (v := v) (by simp [hsplit])
  constructor
  · intro hnot result hout
    obtain ⟨sanitized, hquery⟩ := Course.exists_sanitized (hout ▸ hcourse)
    obtain ⟨now, found, rest, huses, -, hfound⟩ := exists_look hcourse hquery
    obtain rfl := hfound hnot result hout
    have hget := (h.look hsplit huses).1.symm
    obtain ⟨first, u, between, time, later, rfl, hlike, hkeeps, hfresh, hlife⟩ :=
      h.exists_keeps hrecalls hdocumented hsplit hquery hget
    refine ⟨first, u, between, later, now, rfl, hlike, hkeeps.stores, fun x hx => ?_,
      Visit.looksAt_of_uses huses, hlife⟩
    exact outcome_ne_ok (h.course (by simp [hsplit, hx])) hx hquery hfresh
  · rintro first u between result time rfl hlike hstores hcard
    obtain ⟨sanitized, t, later, hkeeps⟩ :=
      keeps_of_asks (h.course (by simp [hsplit])) hstores.2.1 hstores.1
    obtain ⟨rfl, -⟩ := hkeeps.eq_of_stores hstores
    obtain ⟨hquery, hkey⟩ := hlike.key_eq hkeeps
    obtain ⟨now, found, rest, huses, hfound, -⟩ := exists_look hcourse hquery
    refine ⟨now, Visit.looksAt_of_uses huses, fun hlife => ?_⟩
    have hroom : ((storedKeys between).erase (Key.search sanitized u.options)).card <
        (w.caches .search).capacity := by
      have hcapacity := Cache.capacity_of_make? hmake
      rw [v.otherKeys_eq hquery, ← hkey] at hcard
      omega
    rw [← hkey] at huses
    have hfresh := h.notMem_setKeys hrecalls hkeeps hsplit (h.look hsplit huses).2 hlife hroom
    rw [Finset.erase_eq_of_notMem (by rwa [storedKeys, List.mem_toFinset])] at hroom
    exact hfound _ (h.found_of_fresh hrecalls hkeeps hsplit hfresh hroom huses hlife)

end Reuse

theorem search_reuse_atOnce :
    ∃ (w w' : World FixedService (Number Float)) (one two : Visit (Number Float)),
      Cache.make? 1 = some (w.caches .search) ∧ Visits Site.twoPulls.guest w [one, two] w' ∧
        one.query = "is:pr" ∧ two.query = "is:pr" ∧ one.Asks ∧ ¬ two.Asks ∧
        two.outcome = one.outcome ∧ ∃ result, one.outcome = .ok result := by
  let w : World FixedService (Number Float) := .fresh Site.twoPulls.service 1
  let first := World.run (search Site.twoPulls.guest "is:pr" {}) w
  let second := World.run (search Site.twoPulls.guest "is:pr" {}) first.2
  obtain ⟨result, hfirst⟩ : ∃ result, first.1 = .ok result := Outcome.exists_ok (by decide +kernel)
  obtain ⟨deeds, hrun⟩ := @Undertaking.exists_run _ _ _ _ _ (fun _ _ => False)
    (search Site.twoPulls.guest "is:pr" {}) w
  obtain ⟨deeds', hrun'⟩ := @Undertaking.exists_run _ _ _ _ _ (fun _ _ => False)
    (search Site.twoPulls.guest "is:pr" {}) first.2
  let one : Visit (Number Float) := ⟨"is:pr", {}, deeds, first.1⟩
  let two : Visit (Number Float) := ⟨"is:pr", {}, deeds', second.1⟩
  have hvisits : Visits Site.twoPulls.guest w [one, two] second.2 :=
    .visit (.visit .nil one (hrun.mono fun _ _ h => h.elim) (Talk.outcome?_ofOutcome _)) two
      (hrun'.mono fun _ _ h => h.elim) (Talk.outcome?_ofOutcome _)
  have hmake : Cache.make? 1 = some (w.caches .search) := rfl
  have hdefault : ({} : Client.SearchOptions).IsDocumented := by decide
  have hdocumented : ∀ v ∈ [one, two], v.options.IsDocumented := by
    intro v hv
    rw [List.mem_cons, List.mem_singleton] at hv
    rcases hv with rfl | rfl <;> exact hdefault
  have hasks : one.Asks := by
    by_contra hnot
    obtain ⟨hlast, -⟩ := @search_reuse _ _ _ _ _ _ _ _ [] [two] one 1 hmake hvisits hdocumented rfl
    obtain ⟨front, u, between, t, now, hsplit, -⟩ := hlast hnot result hfirst
    simp at hsplit
  obtain ⟨-, hagain⟩ := @search_reuse _ _ _ _ _ _ _ _ [one] [] two 1 hmake hvisits hdocumented rfl
  obtain ⟨sanitized, t, later, hkeeps⟩ :=
    keeps_of_asks (hvisits.course (List.mem_cons_self ..)) hasks hfirst
  have hnone : storedKeys ([] : List (Visit (Number Float))) = ∅ := rfl
  obtain ⟨now, ⟨key, found, hlooked⟩, hfound⟩ := hagain [] one [] result later rfl
    ⟨rfl, sanitized, hkeeps.query, hkeeps.query⟩ hkeeps.stores (by simp [hnone])
  -- nobody moved the clock
  obtain ⟨hone, hevents⟩ := hrun.time_of_still fun _ _ h => h.elim
  obtain ⟨-, hevents'⟩ := hrun'.time_of_still fun _ _ h => h.elim
  have hnow : now = .int 0 :=
    (hevents' .search _ (List.mem_filterMap.2 ⟨_, hlooked, rfl⟩)).trans hone
  have hlater : later = .int 0 := by
    obtain ⟨key, life, hstored⟩ := hkeeps.stores.2.2
    exact hevents .search _ (List.mem_filterMap.2 ⟨_, hstored, rfl⟩)
  rw [hnow, hlater] at hfound
  obtain ⟨hnot, hsame⟩ := hfound (by decide)
  exact ⟨w, second.2, one, two, hmake, hvisits, rfl, rfl, hasks, hnot, hsame.trans hfirst.symm,
    result, hfirst⟩

end Pipeline

end PullGauge
