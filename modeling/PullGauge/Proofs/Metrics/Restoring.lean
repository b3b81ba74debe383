import Mathlib
import PullGauge.Metrics.Repository
import PullGauge.Proofs.Metrics.Sweep
import PullGauge.Proofs.Outcome.Rows
import PullGauge.Proofs.Payload.Places

/-!
# Insights from runs and pull requests

What insights say about runs and closed pull requests comes to exact figures of their instants: the
average of the hours from each failure of the window to the first success after it, the share of
failures, and the average of the hours to a merge. The order in which a source lists runs and pull
requests makes no difference, and neither do those outside the window.
-/

namespace PullGauge

theorem IsEarliest.map_instant {moments : List Moment} {first : Option Moment}
    (h : IsEarliest moments first) :
    first.map Moment.instant = (moments.map Moment.instant).min? := by
  cases first with
  | none =>
    rw [show moments = [] from h]
    rfl
  | some m =>
    refine (List.min?_eq_some_iff.2 ⟨List.mem_map_of_mem h.1, ?_⟩).symm
    intro t ht
    obtain ⟨x, hx, rfl⟩ := List.mem_map.1 ht
    exact h.2 x hx

namespace Insights

/-- What a run says: when it began, if that is known, and how it ended. -/
structure Run where
  started : Option Moment
  conclusion : Payload

def Run.IsToldBy (r : Run) (p : Payload) : Prop :=
  ∃ date, p.told ["created_at"] = some date ∧ timestamp date = .ok r.started ∧
    p.told ["conclusion"] = some r.conclusion

structure Pull where
  created : Option Moment
  merged : Option Moment

def Pull.IsToldBy (r : Pull) (p : Payload) : Prop :=
  ∃ created merged, p.told ["created_at"] = some created ∧ timestamp created = .ok r.created ∧
    p.told ["merged_at"] = some merged ∧ timestamp merged = .ok r.merged

def Run.ending? (r : Run) : Option Ending := r.started.map fun m => ⟨m.instant, r.conclusion⟩

def Pull.hours? (since : Int) (r : Pull) : Option Rat :=
  match r.merged, r.created with
  | some m, some c => if since ≤ m.instant then some (hoursIn (m.instant - c.instant)) else none
  | _, _ => none

section Derived

variable {since failed : Moment} {moments : List Moment} {p : Payload}

theorem inWindow_eq {m : Moment} (hsince : since.HasOffset) (hm : m.HasOffset) :
    inWindow since m = .ok (decide (since.instant ≤ m.instant)) := by
  rw [inWindow, Moment.before_eq hm hsince]
  by_cases h : since.instant ≤ m.instant
  · simp [Except.map, h]
  · simp [Except.map, h, not_le.1 h]

theorem hoursBetween_eq {a b : Moment} (ha : a.HasOffset) (hb : b.HasOffset) :
    (hoursBetween a b : Outcome Rat) = .ok (hoursIn (b.instant - a.instant)) :=
  hoursBetween_of_gap? (Moment.gap?_eq ha hb)

def Run.recent? (since : Moment) (r : Run) : Option (Moment × Payload) :=
  (r.started.filter fun m => since.instant ≤ m.instant).map fun m => (m, r.conclusion)

theorem recentRun_eq {r : Run} (h : r.IsToldBy p) (hsince : since.HasOffset)
    (hr : ∀ m ∈ r.started, m.HasOffset) : recentRun since p = .ok (r.recent? since) := by
  obtain ⟨date, hdate, hstarted, hconclusion⟩ := h
  unfold recentRun
  simp only [Payload.field_of_told hdate, hstarted, Outcome.ok_bind]
  cases hm : r.started with
  | none => simp [Run.recent?, hm]
  | some m =>
    simp only [inWindow_eq hsince (hr m hm), Payload.field_of_told hconclusion, Run.recent?, hm]
    by_cases hle : since.instant ≤ m.instant <;> simp [Option.filter, hle]

theorem mergeTime_eq {r : Pull} (h : r.IsToldBy p) (hsince : since.HasOffset)
    (hmerged : ∀ m ∈ r.merged, m.HasOffset) (hcreated : ∀ m ∈ r.created, m.HasOffset) :
    mergeTime since p = .ok ((r.hours? since.instant).map Number.real) := by
  obtain ⟨created, merged, hc, hcr, hm, hmr⟩ := h
  unfold mergeTime
  simp only [Payload.field_of_told hc, Payload.field_of_told hm, hcr, hmr, Outcome.ok_bind]
  cases hstop : r.merged with
  | none => simp [Pull.hours?, hstop]
  | some m =>
    cases hstart : r.created with
    | none => simp [Pull.hours?, hstart, hstop]
    | some c =>
      simp only [inWindow_eq hsince (hmerged m hstop),
        hoursBetween_eq (hcreated c hstart) (hmerged m hstop), Pull.hours?, hstart, hstop]
      by_cases hle : since.instant ≤ m.instant <;> simp [hle]

theorem exists_nextAfter (hfailed : failed.HasOffset) (hmoments : ∀ m ∈ moments, m.HasOffset) :
    ∃ first, nextAfter failed moments = .ok first ∧ (∀ m ∈ first, m.HasOffset) ∧
      first.map Moment.instant = firstAfter failed.instant (moments.map Moment.instant) := by
  let later (m : Moment) : Option Moment := if failed.instant < m.instant then some m else none
  have hlater : (moments.map later).filterMap id =
      moments.filter fun m => failed.instant < m.instant := by
    rw [List.filterMap_map, ← List.filterMap_eq_filter]
    refine List.filterMap_congr fun m _ => ?_
    simp [later, Option.guard]
  have hstep : ∀ m ∈ moments, ∀ earliest,
      (do if ← failed.before m then earlier earliest m else pure earliest) =
        earlierOf earliest (later m) := by
    intro m hm earliest
    simp only [Moment.before_eq hfailed (hmoments m hm), Outcome.ok_bind, later]
    by_cases hless : failed.instant < m.instant
    · simp [hless, earlierOf]
    · simp [hless, earlierOf]
  have hdates : ∀ date ∈ moments.map later, ∀ m ∈ date, m.HasOffset := by
    intro date hdate x hx
    obtain ⟨m, hm, rfl⟩ := List.mem_map.1 hdate
    simp only [later, Option.mem_def, Option.ite_none_right_eq_some, Option.some.injEq] at hx
    exact hx.2 ▸ hmoments m hm
  obtain ⟨first, hfirst, hearliest⟩ := exists_earliest_foldlM
    (List.forall₂_map_right_iff.2 (List.forall₂_same.2 hstep)) hdates
  rw [hlater] at hearliest
  refine ⟨first, hfirst, ?_, ?_⟩
  · rintro m rfl
    exact hmoments m (List.mem_of_mem_filter hearliest.1)
  · rw [hearliest.map_instant, firstAfter, List.filter_map]
    rfl

theorem hoursToRestore_eq (hfailed : failed.HasOffset) (hmoments : ∀ m ∈ moments, m.HasOffset) :
    hoursToRestore moments failed =
      .ok ((firstAfter failed.instant (moments.map Moment.instant)).map fun success =>
        Number.real (hoursIn (success - failed.instant))) := by
  obtain ⟨first, hfirst, hplaced, hinstant⟩ := exists_nextAfter hfailed hmoments
  unfold hoursToRestore
  rw [← hinstant]
  simp only [hfirst, Outcome.ok_bind]
  cases first with
  | none => rfl
  | some m =>
    simp only [hoursBetween_eq hfailed (hplaced m rfl), Option.map_some, Outcome.ok_bind,
      Outcome.pure_eq_ok]

end Derived

def endings (runs : List Run) : List Ending := runs.filterMap Run.ending?

section Window

variable {since : Moment} {runs : List Run} {word : Text}

theorem map_ending_window (since : Moment) (runs : List Run) :
    (runs.filterMap (Run.recent? since)).map (fun w => Ending.mk w.1.instant w.2) =
      (endings runs).filter (since.instant ≤ ·.time) := by
  rw [endings, List.map_filterMap, List.filter_filterMap]
  refine List.filterMap_congr fun r _ => ?_
  cases hm : r.started with
  | none => simp [Run.recent?, Run.ending?, hm]
  | some m =>
    by_cases hle : since.instant ≤ m.instant <;>
      simp [Run.recent?, Run.ending?, hm, hle, Option.filter]

theorem map_instant_runsEnding (word : Text) (window : List (Moment × Payload)) :
    (runsEnding word window).map Moment.instant =
      timesOf word (window.map fun w => Ending.mk w.1.instant w.2) := by
  rw [runsEnding, timesOf, List.filter_map, List.map_map, List.map_map]
  rfl

theorem map_instant_window (word : Text) (since : Moment) (runs : List Run) :
    (runsEnding word (runs.filterMap (Run.recent? since))).map Moment.instant =
      (timesOf word (endings runs)).filter (since.instant ≤ ·) := by
  rw [map_instant_runsEnding, map_ending_window, timesOf_filter]

theorem length_window (since : Moment) (runs : List Run) :
    (runsEnding "failure" (runs.filterMap (Run.recent? since))).length =
      ((timesOf "failure" (endings runs)).filter (since.instant ≤ ·)).length ∧
    (runs.filterMap (Run.recent? since)).length =
      ((endings runs).filter (since.instant ≤ ·.time)).length := by
  have hfailures := congrArg List.length (map_instant_window "failure" since runs)
  have hall := congrArg List.length (map_ending_window since runs)
  rw [List.length_map] at hfailures hall
  exact ⟨hfailures, hall⟩

theorem hasOffset_of_mem_runsEnding (hruns : ∀ r ∈ runs, ∀ m ∈ r.started, m.HasOffset) {m : Moment}
    (hm : m ∈ runsEnding word (runs.filterMap (Run.recent? since))) : m.HasOffset := by
  obtain ⟨w, hw, rfl⟩ := List.mem_map.1 hm
  obtain ⟨r, hr, hrecent⟩ := List.mem_filterMap.1 (List.mem_of_mem_filter hw)
  obtain ⟨m, hstarted, rfl⟩ := Option.map_eq_some_iff.1 hrecent
  exact hruns r hr m (Option.filter_eq_some_iff.1 hstarted).1

def restoresOf (since : Moment) (runs : List Run) : List (Option (Number Rat)) :=
  let window := runs.filterMap (Run.recent? since)
  (runsEnding "failure" window).map fun failed =>
    (firstAfter failed.instant ((runsEnding "success" window).map Moment.instant)).map
      fun success => .real (hoursIn (success - failed.instant))

theorem mapM_hoursToRestore (hruns : ∀ r ∈ runs, ∀ m ∈ r.started, m.HasOffset) :
    (runsEnding "failure" (runs.filterMap (Run.recent? since))).mapM
      (hoursToRestore (runsEnding "success" (runs.filterMap (Run.recent? since)))) =
        .ok (restoresOf since runs) :=
  Outcome.mapM_eq_ok_map fun _ hfailed => hoursToRestore_eq
    (hasOffset_of_mem_runsEnding hruns hfailed) fun _ => hasOffset_of_mem_runsEnding hruns

theorem restoreHours_eq (since : Moment) (runs : List Run) :
    ((restoresOf since runs).filterMap id).map Number.exact =
      restoreHours since.instant (endings runs) := by
  rw [restoresOf, restoreHours, ← map_instant_window, map_instant_window "success",
    List.filterMap_map, List.filterMap_map, List.map_filterMap]
  refine List.filterMap_congr fun failed hfailed => ?_
  have hin : failed.instant ∈ (timesOf "failure" (endings runs)).filter (since.instant ≤ ·) := by
    rw [← map_instant_window]
    exact List.mem_map_of_mem hfailed
  have hle : since.instant ≤ failed.instant := of_decide_eq_true (List.mem_filter.1 hin).2
  simp only [Function.comp_apply, id_eq, firstAfter_filter hle, hoursToSuccess]
  cases firstAfter failed.instant (timesOf "success" (endings runs)) <;> rfl

end Window

namespace Source

/-- What a source tells about runs and closed pull requests; each date has an offset. -/
structure Tells (s : Source) (runs : List Run) (pulls : List Pull) : Prop where
  toldRuns : List.Forall₂ Run.IsToldBy runs s.runs
  toldPulls : List.Forall₂ Pull.IsToldBy pulls s.closedPulls
  runDates : ∀ r ∈ runs, ∀ m ∈ r.started, m.HasOffset
  pullDates : ∀ r ∈ pulls, (∀ m ∈ r.created, m.HasOffset) ∧ ∀ m ∈ r.merged, m.HasOffset

structure IsReadable (s : Source) : Prop where
  activity : ∀ week ∈ s.activity.getLast?, week.kind = .object
  issues : ∃ total, s.repository.told ["open_issues_count"] (.int 0) = some total ∧
    (Number.ofPayload? (F := Rat) total).isSome = true
  community : s.community.kind = .object

def report (s : Source) (leadTime failureRate restoreTime : Rat) : Outcome (Insights Rat) := do
  let weekly ← lastWeek s.activity
  let total ← s.repository.fieldOr "open_issues_count" (.int 0)
  let openIssues ← issuesWithout s.openPulls.length total
  let health ← s.community.field "health_percentage"
  pure {
    deployments := s.commits.length, leadTime, failureRate, restoreTime, openIssues
    openPulls := s.openPulls.length, weeklyCommits := weekly
    contributors := s.contributors.length, health }

theorem exists_report {s : Source} (h : s.IsReadable) (leadTime failureRate restoreTime : Rat) :
    ∃ ins, s.report leadTime failureRate restoreTime = .ok ins ∧ ins.leadTime = leadTime ∧
      ins.failureRate = failureRate ∧ ins.restoreTime = restoreTime := by
  obtain ⟨weekly, hweekly⟩ : ∃ weekly, lastWeek s.activity = .ok weekly := by
    unfold lastWeek
    cases hlast : s.activity.getLast? with
    | none => exact ⟨_, rfl⟩
    | some week =>
      have hkind := h.activity week hlast
      cases week <;> first | exact ⟨_, rfl⟩ | cases hkind
  obtain ⟨total, htotal, hnumber⟩ := h.issues
  obtain ⟨openIssues, hissues⟩ : ∃ n : Number Rat,
      issuesWithout s.openPulls.length total = .ok n := by
    cases total <;> first | exact ⟨_, rfl⟩ | cases hnumber
  obtain ⟨health, hhealth⟩ : ∃ health, s.community.field "health_percentage" = .ok health := by
    have hkind := h.community
    cases hcommunity : s.community <;> rw [hcommunity] at hkind <;>
      first | exact ⟨_, rfl⟩ | cases hkind
  unfold report
  simp only [hweekly, Payload.fieldOr_of_told htotal, hissues, hhealth, Outcome.ok_bind]
  exact ⟨_, rfl, rfl, rfl, rfl⟩

end Source

section Figures

variable {s : Source} {runs : List Run} {pulls : List Pull} {since : Moment}

theorem Source.Tells.mapM_recentRun (h : s.Tells runs pulls) (hsince : since.HasOffset) :
    s.runs.mapM (recentRun since) = .ok (runs.map (Run.recent? since)) := by
  rw [Outcome.mapM_eq_ok_iff, List.forall₂_map_right_iff]
  refine ((List.forall₂_and_left _ _).2 ⟨h.runDates, h.toldRuns⟩).flip.imp ?_
  rintro p r ⟨hstarted, htold⟩
  exact recentRun_eq htold hsince hstarted

theorem Source.Tells.mapM_mergeTime (h : s.Tells runs pulls) (hsince : since.HasOffset) :
    s.closedPulls.mapM (mergeTime since) =
      .ok (pulls.map fun r => (r.hours? since.instant).map Number.real) := by
  rw [Outcome.mapM_eq_ok_iff, List.forall₂_map_right_iff]
  refine ((List.forall₂_and_left _ _).2 ⟨h.pullDates, h.toldPulls⟩).flip.imp ?_
  rintro p r ⟨⟨hcreated, hmerged⟩, htold⟩
  exact mergeTime_eq htold hsince hmerged hcreated

theorem mergeHours_eq (since : Int) (pulls : List Pull) :
    ((pulls.map fun r => (r.hours? since).map Number.real).filterMap id).map Number.exact =
      pulls.filterMap (Pull.hours? since) := by
  rw [List.filterMap_map, List.map_filterMap]
  refine List.filterMap_congr fun r _ => ?_
  cases hhours : r.hours? since <;> simp [hhours]

theorem ofSource_eq (h : s.Tells runs pulls) (hsince : since.HasOffset) :
    ofSource s since = s.report (average (pulls.filterMap (Pull.hours? since.instant)))
      (shareOfFailures since.instant (endings runs))
      (average (restoreHours since.instant (endings runs))) := by
  have hwindow : (runs.map (Run.recent? since)).filterMap id = runs.filterMap (Run.recent? since) :=
    List.filterMap_map ..
  obtain ⟨lead, hlead, hleadTime⟩ := exists_mean
    ((pulls.map fun r => (r.hours? since.instant).map Number.real).filterMap id)
  obtain ⟨restore, hrestore, hrestoreTime⟩ := exists_mean ((restoresOf since runs).filterMap id)
  rw [mergeHours_eq] at hleadTime
  rw [restoreHours_eq] at hrestoreTime
  obtain ⟨hfailures, hall⟩ := length_window since runs
  unfold ofSource
  simp only [h.mapM_mergeTime hsince, h.mapM_recentRun hsince, Outcome.ok_bind, hwindow,
    mapM_hoursToRestore h.runDates, hlead, hrestore, hleadTime, hrestoreTime]
  by_cases hempty : (runs.filterMap (Run.recent? since)).isEmpty
  · have hshare : shareOfFailures since.instant (endings runs) = 0 := by
      rw [List.isEmpty_iff.1 hempty] at hall
      rw [shareOfFailures, ← hall, List.length_nil, Nat.cast_zero, div_zero]
    rw [if_pos hempty, hshare]
    rfl
  · rw [if_neg hempty, Number.divInt_eq, Number.exact_int, hfailures, hall]
    rfl

theorem Run.IsToldBy.eq {r q : Run} {p : Payload} (h : r.IsToldBy p) (h' : q.IsToldBy p) :
    r = q := by
  obtain ⟨date, hdate, hstarted, hconclusion⟩ := h
  obtain ⟨date', hdate', hstarted', hconclusion'⟩ := h'
  obtain rfl := Option.some.inj (hdate.symm.trans hdate')
  cases r
  cases q
  simp only [mk.injEq]
  exact ⟨Except.ok.inj (hstarted.symm.trans hstarted'),
    Option.some.inj (hconclusion.symm.trans hconclusion')⟩

theorem Pull.IsToldBy.eq {r q : Pull} {p : Payload} (h : r.IsToldBy p) (h' : q.IsToldBy p) :
    r = q := by
  obtain ⟨created, merged, hc, hcreated, hm, hmerged⟩ := h
  obtain ⟨created', merged', hc', hcreated', hm', hmerged'⟩ := h'
  obtain rfl := Option.some.inj (hc.symm.trans hc')
  obtain rfl := Option.some.inj (hm.symm.trans hm')
  cases r
  cases q
  simp only [mk.injEq]
  exact ⟨Except.ok.inj (hcreated.symm.trans hcreated'),
    Except.ok.inj (hmerged.symm.trans hmerged')⟩

def Run.IsIdle (since : Moment) (p : Payload) : Prop :=
  ∃ r : Run, r.IsToldBy p ∧ ∀ m ∈ r.started, m.instant < since.instant

def Pull.IsIdle (since : Moment) (p : Payload) : Prop :=
  ∃ r : Pull, r.IsToldBy p ∧ (r.created = none ∨ ∀ m ∈ r.merged, m.instant < since.instant)

theorem window_perm {kept idle : List Run} (h : runs.Perm (kept ++ idle))
    (hidle : ∀ r ∈ idle, ∀ m ∈ r.started, m.instant < since.instant) :
    ((endings runs).filter (since.instant ≤ ·.time)).Perm
      ((endings kept).filter (since.instant ≤ ·.time)) := by
  have hnone : (endings idle).filter (since.instant ≤ ·.time) = [] := by
    refine List.filter_eq_nil_iff.2 fun e he => ?_
    obtain ⟨r, hr, hending⟩ := List.mem_filterMap.1 he
    obtain ⟨m, hm, rfl⟩ := Option.map_eq_some_iff.1 hending
    simpa using hidle r hr m hm
  have happend : (endings (kept ++ idle)).filter (since.instant ≤ ·.time) =
      (endings kept).filter (since.instant ≤ ·.time) := by
    rw [endings, List.filterMap_append, List.filter_append]
    exact (congrArg _ hnone).trans (List.append_nil _)
  rw [← happend]
  exact (h.filterMap _).filter _

theorem hours_perm {kept idle : List Pull} (h : pulls.Perm (kept ++ idle))
    (hidle : ∀ r ∈ idle, r.created = none ∨ ∀ m ∈ r.merged, m.instant < since.instant) :
    (pulls.filterMap (Pull.hours? since.instant)).Perm
      (kept.filterMap (Pull.hours? since.instant)) := by
  have hnone : idle.filterMap (Pull.hours? since.instant) = [] := by
    refine List.filterMap_eq_nil_iff.2 fun r hr => ?_
    rcases hidle r hr with hcreated | hmerged
    · cases hm : r.merged <;> simp [Pull.hours?, hcreated, hm]
    · cases hm : r.merged with
      | none => simp [Pull.hours?, hm]
      | some m =>
        have hbefore : ¬ since.instant ≤ m.instant := not_le.2 (hmerged m hm)
        cases hc : r.created <;> simp [Pull.hours?, hm, hc, hbefore]
  have happend := h.filterMap (Pull.hours? since.instant)
  rwa [List.filterMap_append, hnone, List.append_nil] at happend

theorem ofSource_of_perm {kept idle keptPulls idlePulls : List Payload} (h : s.Tells runs pulls)
    (hsince : since.HasOffset) (hruns : s.runs.Perm (kept ++ idle))
    (hpulls : s.closedPulls.Perm (keptPulls ++ idlePulls)) (hidle : ∀ p ∈ idle, Run.IsIdle since p)
    (hidlePulls : ∀ p ∈ idlePulls, Pull.IsIdle since p) :
    (ofSource { s with runs := kept, closedPulls := keptPulls } since : Outcome (Insights Rat)) =
      ofSource s since := by
  obtain ⟨runs', more, hperm, htold, hmore⟩ := exists_perm_append_of_forall₂ h.toldRuns hruns
  obtain ⟨pulls', morePulls, hpermPulls, htoldPulls, hmorePulls⟩ :=
    exists_perm_append_of_forall₂ h.toldPulls hpulls
  have hmem {r : Run} (hr : r ∈ runs') : r ∈ runs :=
    hperm.mem_iff.2 (List.mem_append_left _ hr)
  have hmemPulls {r : Pull} (hr : r ∈ pulls') : r ∈ pulls :=
    hpermPulls.mem_iff.2 (List.mem_append_left _ hr)
  have htells : Source.Tells { s with runs := kept, closedPulls := keptPulls } runs' pulls' :=
    ⟨htold, htoldPulls, fun r hr => h.runDates r (hmem hr), fun r hr => h.pullDates r (hmemPulls hr)⟩
  have hold : ∀ r ∈ more, ∀ m ∈ r.started, m.instant < since.instant := by
    refine forall_of_forall₂ hmore fun p hp r hr => ?_
    obtain ⟨q, hq, hbefore⟩ := hidle p hp
    exact hr.eq hq ▸ hbefore
  have holdPulls : ∀ r ∈ morePulls, r.created = none ∨
      ∀ m ∈ r.merged, m.instant < since.instant := by
    refine forall_of_forall₂ hmorePulls fun p hp r hr => ?_
    obtain ⟨q, hq, hbefore⟩ := hidlePulls p hp
    exact hr.eq hq ▸ hbefore
  have hwindow := window_perm hperm hold
  have hrestore : average (restoreHours since.instant (endings runs')) =
      average (restoreHours since.instant (endings runs)) := by
    rw [← restoreHours_filter, ← restoreHours_filter _ (endings runs)]
    exact average_perm (restoreHours_perm hwindow.symm _)
  have hshare : shareOfFailures since.instant (endings runs') =
      shareOfFailures since.instant (endings runs) := by
    rw [shareOfFailures_eq, shareOfFailures_eq, hwindow.length_eq, timesOf, timesOf,
      ((hwindow.filter _).map _).length_eq]
  rw [ofSource_eq h hsince, ofSource_eq htells hsince, hrestore, hshare,
    average_perm (hours_perm hpermPulls holdPulls)]
  rfl

/-- The time to restore is the average of the hours from each failure of the window to the first
success after it, wherever that is listed; a sweep from the latest run to the earliest finds the
same. All of these hours are positive, the share of failures lies between zero and one, and neither
the order of runs and pull requests nor the idle ones among them make a difference. -/
theorem ofSource_restoring (h : s.Tells runs pulls) (hreadable : s.IsReadable)
    (hsince : since.HasOffset) :
    ∃ ins : Insights Rat, ofSource s since = .ok ins ∧
      ins.restoreTime = average (restoreHours since.instant (endings runs)) ∧
      (∀ sorted : List Ending, sorted.Perm (endings runs) →
        (sorted.Pairwise fun d e => e.time ≤ d.time) →
        ins.restoreTime = average (sweep since.instant sorted)) ∧
      (∀ x ∈ restoreHours since.instant (endings runs), 0 < x) ∧
      0 ≤ ins.failureRate ∧ ins.failureRate ≤ 1 ∧
      ∀ kept idle keptPulls idlePulls : List Payload, s.runs.Perm (kept ++ idle) →
        s.closedPulls.Perm (keptPulls ++ idlePulls) → (∀ p ∈ idle, Run.IsIdle since p) →
        (∀ p ∈ idlePulls, Pull.IsIdle since p) →
        ofSource { s with runs := kept, closedPulls := keptPulls } since = .ok ins := by
  obtain ⟨ins, hreport, hlead, hrate, hrestore⟩ := Source.exists_report hreadable
    (average (pulls.filterMap (Pull.hours? since.instant)))
    (shareOfFailures since.instant (endings runs))
    (average (restoreHours since.instant (endings runs)))
  have hins := (ofSource_eq h hsince).trans hreport
  refine ⟨ins, hins, hrestore, ?sweep, fun x hx => pos_of_mem_restoreHours hx, ?low, ?high, ?perm⟩
  case sweep =>
    intro sorted hperm hsorted
    rw [hrestore, sweep_eq hsorted]
    exact average_perm (restoreHours_perm hperm.symm _)
  case low => exact hrate ▸ shareOfFailures_nonneg ..
  case high => exact hrate ▸ shareOfFailures_le_one ..
  case perm =>
    intro kept idle keptPulls idlePulls hruns hpulls hidle hidlePulls
    exact (ofSource_of_perm h hsince hruns hpulls hidle hidlePulls).trans hins

end Figures

def dateIn (t : String) : Option Moment := (timestamp t).toOption.getD none

def runOf (date : Option String) (conclusion : String) : Payload :=
  .object ((date.map fun t => ("created_at".toList, Payload.text t.toList)).toList ++
    [("conclusion".toList, .text conclusion.toList)])

def saidOf (date : Option String) (conclusion : String) : Run := ⟨date.bind dateIn, conclusion⟩

def runsOf (runs : List (Option String × String)) : List Payload := runs.map fun r => runOf r.1 r.2

def saidBy (runs : List (Option String × String)) : List Run := runs.map fun r => saidOf r.1 r.2

def busyRuns : List (Option String × String) :=
  [(some "2024-03-10T03:00:00Z", "success"), (some "2024-03-10T06:00:00Z", "failure"),
    (some "2024-03-10T00:00:00Z", "failure"), (some "2024-03-10T05:00:00Z", "success"),
    (some "2024-03-10T04:00:00+01:00", "failure")]

def idleRuns : List (Option String × String) :=
  [(none, "failure"), (some "2024-02-01T00:00:00Z", "failure")]

def unmergedPull : Payload := .object [("created_at".toList, "2024-03-10T00:00:00Z")]

def busySource : Source where
  repository := .object [("open_issues_count".toList, .int 0)]
  runs := runsOf (idleRuns ++ busyRuns)
  closedPulls := [unmergedPull]

def march : Moment := ⟨⟨2024, 3, 4, by decide⟩, 7000000, some 0, by decide⟩

theorem ofSource_restoring_busy : ∃ ins : Insights Rat, ofSource busySource march = .ok ins ∧
    ins.restoreTime = 5 / 2 ∧ ins.failureRate ≤ 1 ∧
    ofSource { busySource with runs := runsOf busyRuns.reverse, closedPulls := [] } march =
      .ok ins := by
  have hpull : Pull.IsToldBy ⟨dateIn "2024-03-10T00:00:00Z", none⟩ unmergedPull :=
    ⟨_, _, rfl, rfl, rfl, rfl⟩
  have hruns : List.Forall₂ Run.IsToldBy (saidBy (idleRuns ++ busyRuns))
      (runsOf (idleRuns ++ busyRuns)) := by
    rw [saidBy, runsOf, List.forall₂_map_left_iff, List.forall₂_map_right_iff, List.forall₂_same]
    simp only [idleRuns, busyRuns, List.cons_append, List.nil_append, List.forall_mem_cons,
      List.not_mem_nil, false_imp_iff, implies_true, and_true]
    exact ⟨⟨_, rfl, rfl, rfl⟩, ⟨_, rfl, rfl, rfl⟩, ⟨_, rfl, rfl, rfl⟩, ⟨_, rfl, rfl, rfl⟩,
      ⟨_, rfl, rfl, rfl⟩, ⟨_, rfl, rfl, rfl⟩, ⟨_, rfl, rfl, rfl⟩⟩
  have htells : busySource.Tells (saidBy (idleRuns ++ busyRuns))
      [⟨dateIn "2024-03-10T00:00:00Z", none⟩] :=
    ⟨hruns, .cons hpull .nil, by decide +kernel, by decide +kernel⟩
  have hreadable : busySource.IsReadable := ⟨nofun, ⟨_, rfl, rfl⟩, rfl⟩
  have hsince : march.HasOffset := by decide
  obtain ⟨ins, hins, hrestore, -, -, -, hhigh, hperm⟩ :=
    ofSource_restoring htells hreadable hsince
  refine ⟨ins, hins, ?_, hhigh, hperm _ (runsOf idleRuns) _ [unmergedPull] ?_ ?_ ?_ ?_⟩
  · have hhours : restoreHours march.instant (endings (saidBy (idleRuns ++ busyRuns))) = [3, 2] := by
      decide +kernel
    rw [hrestore, hhours]
    decide +kernel
  · rw [runsOf, runsOf, ← List.map_append]
    exact List.Perm.map _ (by decide)
  · exact List.Perm.refl _
  · intro p hp
    simp only [runsOf, idleRuns, List.map_cons, List.map_nil, List.mem_cons, List.not_mem_nil,
      or_false] at hp
    obtain rfl | rfl := hp
    · exact ⟨⟨none, "failure"⟩, ⟨_, rfl, rfl, rfl⟩, nofun⟩
    · exact ⟨saidOf (some "2024-02-01T00:00:00Z") "failure", ⟨_, rfl, rfl, rfl⟩, by decide +kernel⟩
  · intro p hp
    obtain rfl := List.mem_singleton.1 hp
    exact ⟨_, hpull, .inr nofun⟩

end Insights

end PullGauge
