import Mathlib
import PullGauge.Proofs.Metrics.Exact

/-!
# Times to restore

After each failure of a window, the first success is looked for among all endings, in whatever order
they are listed. One sweep over the endings from the latest to the earliest finds the same times: it
carries the success that it passed last, and the one that comes strictly after that. Endings outside
the window, and the order of all of them, make no difference.
-/

namespace PullGauge

theorem min?_eq_of_mem_iff {xs ys : List Int} (h : ∀ x, x ∈ xs ↔ x ∈ ys) :
    xs.min? = ys.min? := by
  refine Option.ext fun m => ?_
  simp only [List.min?_eq_some_iff, h]

namespace Insights

structure Ending where
  time : Int
  conclusion : Payload

def timesOf (word : Text) (endings : List Ending) : List Int :=
  (endings.filter fun e => e.conclusion.isText word).map Ending.time

def firstAfter (t : Int) (times : List Int) : Option Int := (times.filter (t < ·)).min?

def hoursToSuccess (endings : List Ending) (t : Int) : Option Rat :=
  (firstAfter t (timesOf "success" endings)).map fun success => hoursIn (success - t)

/-- For each failure of the window the hours to the first success after it, if there is one. -/
def restoreHours (since : Int) (endings : List Ending) : List Rat :=
  ((timesOf "failure" endings).filter (since ≤ ·)).filterMap (hoursToSuccess endings)

def shareOfFailures (since : Int) (endings : List Ending) : Rat :=
  ((timesOf "failure" endings).filter (since ≤ ·)).length /
    (endings.filter (since ≤ ·.time)).length

section Window

theorem timesOf_filter (t : Int) (word : Text) (endings : List Ending) :
    timesOf word (endings.filter (t ≤ ·.time)) = (timesOf word endings).filter (t ≤ ·) := by
  rw [timesOf, timesOf, List.filter_map, List.filter_comm]
  rfl

theorem firstAfter_filter {t u : Int} (h : t ≤ u) (times : List Int) :
    firstAfter u (times.filter (t ≤ ·)) = firstAfter u times := by
  rw [firstAfter, List.filter_filter, firstAfter]
  congr 1
  refine List.filter_congr fun s _ => ?_
  by_cases hs : u < s
  · simp [hs, h.trans hs.le]
  · simp [hs]

theorem hoursToSuccess_eq_of_perm {a b : List Ending} (h : a.Perm b) :
    hoursToSuccess a = hoursToSuccess b := by
  funext t
  have hsame (u : Int) : u ∈ (timesOf "success" a).filter (t < ·) ↔
      u ∈ (timesOf "success" b).filter (t < ·) :=
    (((h.filter _).map _).filter _).mem_iff
  rw [hoursToSuccess, hoursToSuccess, firstAfter, firstAfter, min?_eq_of_mem_iff hsame]

theorem restoreHours_perm {a b : List Ending} (h : a.Perm b) (t : Int) :
    (restoreHours t a).Perm (restoreHours t b) := by
  rw [restoreHours, restoreHours, hoursToSuccess_eq_of_perm h]
  exact (((h.filter _).map _).filter _).filterMap _

theorem restoreHours_filter (t : Int) (endings : List Ending) :
    restoreHours t (endings.filter (t ≤ ·.time)) = restoreHours t endings := by
  rw [restoreHours, timesOf_filter, List.filter_filter, restoreHours]
  simp only [Bool.and_self]
  refine List.filterMap_congr fun u hu => ?_
  have hle : t ≤ u := of_decide_eq_true (List.mem_filter.1 hu).2
  rw [hoursToSuccess, timesOf_filter, firstAfter_filter hle, hoursToSuccess]

theorem shareOfFailures_eq (t : Int) (endings : List Ending) : shareOfFailures t endings =
    (timesOf "failure" (endings.filter (t ≤ ·.time))).length /
      (endings.filter (t ≤ ·.time)).length := by
  rw [timesOf_filter, shareOfFailures]

theorem pos_of_mem_restoreHours {t : Int} {endings : List Ending} {x : Rat}
    (h : x ∈ restoreHours t endings) : 0 < x := by
  obtain ⟨failed, -, hx⟩ := List.mem_filterMap.1 h
  obtain ⟨success, hfirst, rfl⟩ := Option.map_eq_some_iff.1 hx
  have hlater : failed < success :=
    of_decide_eq_true (List.mem_filter.1 (List.min?_eq_some_iff.1 hfirst).1).2
  exact hoursIn_pos (Int.sub_pos_of_lt hlater)

theorem shareOfFailures_nonneg (t : Int) (endings : List Ending) : 0 ≤ shareOfFailures t endings :=
  div_nonneg (Nat.cast_nonneg _) (Nat.cast_nonneg _)

theorem shareOfFailures_le_one (t : Int) (endings : List Ending) : shareOfFailures t endings ≤ 1 := by
  rw [shareOfFailures_eq]
  refine div_le_one_of_le₀ ?_ (Nat.cast_nonneg _)
  rw [timesOf, List.length_map]
  exact Nat.cast_le.2 (List.length_filter_le ..)

end Window

section Sweep

/-- What a sweep from the latest ending to the earliest one carries: the success that it passed
last, the first one strictly after that, and the hours found so far. -/
structure Sweep where
  recent : Option Int := none
  next : Option Int := none
  hours : List Rat := []

def Sweep.ahead (s : Sweep) (t : Int) : Option Int :=
  if s.recent.any (t < ·) then s.recent else s.next

def Sweep.pass (since : Int) (s : Sweep) (e : Ending) : Sweep :=
  if e.conclusion.isText "success" then { s with recent := some e.time, next := s.ahead e.time }
  else if e.conclusion.isText "failure" ∧ since ≤ e.time then
    { s with hours := s.hours ++ ((s.ahead e.time).map fun t => hoursIn (t - e.time)).toList }
  else s

def sweep (since : Int) (endings : List Ending) : List Rat :=
  (endings.foldl (Sweep.pass since) {}).hours

variable {since t : Int} {passed endings : List Ending} {s : Sweep} {e : Ending}

@[simp] theorem timesOf_append (word : Text) (a b : List Ending) :
    timesOf word (a ++ b) = timesOf word a ++ timesOf word b := by
  rw [timesOf, List.filter_append, List.map_append]
  rfl

theorem timesOf_singleton (word : Text) (e : Ending) :
    timesOf word [e] = if e.conclusion.isText word then [e.time] else [] := by
  by_cases h : e.conclusion.isText word <;> simp [timesOf, h]

theorem exists_of_mem_timesOf {word : Text} (h : t ∈ timesOf word endings) :
    ∃ e ∈ endings, e.time = t := by
  obtain ⟨e, he, rfl⟩ := List.mem_map.1 h
  exact ⟨e, List.mem_of_mem_filter he, rfl⟩

theorem firstAfter_append_of_le {times more : List Int} (h : ∀ u ∈ more, u ≤ t) :
    firstAfter t (times ++ more) = firstAfter t times := by
  have hnone : more.filter (t < ·) = [] :=
    List.filter_eq_nil_iff.2 fun u hu => by simpa using h u hu
  rw [firstAfter, List.filter_append, hnone, List.append_nil, firstAfter]

structure Sweep.Fits (since : Int) (passed : List Ending) (s : Sweep) : Prop where
  ahead : ∀ t, (∀ e ∈ passed, t ≤ e.time) → s.ahead t = firstAfter t (timesOf "success" passed)
  hours : s.hours = restoreHours since passed

theorem restoreHours_append (h : ∀ d ∈ passed, e.time ≤ d.time) :
    restoreHours since (passed ++ [e]) = restoreHours since passed ++
      ((timesOf "failure" [e]).filter (since ≤ ·)).filterMap (hoursToSuccess passed) := by
  have hsame (t : Int) (ht : e.time ≤ t) : hoursToSuccess (passed ++ [e]) t = hoursToSuccess passed t := by
    rw [hoursToSuccess, timesOf_append, firstAfter_append_of_le, hoursToSuccess]
    intro u hu
    obtain ⟨d, hd, rfl⟩ := exists_of_mem_timesOf hu
    rw [List.mem_singleton.1 hd]
    exact ht
  rw [restoreHours, timesOf_append, List.filter_append, List.filterMap_append, restoreHours]
  congr 1
  · refine List.filterMap_congr fun t ht => hsame t ?_
    obtain ⟨d, hd, rfl⟩ := exists_of_mem_timesOf (List.mem_of_mem_filter ht)
    exact h d hd
  · refine List.filterMap_congr fun t ht => hsame t ?_
    obtain ⟨d, hd, rfl⟩ := exists_of_mem_timesOf (List.mem_of_mem_filter ht)
    rw [List.mem_singleton.1 hd]

theorem not_isText_failure {p : Payload} (h : p.isText "success" = true) :
    p.isText "failure" = false := by
  cases p with
  | text t =>
    obtain rfl : t = "success".toList := of_decide_eq_true h
    decide
  | null | bool _ | int _ | real _ | list _ | object _ => rfl

theorem Sweep.Fits.pass_success (h : s.Fits since passed) (he : ∀ d ∈ passed, e.time ≤ d.time)
    (hsuccess : e.conclusion.isText "success" = true) :
    ({ s with recent := some e.time, next := s.ahead e.time } : Sweep).Fits since
      (passed ++ [e]) := by
  have hsuccesses : timesOf "success" (passed ++ [e]) = timesOf "success" passed ++ [e.time] := by
    rw [timesOf_append, timesOf_singleton, if_pos hsuccess]
  refine ⟨fun t ht => ?_, ?_⟩
  · have hte : t ≤ e.time := ht e (List.mem_append_right _ (List.mem_singleton.2 rfl))
    rw [hsuccesses]
    -- a time that is equal to the success does not see it, only what came after both
    by_cases hless : t < e.time
    · have hrecent : ({ s with recent := some e.time, next := s.ahead e.time } : Sweep).ahead t =
          some e.time := by simp [Sweep.ahead, hless]
      rw [hrecent]
      have hmem : e.time ∈ (timesOf "success" passed ++ [e.time]).filter (t < ·) :=
        List.mem_filter.2 ⟨List.mem_append_right _ (List.mem_singleton.2 rfl),
          decide_eq_true_iff.2 hless⟩
      refine (List.min?_eq_some_iff.2 ⟨hmem, ?_⟩).symm
      intro u hu
      rcases List.mem_append.1 (List.mem_of_mem_filter hu) with hu | hu
      · obtain ⟨d, hd, rfl⟩ := exists_of_mem_timesOf hu
        exact he d hd
      · rw [List.mem_singleton.1 hu]
    · obtain rfl : t = e.time := le_antisymm hte (not_lt.1 hless)
      have hnext : ({ s with recent := some e.time, next := s.ahead e.time } : Sweep).ahead e.time =
          s.ahead e.time := by simp [Sweep.ahead]
      rw [hnext, h.ahead e.time he, firstAfter_append_of_le (by simp)]
  · rw [restoreHours_append he, timesOf_singleton, not_isText_failure hsuccess, h.hours]
    simp

theorem Sweep.Fits.pass_other {hours : List Rat} (h : s.Fits since passed)
    (hother : ¬ e.conclusion.isText "success" = true)
    (hhours : hours = restoreHours since (passed ++ [e])) :
    ({ s with hours } : Sweep).Fits since (passed ++ [e]) := by
  refine ⟨fun t ht => ?_, hhours⟩
  rw [timesOf_append, timesOf_singleton, if_neg hother, List.append_nil]
  exact h.ahead t fun d hd => ht d (List.mem_append_left _ hd)

theorem filterMap_hoursToSuccess_singleton (since : Int) (passed : List Ending) (e : Ending) :
    ((timesOf "failure" [e]).filter (since ≤ ·)).filterMap (hoursToSuccess passed) =
      if e.conclusion.isText "failure" ∧ since ≤ e.time then (hoursToSuccess passed e.time).toList
      else [] := by
  rw [timesOf_singleton]
  by_cases hword : e.conclusion.isText "failure" = true
  · rw [if_pos hword]
    by_cases hsince : since ≤ e.time
    · have hone : [e.time].filter (since ≤ ·) = [e.time] := by simp [hsince]
      rw [hone, if_pos ⟨hword, hsince⟩, List.filterMap_cons, List.filterMap_nil]
      cases hoursToSuccess passed e.time <;> rfl
    · have hnone : [e.time].filter (since ≤ ·) = [] := by simp [hsince]
      rw [hnone, if_neg fun hboth => hsince hboth.2, List.filterMap_nil]
  · rw [if_neg hword, if_neg fun hboth => hword hboth.1, List.filter_nil, List.filterMap_nil]

theorem Sweep.Fits.pass (h : s.Fits since passed) (he : ∀ d ∈ passed, e.time ≤ d.time) :
    (s.pass since e).Fits since (passed ++ [e]) := by
  have happend : restoreHours since (passed ++ [e]) = _ := restoreHours_append he
  rw [filterMap_hoursToSuccess_singleton, ← h.hours] at happend
  unfold Sweep.pass
  by_cases hsuccess : e.conclusion.isText "success"
  · rw [if_pos hsuccess]
    exact h.pass_success he hsuccess
  · rw [if_neg hsuccess]
    by_cases hfailure : e.conclusion.isText "failure" ∧ since ≤ e.time
    · rw [if_pos hfailure] at happend ⊢
      refine h.pass_other hsuccess ?_
      rw [happend, h.ahead e.time he]
      rfl
    · rw [if_neg hfailure, List.append_nil] at happend
      rw [if_neg hfailure]
      exact h.pass_other hsuccess happend.symm

theorem Sweep.Fits.foldl (h : s.Fits since passed)
    (hsorted : (passed ++ endings).Pairwise fun d e => e.time ≤ d.time) :
    (endings.foldl (Sweep.pass since) s).Fits since (passed ++ endings) := by
  induction endings generalizing passed s with
  | nil => rwa [List.append_nil]
  | cons e endings ih =>
    have he : ∀ d ∈ passed, e.time ≤ d.time := fun d hd =>
      (List.pairwise_append.1 hsorted).2.2 d hd e (List.mem_cons_self ..)
    rw [List.append_cons] at hsorted ⊢
    exact ih (h.pass he) hsorted

theorem sweep_eq (hsorted : endings.Pairwise fun d e => e.time ≤ d.time) :
    sweep since endings = restoreHours since endings := by
  have hempty : ({} : Sweep).Fits since [] := ⟨fun _ _ => rfl, rfl⟩
  have hfits : (endings.foldl (Sweep.pass since) {}).Fits since ([] ++ endings) :=
    hempty.foldl hsorted
  exact hfits.hours

end Sweep

end Insights

end PullGauge
