import Mathlib
import PullGauge.Metrics.Summary
import PullGauge.Proofs.Metrics.Hours
import PullGauge.Proofs.Metrics.Middle
import PullGauge.Proofs.Record.Earliest

/-!
# Summaries of parts and in another order

A summary counts its records in four ways, so the summary of two sets together has the sums of
their counts. Its medians stand in the middle of hours in order, and hours are compared and told
apart by a key, so it makes no difference to them in which order the records come. Exact hours are
their own keys; those in doubles have their ranks for keys, since none of them is a negative zero or
no number at all.

A summary can always be made of records whose dates compare: exactly, since the rationals have no
end, and in doubles, since the hours between moments are too few to leave their range.
-/

namespace PullGauge

theorem Moment.IsZoned.hasOffset {m : Moment} (h : m.IsZoned) : m.HasOffset := by
  obtain ⟨offset, hoffset, -⟩ := h
  rw [HasOffset, Option.mem_def.1 hoffset]
  rfl

namespace Record

variable (r : Record)

def dates : List (Option Moment) :=
  [r.created, r.published, r.closed, r.firstReview, r.firstCommit]

def HasOffsets : Prop := ∀ date ∈ r.dates, ∀ m ∈ date, m.HasOffset

def IsZoned : Prop := ∀ date ∈ r.dates, ∀ m ∈ date, m.IsZoned

instance : Decidable r.HasOffsets :=
  inferInstanceAs (Decidable (∀ date ∈ r.dates, ∀ m ∈ date, m.HasOffset))

instance : Decidable r.IsZoned :=
  inferInstanceAs (Decidable (∀ date ∈ r.dates, ∀ m ∈ date, m.IsZoned))

variable {r}

theorem IsZoned.hasOffsets (h : r.IsZoned) : r.HasOffsets :=
  fun date hdate m hm => (h date hdate m hm).hasOffset

end Record

namespace Summary

variable {F : Type} [Scalar F]

section Hours

def IsHours (n : Number F) : Prop := ∃ micros x, hoursOf micros = .ok x ∧ n = .real x

structure IsHourKey {K : Type} [LinearOrder K] (key : Number F → K) : Prop where
  less_iff : ∀ {a b}, IsHours a → IsHours b → (a.less b = true ↔ key a < key b)
  injective : ∀ {a b}, IsHours a → IsHours b → key a = key b → a = b

theorem isHourKey_exact : IsHourKey (Number.exact : Number Rat → Rat) where
  less_iff _ _ := Number.less_iff
  injective := by
    rintro _ _ ⟨-, x, -, rfl⟩ ⟨-, y, -, rfl⟩ h
    exact congrArg Number.real h

/-- The rank of a double; integers, which are no hours, have that of zero. -/
def hourRank : Number Float → Int ×ₗ Int ×ₗ Int
  | .real x => Binary64.rank x
  | .int _ => toLex (0, toLex (0, 0))

theorem isHourKey_hourRank : IsHourKey hourRank where
  less_iff := by
    rintro _ _ ⟨_, x, hx, rfl⟩ ⟨_, y, hy, rfl⟩
    exact Binary64.less_iff_rank (Binary64.isProper_of_hoursOf hx) (Binary64.isProper_of_hoursOf hy)
  injective := by
    rintro _ _ ⟨_, x, hx, rfl⟩ ⟨_, y, hy, rfl⟩ h
    exact congrArg Number.real
      (Binary64.eq_of_rank (Binary64.isProper_of_hoursOf hx) (Binary64.isProper_of_hoursOf hy) h)

variable {K : Type} [LinearOrder K] {key : Number F → K} {a b : List (Number F)}

theorem pairwise_ordered (hkey : IsHourKey key) (ha : ∀ n ∈ a, IsHours n) :
    (ordered id a).Pairwise fun m n => key m ≤ key n := by
  have hmap : (ordered id a).map key = (a.map key).mergeSort (· ≤ ·) := by
    refine List.map_mergeSort fun m hm n hn => ?_
    rw [Bool.eq_iff_iff, decide_eq_true_iff, Bool.not_eq_true', ← Bool.not_eq_true]
    exact (hkey.less_iff (ha n hn) (ha m hm)).not.trans not_lt
  rw [← List.pairwise_map, hmap]
  exact (List.pairwise_mergeSort (by simpa using fun _ _ _ => le_trans)
    (by simpa using le_total) _).imp fun h => of_decide_eq_true h

theorem median_perm (hkey : IsHourKey key) (hperm : a.Perm b) (ha : ∀ n ∈ a, IsHours n) :
    median a = median b := by
  have hb : ∀ n ∈ b, IsHours n := fun n hn => ha n (hperm.mem_iff.2 hn)
  have hordered : ordered id a = ordered id b := by
    have hsorted {c : List (Number F)} : (ordered id c).Perm c := List.mergeSort_perm ..
    refine List.Perm.eq_of_pairwise (fun m n hm hn hle hge => ?_) (pairwise_ordered hkey ha)
      (pairwise_ordered hkey hb) ((hsorted.trans hperm).trans hsorted.symm)
    exact hkey.injective (ha m (hsorted.mem_iff.1 hm)) (hb n (hsorted.mem_iff.1 hn))
      (le_antisymm hle hge)
  rw [median, median, medianBy, medianBy, hordered]

variable {start stop : Record → Option Moment} {records others : List Record}

theorem isHours_of_hoursOfRecords (h : hoursOfRecords start stop records = .ok a) :
    ∀ n ∈ a, IsHours n := by
  intro n hn
  obtain ⟨pair, -, hpair⟩ := Outcome.exists_of_mem_mapM h hn
  cases hhours : (hoursBetween pair.1 pair.2 : Outcome F) with
  | error fault => simp [hhours, Except.map] at hpair
  | ok x =>
    obtain rfl : Number.real x = n := by simpa [hhours, Except.map] using hpair
    rw [hoursBetween] at hhours
    cases hgap : pair.1.gap? pair.2 with
    | none => simp [hgap] at hhours
    | some micros => exact ⟨micros, x, by simpa [hgap] using hhours, rfl⟩

theorem perm_of_hoursOfRecords (hperm : records.Perm others)
    (h : hoursOfRecords start stop records = .ok a)
    (h' : hoursOfRecords start stop others = .ok b) : a.Perm b :=
  Outcome.perm_of_mapM (hperm.filterMap _) h h'

end Hours

section Parts

variable {records : List Record} {now : Moment} {s : Summary F}

def times (start stop : Record → Option Moment) (records : List Record) :
    Outcome (Option F × Option F) := do
  let hours ← hoursOfRecords start stop records
  let middle ← rounded (← median hours)
  let average ← rounded ((← mean hours).map Number.real)
  pure (middle, average)

structure IsSummary (records : List Record) (now : Moment) (s : Summary F) : Prop where
  count_eq : s.count = records.length
  merged_eq : s.merged = (records.filter isFinished).length
  opened_eq : s.opened = (records.filter isOpen).length
  lead : times Record.firstCommit Record.closed (records.filter isFinished) =
    .ok (s.medianLead, s.meanLead)
  review : times Record.published Record.firstReview records = .ok (s.medianReview, s.meanReview)
  stale : countStale now (records.filter isOpen) = .ok s.staleOpen

theorem exists_isSummary (hne : records ≠ []) {result : Option (Summary F)}
    (h : summarize records now = .ok result) : ∃ s, result = some s ∧ IsSummary records now s := by
  unfold summarize at h
  rw [if_neg (by simpa using hne)] at h
  extract_lets finished opened at h
  obtain ⟨lead, hlead, h⟩ := Outcome.exists_of_bind h
  obtain ⟨review, hreview, h⟩ := Outcome.exists_of_bind h
  obtain ⟨stale, hstale, h⟩ := Outcome.exists_of_bind h
  obtain ⟨middle, hmiddle, h⟩ := Outcome.exists_of_bind h
  obtain ⟨medianLead, hmedianLead, h⟩ := Outcome.exists_of_bind h
  obtain ⟨average, haverage, h⟩ := Outcome.exists_of_bind h
  obtain ⟨meanLead, hmeanLead, h⟩ := Outcome.exists_of_bind h
  obtain ⟨middleReview, hmiddleReview, h⟩ := Outcome.exists_of_bind h
  obtain ⟨medianReview, hmedianReview, h⟩ := Outcome.exists_of_bind h
  obtain ⟨averageReview, haverageReview, h⟩ := Outcome.exists_of_bind h
  obtain ⟨meanReview, hmeanReview, h⟩ := Outcome.exists_of_bind h
  obtain rfl := Except.ok.inj h
  refine ⟨_, rfl, rfl, rfl, rfl, ?lead, ?review, hstale⟩
  case lead =>
    simp only [times, finished, hlead, hmiddle, hmedianLead, haverage, hmeanLead, Outcome.ok_bind]
    rfl
  case review =>
    simp only [times, hreview, hmiddleReview, hmedianReview, haverageReview, hmeanReview,
      Outcome.ok_bind]
    rfl

theorem isSummary_of_summarize (h : summarize records now = .ok (some s)) :
    IsSummary records now s := by
  have hne : records ≠ [] := by
    rintro rfl
    cases h
  obtain ⟨_, ⟨⟩, hs⟩ := exists_isSummary hne h
  exact hs

theorem exists_of_times {start stop : Record → Option Moment} {figures : Option F × Option F}
    (h : times start stop records = .ok figures) : ∃ hours middle average,
      hoursOfRecords start stop records = .ok hours ∧ median hours = .ok middle ∧
      rounded middle = .ok figures.1 ∧ mean hours = .ok average ∧
      rounded (average.map Number.real) = .ok figures.2 := by
  unfold times at h
  obtain ⟨hours, hhours, h⟩ := Outcome.exists_of_bind h
  obtain ⟨middle, hmiddle, h⟩ := Outcome.exists_of_bind h
  obtain ⟨first, hfirst, h⟩ := Outcome.exists_of_bind h
  obtain ⟨average, haverage, h⟩ := Outcome.exists_of_bind h
  obtain ⟨second, hsecond, h⟩ := Outcome.exists_of_bind h
  obtain rfl := Except.ok.inj h
  exact ⟨hours, middle, average, hhours, hmiddle, hfirst, haverage, hsecond⟩

theorem IsSummary.summarize_eq (hne : records ≠ []) (h : IsSummary records now s) :
    summarize records now = .ok (some s) := by
  obtain ⟨lead, middle, average, hlead, hmiddle, hmedianLead, haverage, hmeanLead⟩ :=
    exists_of_times h.lead
  obtain ⟨review, middleReview, averageReview, hreview, hmiddleReview, hmedianReview,
    haverageReview, hmeanReview⟩ := exists_of_times h.review
  have hstale := h.stale
  unfold summarize
  rw [if_neg (by simpa using hne)]
  simp only [hlead, hreview, hstale, hmiddle, hmedianLead, haverage, hmeanLead, hmiddleReview,
    hmedianReview, haverageReview, hmeanReview, Outcome.ok_bind, ← h.count_eq, ← h.merged_eq,
    ← h.opened_eq]
  rfl

theorem times_perm {K : Type} [LinearOrder K] {key : Number F → K} (hkey : IsHourKey key)
    {start stop : Record → Option Moment} {others : List Record} {m m' x x' : Option F}
    (hperm : records.Perm others) (h : times start stop records = .ok (m, x))
    (h' : times start stop others = .ok (m', x')) : m = m' := by
  obtain ⟨hours, middle, -, hhours, hmiddle, hrounded, -⟩ := exists_of_times h
  obtain ⟨hours', middle', -, hhours', hmiddle', hrounded', -⟩ := exists_of_times h'
  have hmedian := median_perm hkey (perm_of_hoursOfRecords hperm hhours hhours')
    (isHours_of_hoursOfRecords hhours)
  rw [hmiddle, hmiddle'] at hmedian
  obtain rfl := Except.ok.inj hmedian
  exact Except.ok.inj (hrounded.symm.trans hrounded')

end Parts

section Staleness

variable {records : List Record} {now later : Moment} {r : Record}

def isStaleAt (now : Moment) (r : Record) : Bool :=
  r.created.any fun created => decide (staleAfter < now.instant - created.instant)

theorem isStale_eq (hr : r.HasOffsets) (hnow : now.HasOffset) :
    isStale now r = .ok (isStaleAt now r) := by
  unfold isStale isStaleAt
  cases hcreated : r.created with
  | none => rfl
  | some created =>
    have hoffset : created.HasOffset := hr r.created (by simp [Record.dates]) created (by simp [hcreated])
    simp only [Moment.gap?_eq hoffset hnow, Option.any_some]

theorem countStale_eq (h : ∀ r ∈ records, r.HasOffsets) (hnow : now.HasOffset) :
    countStale now records = .ok (records.countP (isStaleAt now)) := by
  have hrow := Outcome.mapM_eq_ok_map fun r hr => isStale_eq (h r hr) hnow
  rw [countStale, hrow, Outcome.ok_bind, List.count_eq_countP, List.countP_map]
  congr 2
  funext r
  simp

theorem isStaleAt_mono (h : now.instant ≤ later.instant) (hstale : isStaleAt now r = true) :
    isStaleAt later r = true := by
  unfold isStaleAt at hstale ⊢
  cases hcreated : r.created with
  | none => simp [hcreated] at hstale
  | some created =>
    simp only [hcreated, Option.any_some, decide_eq_true_eq] at hstale ⊢
    omega

theorem IsSummary.staleOpen_eq {s : Summary F} (hs : IsSummary records now s)
    (h : ∀ r ∈ records, r.HasOffsets) (hnow : now.HasOffset) :
    s.staleOpen = (records.filter isOpen).countP (isStaleAt now) := by
  have hstale := hs.stale
  rw [countStale_eq (fun r hr => h r (List.mem_of_mem_filter hr)) hnow] at hstale
  exact (Except.ok.inj hstale).symm

end Staleness

section Existence

variable {start stop : Record → Option Moment} {records : List Record} {now : Moment}
  {hours : List (Number F)} {middle : Option (Number F)} {average : Option F}

theorem exists_times (hhours : hoursOfRecords start stop records = .ok hours)
    (hmiddle : median hours = .ok middle) (hmedian : ∃ x, rounded middle = .ok x)
    (haverage : mean hours = .ok average)
    (hmean : ∃ x, rounded (average.map Number.real) = .ok x) :
    ∃ figures : Option F × Option F, times start stop records = .ok figures := by
  obtain ⟨first, hfirst⟩ := hmedian
  obtain ⟨second, hsecond⟩ := hmean
  refine ⟨(first, second), ?_⟩
  simp only [times, hhours, hmiddle, hfirst, haverage, hsecond, Outcome.ok_bind]
  rfl

theorem exists_summary (hne : records ≠ []) (h : ∀ r ∈ records, r.HasOffsets)
    (hnow : now.HasOffset)
    (hlead : ∃ figures : Option F × Option F,
      times Record.firstCommit Record.closed (records.filter isFinished) = .ok figures)
    (hreview : ∃ figures : Option F × Option F,
      times Record.published Record.firstReview records = .ok figures) :
    ∃ s : Summary F, summarize records now = .ok (some s) := by
  obtain ⟨lead, hlead⟩ := hlead
  obtain ⟨review, hreview⟩ := hreview
  have hopened : ∀ r ∈ records.filter isOpen, r.HasOffsets :=
    fun r hr => h r (List.mem_of_mem_filter hr)
  let s : Summary F := {
    count := records.length, merged := (records.filter isFinished).length
    opened := (records.filter isOpen).length
    medianLead := lead.1, meanLead := lead.2, medianReview := review.1, meanReview := review.2
    staleOpen := (records.filter isOpen).countP (isStaleAt now) }
  have hs : IsSummary records now s :=
    ⟨rfl, rfl, rfl, hlead, hreview, countStale_eq hopened hnow⟩
  exact ⟨s, hs.summarize_eq hne⟩

theorem mem_pairs {pair : Moment × Moment} (hpair : pair ∈ records.filterMap fun r =>
      (start r).bind fun a => (stop r).map fun b => (a, b)) :
    ∃ r ∈ records, pair.1 ∈ start r ∧ pair.2 ∈ stop r := by
  obtain ⟨r, hr, hpair⟩ := List.mem_filterMap.1 hpair
  obtain ⟨a, ha, hpair⟩ := Option.bind_eq_some_iff.1 hpair
  obtain ⟨b, hb, rfl⟩ := Option.map_eq_some_iff.1 hpair
  exact ⟨r, hr, ha, hb⟩

end Existence

section Exact

variable {start stop : Record → Option Moment} {records : List Record} {now : Moment}

theorem exists_rounded_exact {n : Option (Number Rat)} (h : ∀ a ∈ n, a = .real a.exact) :
    ∃ x, rounded n = .ok x := by
  cases n with
  | none => exact ⟨none, rfl⟩
  | some a =>
    rw [h a rfl]
    exact ⟨_, rfl⟩

theorem exists_times_exact (hstart : ∀ r ∈ records, ∀ m ∈ start r, m.HasOffset)
    (hstop : ∀ r ∈ records, ∀ m ∈ stop r, m.HasOffset) :
    ∃ figures : Option Rat × Option Rat, times start stop records = .ok figures := by
  obtain ⟨xs, hhours⟩ : ∃ xs : List Rat, hoursOfRecords start stop records =
      .ok (xs.map Number.real) := by
    refine ⟨(records.filterMap fun r => (start r).bind fun a => (stop r).map fun b => (a, b)).map
      fun pair => hoursIn (pair.2.instant - pair.1.instant), ?_⟩
    rw [List.map_map]
    refine Outcome.mapM_eq_ok_map fun pair hpair => ?_
    obtain ⟨r, hr, ha, hb⟩ := mem_pairs hpair
    simp only [hoursBetween_of_gap? (Moment.gap?_eq (hstart r hr _ ha) (hstop r hr _ hb))]
    rfl
  obtain ⟨middle, hmiddle, -, hreal⟩ := exists_median (xs.map Number.real)
  obtain ⟨average, haverage, -⟩ := exists_mean (xs.map Number.real)
  refine exists_times hhours hmiddle (exists_rounded_exact fun a ha => ?_) haverage
    (exists_rounded_exact fun a ha => ?_)
  · rcases hreal a ha with hmem | hscalar
    · obtain ⟨x, -, rfl⟩ := List.mem_map.1 hmem
      rfl
    · exact hscalar
  · obtain ⟨x, -, rfl⟩ := Option.mem_map.1 ha
    rfl

theorem exists_summary_exact (hne : records ≠ []) (h : ∀ r ∈ records, r.HasOffsets)
    (hnow : now.HasOffset) : ∃ s : Summary Rat, summarize records now = .ok (some s) := by
  have hfinished : ∀ r ∈ records.filter isFinished, r.HasOffsets :=
    fun r hr => h r (List.mem_of_mem_filter hr)
  exact exists_summary hne h hnow
    (exists_times_exact (fun r hr => hfinished r hr _ (by simp [Record.dates]))
      fun r hr => hfinished r hr _ (by simp [Record.dates]))
    (exists_times_exact (fun r hr => h r hr _ (by simp [Record.dates]))
      fun r hr => h r hr _ (by simp [Record.dates]))

end Exact

section Doubles

variable {start stop : Record → Option Moment} {records : List Record} {now : Moment}

theorem exists_hours_double {a b : Moment} (ha : a.IsZoned) (hb : b.IsZoned) :
    ∃ n : Number Float, (hoursBetween a b).map Number.real = .ok n ∧ n.IsWithin 30 := by
  obtain ⟨x, hx, hwithin⟩ := Binary64.exists_hoursOf (ha.natAbs_sub_le hb)
  refine ⟨.real x, ?_, x, rfl, hwithin⟩
  rw [hoursBetween, Moment.gap?_eq ha.hasOffset hb.hasOffset]
  dsimp only
  rw [hx]
  rfl

theorem exists_times_double (hstart : ∀ r ∈ records, ∀ m ∈ start r, m.IsZoned)
    (hstop : ∀ r ∈ records, ∀ m ∈ stop r, m.IsZoned) (hlength : records.length ≤ 2 ^ 1000) :
    ∃ figures : Option Float × Option Float, times start stop records = .ok figures := by
  obtain ⟨hours, hhours, hwithin, hcount⟩ : ∃ hours : List (Number Float),
      hoursOfRecords start stop records = .ok hours ∧ (∀ n ∈ hours, n.IsWithin 30) ∧
      hours.length ≤ records.length := by
    have hpairs (pair : Moment × Moment) (hpair : pair ∈ records.filterMap fun r =>
        (start r).bind fun a => (stop r).map fun b => (a, b)) :
        ∃ n : Number Float, (hoursBetween pair.1 pair.2).map Number.real = .ok n ∧
          n.IsWithin 30 := by
      obtain ⟨r, hr, ha, hb⟩ := mem_pairs hpair
      exact exists_hours_double (hstart r hr _ ha) (hstop r hr _ hb)
    obtain ⟨hours, hhours⟩ := Outcome.exists_mapM fun pair hpair =>
      (hpairs pair hpair).imp fun n hn => hn.1
    refine ⟨hours, hhours, fun n hn => ?_, ?_⟩
    · obtain ⟨pair, hpair, hgiven⟩ := Outcome.exists_of_mem_mapM hhours hn
      obtain ⟨n', hn', hwithin⟩ := hpairs pair hpair
      obtain rfl := Except.ok.inj (hn'.symm.trans hgiven)
      exact hwithin
    · rw [← (Outcome.mapM_eq_ok_iff.1 hhours).length_eq]
      exact List.length_filterMap_le _ _
  obtain ⟨middle, hmiddle, hmiddle'⟩ := exists_median_double hwithin
  obtain ⟨average, haverage, haverage'⟩ := exists_mean_double hwithin (hcount.trans hlength)
  refine exists_times hhours hmiddle (exists_rounded_double hmiddle') haverage
    (exists_rounded_double fun a ha => ?_)
  obtain ⟨x, hx, rfl⟩ := Option.mem_map.1 ha
  exact haverage' x hx

theorem exists_summary_double (hne : records ≠ []) (h : ∀ r ∈ records, r.IsZoned)
    (hnow : now.HasOffset) (hlength : records.length ≤ 2 ^ 1000) :
    ∃ s : Summary Float, summarize records now = .ok (some s) := by
  have hfinished : ∀ r ∈ records.filter isFinished, r.IsZoned :=
    fun r hr => h r (List.mem_of_mem_filter hr)
  exact exists_summary hne (fun r hr => (h r hr).hasOffsets) hnow
    (exists_times_double (fun r hr => hfinished r hr _ (by simp [Record.dates]))
      (fun r hr => hfinished r hr _ (by simp [Record.dates]))
      ((List.length_filter_le _ _).trans hlength))
    (exists_times_double (fun r hr => h r hr _ (by simp [Record.dates]))
      (fun r hr => h r hr _ (by simp [Record.dates])) hlength)

end Doubles

/-- How the summaries of records whose dates have offsets hang together, whenever they are made. -/
structure AreAdditive (F : Type) [Scalar F] : Prop where
  append : ∀ {xs ys : List Record} {now : Moment} {s t u : Summary F},
    (∀ r ∈ xs ++ ys, r.HasOffsets) → now.HasOffset → summarize xs now = .ok (some s) →
    summarize ys now = .ok (some t) → summarize (xs ++ ys) now = .ok (some u) →
    u.count = s.count + t.count ∧ u.merged = s.merged + t.merged ∧
      u.opened = s.opened + t.opened ∧ u.staleOpen = s.staleOpen + t.staleOpen
  perm : ∀ {xs ys : List Record} {now : Moment} {s t : Summary F}, xs.Perm ys →
    (∀ r ∈ xs, r.HasOffsets) → now.HasOffset → summarize xs now = .ok (some s) →
    summarize ys now = .ok (some t) →
    s.count = t.count ∧ s.merged = t.merged ∧ s.opened = t.opened ∧ s.staleOpen = t.staleOpen ∧
      s.medianLead = t.medianLead ∧ s.medianReview = t.medianReview
  staleOpen_le : ∀ {xs : List Record} {now : Moment} {s : Summary F},
    (∀ r ∈ xs, r.HasOffsets) → now.HasOffset → summarize xs now = .ok (some s) →
    s.staleOpen ≤ s.opened
  staleOpen_mono : ∀ {xs : List Record} {now later : Moment} {s t : Summary F},
    (∀ r ∈ xs, r.HasOffsets) → now.HasOffset → later.HasOffset → now.instant ≤ later.instant →
    summarize xs now = .ok (some s) → summarize xs later = .ok (some t) →
    s.staleOpen ≤ t.staleOpen

theorem areAdditive {K : Type} [LinearOrder K] {key : Number F → K} (hkey : IsHourKey key) :
    AreAdditive F where
  append := by
    intro xs ys now s t u h hnow hs ht hu
    obtain ⟨hxs, hys⟩ := List.forall_mem_append.1 h
    replace hs := isSummary_of_summarize hs
    replace ht := isSummary_of_summarize ht
    replace hu := isSummary_of_summarize hu
    rw [hs.count_eq, ht.count_eq, hu.count_eq, hs.merged_eq, ht.merged_eq, hu.merged_eq,
      hs.opened_eq, ht.opened_eq, hu.opened_eq, hs.staleOpen_eq hxs hnow, ht.staleOpen_eq hys hnow,
      hu.staleOpen_eq h hnow]
    simp only [List.filter_append, List.length_append, List.countP_append, and_self]
  perm := by
    intro xs ys now s t hperm h hnow hs ht
    replace hs := isSummary_of_summarize hs
    replace ht := isSummary_of_summarize ht
    have hys : ∀ r ∈ ys, r.HasOffsets := fun r hr => h r (hperm.mem_iff.2 hr)
    refine ⟨?_, ?_, ?_, ?_, times_perm hkey (hperm.filter _) hs.lead ht.lead,
      times_perm hkey hperm hs.review ht.review⟩
    · rw [hs.count_eq, ht.count_eq, hperm.length_eq]
    · rw [hs.merged_eq, ht.merged_eq, (hperm.filter _).length_eq]
    · rw [hs.opened_eq, ht.opened_eq, (hperm.filter _).length_eq]
    · rw [hs.staleOpen_eq h hnow, ht.staleOpen_eq hys hnow, (hperm.filter _).countP_eq]
  staleOpen_le := by
    intro xs now s h hnow hs
    replace hs := isSummary_of_summarize hs
    rw [hs.staleOpen_eq h hnow, hs.opened_eq]
    exact List.countP_le_length
  staleOpen_mono := by
    intro xs now later s t h hnow hlater hle hs ht
    replace hs := isSummary_of_summarize hs
    replace ht := isSummary_of_summarize ht
    rw [hs.staleOpen_eq h hnow, ht.staleOpen_eq h hlater]
    exact List.countP_mono_left fun r _ => isStaleAt_mono hle

/-- The counts of two summaries together are the sums of their counts, in doubles as they are
exactly. The order of the records makes no difference to the counts and the medians, no more records
are stale than open, and the later the summary is made the more of them are stale. A summary can
always be made, with doubles, too, if the offsets are those of clocks and the records no more than
a double can count. -/
theorem additive_and_in_any_order : AreAdditive Rat ∧ AreAdditive Float ∧
    ∀ (records : List Record) (now : Moment), records ≠ [] → now.HasOffset →
      ((∀ r ∈ records, r.HasOffsets) → ∃ s : Summary Rat, summarize records now = .ok (some s)) ∧
      ((∀ r ∈ records, r.IsZoned) → records.length ≤ 2 ^ 1000 →
        ∃ s : Summary Float, summarize records now = .ok (some s)) := by
  refine ⟨areAdditive isHourKey_exact, areAdditive isHourKey_hourRank, ?_⟩
  intro records now hne hnow
  exact ⟨fun h => exists_summary_exact hne h hnow, fun h => exists_summary_double hne h hnow⟩

def recordOfDates (state : RecordState) (created closed firstCommit : Option Moment) : Record where
  id := .int 1
  owner := "octocat"
  name := "hello"
  repository := "octocat/hello"
  number := .int 7
  title := .null
  url := .null
  author := .null
  state := state
  created := created
  published := none
  closed := closed
  firstReview := none
  firstCommit := firstCommit
  reviewers := []
  changesRequested := 0
  additions := .null
  deletions := .null
  comments := .null
  timeline := []

def summaryTime : Moment := ⟨⟨2024, 2, 20, by decide⟩, 54000000000, some 0, by decide⟩

def weekBefore : Moment := ⟨⟨2024, 2, 13, by decide⟩, 61200000000, some 7200000000, by decide⟩

def justBefore : Moment := ⟨⟨2024, 2, 13, by decide⟩, 61199999999, some 7200000000, by decide⟩

def committed : Moment := ⟨⟨2024, 2, 19, by decide⟩, 36000000000, some 0, by decide⟩

def mergedLater : Moment := ⟨⟨2024, 2, 19, by decide⟩, 48600000000, some 0, by decide⟩

def newer : List Record :=
  [recordOfDates .opened (some weekBefore) none none,
    recordOfDates .merged none (some mergedLater) (some committed)]

def older : List Record := [recordOfDates .opened (some justBefore) none none]

theorem roundHalfUp_threeAndHalf : Binary64.roundHalfUp 3.5 1 = .ok 3.5 := by
  have hdecimal : Shortest.decimal 3.5 = ⟨false, 35, -1⟩ := by decide +kernel
  have hround : (⟨false, 35, -1⟩ : Decimal).round? 1 = some ⟨false, 35, -1⟩ := by decide +kernel
  have hdouble : (⟨false, 35, -1⟩ : Decimal).toDouble = 3.5 := by decide +kernel
  have hfinite : Binary64.roundHalfUp 3.5 1 =
      ((Shortest.decimal 3.5).round 1).map Decimal.toDouble := rfl
  rw [hfinite, hdecimal, Decimal.round, hround]
  exact congrArg Except.ok hdouble

theorem times_of_one {start stop : Record → Option Moment} {records : List Record}
    (h : hoursOfRecords start stop records = .ok [Number.real (3.5 : Float)]) :
    times start stop records = .ok (some (3.5 : Float), some 3.5) := by
  have hmiddle : median [Number.real (3.5 : Float)] = .ok (some (.real 3.5)) := by
    simp [median, medianBy, ordered]
  have hmean : mean [Number.real (3.5 : Float)] = .ok (some 3.5) := by rfl
  have hrounded : rounded (some (Number.real (3.5 : Float))) = .ok (some 3.5) :=
    congrArg (Functor.map some) roundHalfUp_threeAndHalf
  simp only [times, h, Outcome.ok_bind, hmiddle, hmean, hrounded, Option.map_some]
  rfl

theorem additive_over_week : (∀ r ∈ newer ++ older, r.IsZoned) ∧ ∃ s t u : Summary Float,
    summarize newer summaryTime = .ok (some s) ∧ summarize older summaryTime = .ok (some t) ∧
    summarize (newer ++ older) summaryTime = .ok (some u) ∧ u.opened = s.opened + t.opened ∧
    s.staleOpen = 0 ∧ u.staleOpen = 1 ∧ u.medianLead = some 3.5 := by
  have hnow : summaryTime.HasOffset := by decide
  have hzoned : ∀ r ∈ newer ++ older, r.IsZoned := by decide
  obtain ⟨hnewer, holder⟩ := List.forall_mem_append.1 hzoned
  have hfew {n : Nat} (hn : n ≤ 3) : n ≤ 2 ^ 1000 := by omega
  obtain ⟨-, hadditive, hexists⟩ := additive_and_in_any_order
  obtain ⟨s, hs⟩ := (hexists newer summaryTime (by simp [newer]) hnow).2 hnewer (hfew (by decide))
  obtain ⟨t, ht⟩ := (hexists older summaryTime (by simp [older]) hnow).2 holder (hfew (by decide))
  obtain ⟨u, hu⟩ := (hexists (newer ++ older) summaryTime (by simp [newer]) hnow).2 hzoned
    (hfew (by decide))
  obtain ⟨-, -, hopened, hstale⟩ :=
    hadditive.append (fun r hr => (hzoned r hr).hasOffsets) hnow hs ht hu
  have hfresh : s.staleOpen = 0 := (Except.ok.inj (isSummary_of_summarize hs).stale).symm
  have hold : t.staleOpen = 1 := (Except.ok.inj (isSummary_of_summarize ht).stale).symm
  have hlead := Except.ok.inj ((isSummary_of_summarize hu).lead.symm.trans (times_of_one rfl))
  exact ⟨hzoned, s, t, u, hs, ht, hu, hopened, hfresh, by rw [hstale, hfresh, hold],
    congrArg Prod.fst hlead⟩

end Summary

end PullGauge
