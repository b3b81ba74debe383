import Mathlib
import PullGauge.Metrics.Developer
import PullGauge.Proofs.Metrics.Middle
import PullGauge.Proofs.Number.Rounding
import PullGauge.Proofs.Outcome.Rows
import PullGauge.Proofs.Payload.Places

/-!
# Scores from contributions

The pass over details collects what each of them says of one pull request. The scores are then
figures of the raw values, which depend on the pull requests but not on their order. Clamping and
rounding keep the order of numbers and fix the ends of the scale, so each score stays on the scale
and moves one way with its raw value.
-/

namespace PullGauge

namespace Scores

structure Contribution where
  merged : Option Moment
  created : Option Moment
  verdicts : List Payload
  additions : Nat
  deletions : Nat
  comments : Nat
  issues : Nat

namespace Contribution

def changes (r : Contribution) : Nat := r.verdicts.countP fun v => v.isText "CHANGES_REQUESTED"

def size (r : Contribution) : Nat := r.additions + r.deletions

def hours? (r : Contribution) : Option Rat :=
  match r.created, r.merged with
  | some c, some m => (c.gap? m).map hoursIn
  | _, _ => none

/-- The payload says so; reviews and totals may be missing, and count as none then. -/
structure IsToldBy (r : Contribution) (p : Payload) : Prop where
  merged : ∃ date, p.told ["mergedAt"] = some date ∧ timestamp date = .ok r.merged
  created : ∃ date, p.told ["createdAt"] = some date ∧ timestamp date = .ok r.created
  reviews : ∃ nodes items, p.told ["reviews", "nodes"] = some nodes ∧
    nodes.orElse (.list []) = .list items ∧
    List.Forall₂ (fun verdict item => item.told ["state"] = some verdict) r.verdicts items
  additions : p.told ["additions"] (.int 0) = some (.int r.additions)
  deletions : p.told ["deletions"] (.int 0) = some (.int r.deletions)
  comments : p.told ["comments", "totalCount"] (.int 0) = some (.int r.comments)
  issues : p.told ["closingIssuesReferences", "totalCount"] (.int 0) = some (.int r.issues)

def IsOrdered (r : Contribution) : Prop :=
  ∀ c ∈ r.created, ∀ m ∈ r.merged, ∃ gap, c.gap? m = some gap ∧ 0 ≤ gap

theorem IsOrdered.hours_nonneg {r : Contribution} (h : r.IsOrdered) {x : Rat} (hx : x ∈ r.hours?) :
    0 ≤ x := by
  cases hc : r.created with
  | none => simp [hours?, hc] at hx
  | some c =>
    cases hm : r.merged with
    | none => simp [hours?, hc, hm] at hx
    | some m =>
      obtain ⟨gap, hgap, hnonneg⟩ := h c hc m hm
      simp only [hours?, hc, hm, hgap, Option.map_some, Option.mem_some_iff] at hx
      exact hx ▸ hoursIn_nonneg hnonneg

theorem IsOrdered.leadTime_eq {r : Contribution} (h : r.IsOrdered) :
    leadTime r.created r.merged = .ok (r.hours?.map Number.real).toList := by
  cases hc : r.created with
  | none => simp [hours?, hc, leadTime]
  | some c =>
    cases hm : r.merged with
    | none => simp [hours?, hc, hm, leadTime]
    | some m =>
      obtain ⟨gap, hgap, -⟩ := h c hc m hm
      simp only [leadTime, hoursBetween_of_gap? hgap, hours?, hc, hm, hgap]
      rfl

end Contribution

section Tally

variable {said seen : List Contribution} {details : List Payload} {r : Contribution} {p : Payload}

def tallyOf (said : List Contribution) : Tally Rat where
  merged := said.countP fun r => r.merged.isSome
  changes := said.map fun r => .int r.changes
  sizes := said.map fun r => .number (.int r.size)
  leadTimes := (said.filterMap Contribution.hours?).map .real
  comments := said.map fun r => .int r.comments
  issuesClosed := .int (said.map Contribution.issues).sum

theorem mapM_asksForChanges {verdicts items : List Payload}
    (h : List.Forall₂ (fun verdict item => item.told ["state"] = some verdict) verdicts items) :
    items.mapM asksForChanges = .ok (verdicts.map fun v => v.isText "CHANGES_REQUESTED") := by
  rw [Outcome.mapM_eq_ok_iff, List.forall₂_map_right_iff]
  refine h.flip.imp fun item verdict htold => ?_
  rw [asksForChanges, Payload.field_of_told htold]
  rfl

theorem tallyOf_add (h : r.IsToldBy p) (hr : r.IsOrdered) (seen : List Contribution) :
    (tallyOf seen).add p = .ok (tallyOf (seen ++ [r])) := by
  obtain ⟨merged, hmerged, hmergedAt⟩ := h.merged
  obtain ⟨created, hcreated, hcreatedAt⟩ := h.created
  obtain ⟨nodes, items, hnodes, hitems, hverdicts⟩ := h.reviews
  obtain ⟨comments, hcomments, htotal⟩ := Payload.exists_part_of_told h.comments
  obtain ⟨issues, hissues, hclosed⟩ := Payload.exists_part_of_told h.issues
  have hsize : (Size.ofSum (.int r.additions) (.int r.deletions) : Outcome (Size Rat)) =
      .ok (.number (.int r.size)) := rfl
  have hsum : addTo (tallyOf seen).issuesClosed (.int r.issues) =
      .ok (tallyOf (seen ++ [r])).issuesClosed := by
    simp only [tallyOf, List.map_append, List.sum_append, List.map_singleton, List.sum_singleton]
    rfl
  have hchanges : (r.verdicts.map fun v => v.isText "CHANGES_REQUESTED").count true = r.changes := by
    rw [List.count, List.countP_map, Contribution.changes]
    exact List.countP_congr fun v _ => by simp
  have hlead : (r.hours?.map Number.real).toList =
      ([r].filterMap Contribution.hours?).map Number.real := by
    cases hhours : r.hours? <;> simp [hhours]
  unfold Tally.add
  simp only [Payload.field_of_told hmerged, Payload.field_of_told hcreated, hmergedAt, hcreatedAt,
    hr.leadTime_eq, Payload.nodes_of_told hnodes, hitems, Payload.items,
    mapM_asksForChanges hverdicts, Payload.fieldOr_of_told h.additions,
    Payload.fieldOr_of_told h.deletions, hcomments, Payload.fieldOr_of_told htotal, hissues,
    Payload.fieldOr_of_told hclosed, hsize, hsum, bind, Except.bind]
  refine congrArg Except.ok ?_
  simp only [hchanges, hlead, tallyOf, List.countP_append, List.countP_singleton, List.map_append,
    List.map_singleton, List.filterMap_append]

theorem foldlM_add (h : List.Forall₂ Contribution.IsToldBy said details)
    (hsaid : ∀ r ∈ said, r.IsOrdered) (seen : List Contribution) :
    details.foldlM Tally.add (tallyOf seen) = .ok (tallyOf (seen ++ said)) := by
  induction h generalizing seen with
  | nil => rw [List.append_nil]; rfl
  | @cons r p said details hr hmore ih =>
    rw [List.forall_mem_cons] at hsaid
    rw [List.foldlM_cons, tallyOf_add hr hsaid.1]
    have hrest := ih hsaid.2 (seen ++ [r])
    rwa [List.append_assoc, List.singleton_append] at hrest

end Tally

structure Raw where
  mergeRate : Rat
  meanChanges : Rat
  medianSize : Rat
  medianLeadTime : Rat
  meanComments : Rat
  reviewed : Int
  issues : Nat

def rawOf (authored reviewed : Int) (said : List Contribution) : Raw where
  mergeRate := (said.countP fun r => r.merged.isSome : Nat) / authored
  meanChanges := average (said.map fun r => (r.changes : Rat))
  medianSize := middle (said.map fun r => (r.size : Rat))
  medianLeadTime := middle (said.filterMap Contribution.hours?)
  meanComments := average (said.map fun r => (r.comments : Rat))
  reviewed
  issues := (said.map Contribution.issues).sum

def rounded (x : Rat) : Rat := Exact.roundHalfUp x 2

theorem round2_eq (x : Rat) : round2 x = .ok (rounded x) := rfl

theorem rounded_mono {x y : Rat} (h : x ≤ y) : rounded x ≤ rounded y := Exact.roundHalfUp_mono 2 h

theorem rounded_mem_Icc {x : Rat} (high : Nat) (hlow : 0 ≤ x) (hhigh : x ≤ high) :
    rounded x ∈ Set.Icc 0 (high : Rat) := by
  have hzero : ((0 : Int) : Rat) ≤ x := by exact_mod_cast hlow
  have hscale : x ≤ ((high : Int) : Rat) := by exact_mod_cast hhigh
  exact_mod_cast Exact.roundHalfUp_mem_Icc 2 hzero hscale

theorem tenLess_eq (x : Rat) : tenLess x = max 0 (10 - x) := by
  have hscore : (Scalar.whole 10 : Rat) - x = 10 - x := rfl
  have hless (y : Rat) : Scalar.less (Scalar.whole 0) y = true ↔ 0 < y := by
    exact decide_eq_true_iff
  rw [tenLess, hscore]
  by_cases h : 0 < 10 - x
  · rw [if_pos ((hless _).2 h), max_eq_right h.le]
  · rw [if_neg ((hless _).not.2 h), max_eq_left (not_lt.1 h)]
    rfl

theorem atMostTen_eq (x : Rat) : atMostTen x = min 10 x := by
  have hless : Scalar.less x (Scalar.whole 10) = true ↔ x < 10 := decide_eq_true_iff
  rw [atMostTen]
  by_cases h : x < 10
  · rw [if_pos (hless.2 h), min_eq_right h.le]
  · rw [if_neg (hless.not.2 h), min_eq_left (not_lt.1 h)]
    rfl

theorem countScore_eq (i : Int) : (countScore (.int i) : Outcome Rat) = .ok (min 10 (i : Rat)) := by
  have hless : (Number.int i : Number Rat).less (.int 10) = true ↔ (i : Rat) < 10 := by
    rw [Number.less_iff]
    rfl
  rw [countScore]
  by_cases h : (i : Rat) < 10
  · rw [if_pos (hless.2 h), min_eq_right h.le]
    rfl
  · rw [if_neg (hless.not.2 h), min_eq_left (not_lt.1 h)]
    rfl

def Raw.scores (a : Raw) : Scores Rat where
  mergeSuccess := rounded (a.mergeRate * 10)
  mergeRate := rounded a.mergeRate
  cycleEfficiency := rounded (max 0 (10 - a.meanChanges * 2))
  meanChanges := rounded a.meanChanges
  sizeEfficiency := rounded (max 0 (10 - a.medianSize / 100))
  medianSize := rounded a.medianSize
  leadTimeScore := rounded (max 0 (10 - a.medianLeadTime / 12))
  medianLeadTime := rounded a.medianLeadTime
  reviewActivity := rounded (min 10 a.reviewed)
  reviewsCount := a.reviewed
  feedbackScore := rounded (min 10 a.meanComments)
  meanComments := rounded a.meanComments
  issueResolution := rounded (min 10 a.issues)
  issuesClosed := .int a.issues

/-- What the details of a developer's pull requests tell. The median size with two decimals has no
more digits than a decimal may have. -/
structure Tells (authored reviewed : Int) (details : List Payload) (said : List Contribution) :
    Prop where
  told : List.Forall₂ Contribution.IsToldBy said details
  length_le : details.length ≤ authored
  reviewed_nonneg : 0 ≤ reviewed
  ordered : ∀ r ∈ said, r.IsOrdered
  digits : (rawOf authored reviewed said).medianSize * 10 ^ 2 < 10 ^ Decimal.precision

section Figures

variable {authored reviewed : Int} {details : List Payload} {said : List Contribution}

theorem meanOfPayloads_int {α : Type} (f : α → Int) (items : List α) :
    (meanOfPayloads (items.map fun a => .int (f a)) : Outcome (Option Rat)) =
      mean (items.map fun a => .int (f a)) := by
  have hsum : (items.map fun a => Payload.int (f a)).foldlM addTo (Number.int 0 : Number Rat) =
      Number.sum (items.map fun a => Number.int (f a)) := by
    rw [Number.sum, List.foldlM_map, List.foldlM_map]
    rfl
  unfold meanOfPayloads mean
  rw [hsum, List.isEmpty_map, List.isEmpty_map, List.length_map, List.length_map]

theorem medianSizeOf_number {α : Type} (f : α → Number Rat) (items : List α) :
    medianSizeOf (items.map fun a => .number (f a)) = median (items.map f) := by
  have hnumbers (g : Size Rat → Option (Number Rat)) (hg : ∀ n, g (.number n) = some n) :
      (items.map fun a => Size.number (f a)).filterMap g = items.map f := by
    rw [List.filterMap_map, ← List.filterMap_eq_map]
    exact List.filterMap_congr fun a _ => hg (f a)
  unfold medianSizeOf
  dsimp only
  rw [hnumbers _ fun _ => rfl, List.length_map, List.length_map, if_pos rfl]

theorem map_exact_natCast {α : Type} (f : α → Nat) (items : List α) :
    (items.map fun a => Number.int (f a)).map Number.exact = items.map fun a => (f a : Rat) := by
  rw [List.map_map]
  exact List.map_congr_left fun a _ => Int.cast_natCast (f a)

theorem exists_statistics (authored reviewed : Int) (said : List Contribution) :
    ∃ changes size lead comments, mean (tallyOf said).changes = .ok changes ∧
      medianSizeOf (tallyOf said).sizes = .ok size ∧ median (tallyOf said).leadTimes = .ok lead ∧
      meanOfPayloads (tallyOf said).comments = .ok comments ∧
      orZero changes = (rawOf authored reviewed said).meanChanges ∧
      (numberOrZero size).exact = (rawOf authored reviewed said).medianSize ∧
      numberOrZero lead = .real (rawOf authored reviewed said).medianLeadTime ∧
      orZero comments = (rawOf authored reviewed said).meanComments := by
  obtain ⟨changes, hchanges, hmeanChanges⟩ := exists_mean (said.map fun r => .int r.changes)
  obtain ⟨size, hsize, hmedianSize, -⟩ := exists_median (said.map fun r => .int r.size)
  obtain ⟨lead, hlead, hmedianLead⟩ := exists_median_real (said.filterMap Contribution.hours?)
  obtain ⟨comments, hcomments, hmeanComments⟩ := exists_mean (said.map fun r => .int r.comments)
  rw [map_exact_natCast] at hmeanChanges hmedianSize hmeanComments
  exact ⟨changes, size, lead, comments, hchanges, (medianSizeOf_number _ said).trans hsize, hlead,
    (meanOfPayloads_int _ said).trans hcomments, hmeanChanges, hmedianSize, hmedianLead,
    hmeanComments⟩

theorem nonneg_of_mem_natCast {α : Type} {f : α → Nat} {items : List α} {x : Rat}
    (h : x ∈ items.map fun a => (f a : Rat)) : 0 ≤ x := by
  obtain ⟨a, -, rfl⟩ := List.mem_map.1 h
  exact Nat.cast_nonneg _

theorem medianSize_nonneg (authored reviewed : Int) (said : List Contribution) :
    0 ≤ (rawOf authored reviewed said).medianSize :=
  middle_nonneg fun _ => nonneg_of_mem_natCast

theorem ofDetails_eq (h : Tells authored reviewed details said) :
    ofDetails authored reviewed details = .ok (rawOf authored reviewed said).scores := by
  have htally : details.foldlM Tally.add ({} : Tally Rat) = .ok (tallyOf said) :=
    foldlM_add h.told h.ordered []
  obtain ⟨changes, size, lead, comments, hchanges, hsize, hlead, hcomments, hmeanChanges,
    hmedianSize, hmedianLead, hmeanComments⟩ := exists_statistics authored reviewed said
  -- an integer of too many digits is the one number that cannot be rounded
  have hrounded : (numberOrZero size).roundHalfUp 2 =
      .ok (rounded (rawOf authored reviewed said).medianSize) := by
    have hdigits := h.digits
    rw [← abs_of_nonneg (medianSize_nonneg authored reviewed said), ← hmedianSize] at hdigits
    rw [← hmedianSize]
    exact Number.roundHalfUp_eq (by decide) hdigits
  have hround (x : Rat) : (Number.real x).roundHalfUp 2 = .ok (rounded x) := rfl
  have hissues : countScore (tallyOf said).issuesClosed =
      .ok (min 10 ((rawOf authored reviewed said).issues : Rat)) := by
    rw [← Int.cast_natCast]
    exact countScore_eq _
  unfold ofDetails
  simp only [htally, hchanges, hsize, hlead, hcomments, hmeanChanges, hmedianSize, hmedianLead,
    hmeanComments, hrounded, hround, hissues, Outcome.ok_bind, round2_eq, Number.divInt_eq,
    Number.exact_real, tenLess_eq, atMostTen_eq, countScore_eq]
  split_ifs with hnone
  · have hzero : (Scalar.whole 0 : Rat) = (rawOf authored reviewed said).mergeRate := by
      rw [rawOf, hnone, Int.cast_zero, div_zero]
      rfl
    rw [hzero]
    rfl
  · rfl

theorem rawOf_perm {other : List Contribution} (h : other.Perm said) (authored reviewed : Int) :
    rawOf authored reviewed other = rawOf authored reviewed said := by
  rw [rawOf, rawOf, h.countP_eq, average_perm (h.map _), middle_perm (h.map _),
    middle_perm (h.filterMap _), average_perm (h.map _), (h.map _).sum_eq]

theorem ofDetails_of_perm {others : List Payload} (h : Tells authored reviewed details said)
    (hperm : others.Perm details) :
    (ofDetails authored reviewed others : Outcome (Scores Rat)) =
      ofDetails authored reviewed details := by
  obtain ⟨other, htold, hsame⟩ := List.perm_comp_forall₂ hperm h.told.flip
  have hraw := rawOf_perm hsame authored reviewed
  have hother : Tells authored reviewed others other :=
    ⟨htold.flip, hperm.length_eq ▸ h.length_le, h.reviewed_nonneg,
      fun r hr => h.ordered r (hsame.mem_iff.1 hr), hraw ▸ h.digits⟩
  rw [ofDetails_eq hother, ofDetails_eq h, hraw]

structure Raw.IsSound (a : Raw) : Prop where
  mergeRate : a.mergeRate ∈ Set.Icc 0 1
  meanChanges : 0 ≤ a.meanChanges
  medianSize : 0 ≤ a.medianSize
  medianLeadTime : 0 ≤ a.medianLeadTime
  meanComments : 0 ≤ a.meanComments
  reviewed : 0 ≤ a.reviewed

theorem rawOf_isSound (h : Tells authored reviewed details said) :
    (rawOf authored reviewed said).IsSound where
  mergeRate := by
    have hmerged : said.countP (fun r => r.merged.isSome) ≤ authored := by
      have hcount : said.countP (fun r => r.merged.isSome) ≤ said.length := List.countP_le_length
      have hlength := h.told.length_eq
      have hle := h.length_le
      omega
    have hle : ((said.countP fun r => r.merged.isSome : Nat) : Rat) ≤ authored := by
      exact_mod_cast hmerged
    have hnonneg : (0 : Rat) ≤ (said.countP fun r => r.merged.isSome : Nat) := Nat.cast_nonneg _
    exact ⟨div_nonneg hnonneg (hnonneg.trans hle), div_le_one_of_le₀ hle (hnonneg.trans hle)⟩
  meanChanges := average_nonneg fun _ => nonneg_of_mem_natCast
  medianSize := medianSize_nonneg ..
  medianLeadTime := by
    refine middle_nonneg fun x hx => ?_
    obtain ⟨r, hr, hhours⟩ := List.mem_filterMap.1 hx
    exact (h.ordered r hr).hours_nonneg hhours
  meanComments := average_nonneg fun _ => nonneg_of_mem_natCast
  reviewed := h.reviewed_nonneg

end Figures

structure IsBounded (s : Scores Rat) : Prop where
  mergeRate : s.mergeRate ∈ Set.Icc 0 1
  mergeSuccess : s.mergeSuccess ∈ Set.Icc 0 10
  cycleEfficiency : s.cycleEfficiency ∈ Set.Icc 0 10
  sizeEfficiency : s.sizeEfficiency ∈ Set.Icc 0 10
  leadTimeScore : s.leadTimeScore ∈ Set.Icc 0 10
  reviewActivity : s.reviewActivity ∈ Set.Icc 0 10
  feedbackScore : s.feedbackScore ∈ Set.Icc 0 10
  issueResolution : s.issueResolution ∈ Set.Icc 0 10

theorem rounded_mem_scale {x : Rat} (hlow : 0 ≤ x) (hhigh : x ≤ 10) : rounded x ∈ Set.Icc 0 10 :=
  rounded_mem_Icc 10 hlow hhigh

theorem rounded_penalty_mem {x : Rat} (h : 0 ≤ x) : rounded (max 0 (10 - x)) ∈ Set.Icc 0 10 :=
  rounded_mem_scale (le_max_left ..) (max_le (by norm_num) (sub_le_self _ h))

theorem rounded_reward_mem {x : Rat} (h : 0 ≤ x) : rounded (min 10 x) ∈ Set.Icc 0 10 :=
  rounded_mem_scale (le_min (by norm_num) h) (min_le_left ..)

theorem Raw.IsSound.scores_isBounded {a : Raw} (h : a.IsSound) : a.scores.IsBounded where
  mergeRate := by
    have hmem := rounded_mem_Icc 1 h.mergeRate.1 (by exact_mod_cast h.mergeRate.2)
    exact_mod_cast hmem
  mergeSuccess := by
    obtain ⟨hlow, hhigh⟩ := h.mergeRate
    exact rounded_mem_scale (by linarith) (by linarith)
  cycleEfficiency := rounded_penalty_mem (mul_nonneg h.meanChanges (by norm_num))
  sizeEfficiency := rounded_penalty_mem (div_nonneg h.medianSize (by norm_num))
  leadTimeScore := rounded_penalty_mem (div_nonneg h.medianLeadTime (by norm_num))
  reviewActivity := rounded_reward_mem (Int.cast_nonneg h.reviewed)
  feedbackScore := rounded_reward_mem h.meanComments
  issueResolution := rounded_reward_mem (Nat.cast_nonneg _)

/-- Which way each score goes from one report to another as its raw value grows. -/
structure Moves (a b : Raw) (s t : Scores Rat) : Prop where
  cycleEfficiency : a.meanChanges ≤ b.meanChanges → t.cycleEfficiency ≤ s.cycleEfficiency
  sizeEfficiency : a.medianSize ≤ b.medianSize → t.sizeEfficiency ≤ s.sizeEfficiency
  leadTimeScore : a.medianLeadTime ≤ b.medianLeadTime → t.leadTimeScore ≤ s.leadTimeScore
  feedbackScore : a.meanComments ≤ b.meanComments → s.feedbackScore ≤ t.feedbackScore
  reviewActivity : a.reviewed ≤ b.reviewed → s.reviewActivity ≤ t.reviewActivity
  issueResolution : a.issues ≤ b.issues → s.issueResolution ≤ t.issueResolution

theorem rounded_penalty_anti {x y : Rat} (h : x ≤ y) :
    rounded (max 0 (10 - y)) ≤ rounded (max 0 (10 - x)) :=
  rounded_mono (max_le_max_left 0 (sub_le_sub_left h 10))

theorem rounded_reward_mono {x y : Rat} (h : x ≤ y) : rounded (min 10 x) ≤ rounded (min 10 y) :=
  rounded_mono (min_le_min_left 10 h)

theorem Raw.scores_moves (a b : Raw) : Moves a b a.scores b.scores where
  cycleEfficiency h := rounded_penalty_anti (mul_le_mul_of_nonneg_right h (by norm_num))
  sizeEfficiency h := rounded_penalty_anti (div_le_div_of_nonneg_right h (by norm_num))
  leadTimeScore h := rounded_penalty_anti (div_le_div_of_nonneg_right h (by norm_num))
  feedbackScore h := rounded_reward_mono h
  reviewActivity h := rounded_reward_mono (Int.cast_le.2 h)
  issueResolution h := rounded_reward_mono (Nat.cast_le.2 h)

structure Reports (s : Scores Rat) (a : Raw) : Prop where
  mergeRate : s.mergeRate = rounded a.mergeRate
  meanChanges : s.meanChanges = rounded a.meanChanges
  medianSize : s.medianSize = rounded a.medianSize
  medianLeadTime : s.medianLeadTime = rounded a.medianLeadTime
  reviewsCount : s.reviewsCount = a.reviewed
  meanComments : s.meanComments = rounded a.meanComments
  issuesClosed : s.issuesClosed = .int a.issues

theorem Raw.scores_reports (a : Raw) : a.scores.Reports a :=
  ⟨rfl, rfl, rfl, rfl, rfl, rfl, rfl⟩

end Scores

end PullGauge
