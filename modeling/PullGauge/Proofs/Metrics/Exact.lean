import Mathlib
import PullGauge.Metrics.Statistics
import PullGauge.Proofs.Number.Rational
import PullGauge.Proofs.Record.Earliest

/-!
# Exact statistics

Over the rationals a mean is the sum over the count, and the hours between two moments are the
microseconds between their instants over those of an hour.
-/

namespace PullGauge

def average (xs : List Rat) : Rat := if xs = [] then 0 else xs.sum / xs.length

@[simp] theorem average_nil : average [] = 0 := rfl

theorem average_eq (xs : List Rat) : average xs = xs.sum / xs.length := by
  unfold average
  split_ifs with h
  · rw [h, List.length_nil, Nat.cast_zero, div_zero]
  · rfl

theorem average_perm {xs ys : List Rat} (h : xs.Perm ys) : average xs = average ys := by
  rw [average_eq, average_eq, h.sum_eq, h.length_eq]

theorem average_nonneg {xs : List Rat} (h : ∀ x ∈ xs, 0 ≤ x) : 0 ≤ average xs := by
  rw [average_eq]
  exact div_nonneg (List.sum_nonneg h) (Nat.cast_nonneg _)

theorem average_mem_Icc {xs : List Rat} {low high : Rat} (hne : xs ≠ [])
    (h : ∀ x ∈ xs, x ∈ Set.Icc low high) : average xs ∈ Set.Icc low high := by
  have hlength : (0 : Rat) < xs.length := Nat.cast_pos.2 (List.length_pos_iff.2 hne)
  have hlow := List.card_nsmul_le_sum xs low fun x hx => (h x hx).1
  have hhigh := List.sum_le_card_nsmul xs high fun x hx => (h x hx).2
  rw [nsmul_eq_mul, mul_comm] at hlow hhigh
  rw [average_eq]
  exact ⟨(le_div_iff₀ hlength).2 hlow, (div_le_iff₀ hlength).2 hhigh⟩

theorem orZero_some (x : Rat) : orZero (some x) = x := by
  by_cases hx : x = 0
  · rw [hx]
    rfl
  · have hzero : ¬ Scalar.isZero x = true := fun h => hx (of_decide_eq_true h)
    exact if_neg hzero

@[simp] theorem orZero_none : orZero (none : Option Rat) = 0 := rfl

theorem mean_of_ne_nil {values : List (Number Rat)} (h : values ≠ []) :
    mean values = .ok (some (average (values.map Number.exact))) := by
  obtain ⟨total, htotal, hexact⟩ := Number.exists_sum values
  unfold mean
  rw [if_neg (by simpa using h), htotal]
  simp only [Outcome.ok_bind, Number.divInt_eq, hexact, average_eq, List.length_map]
  rfl

theorem exists_mean (values : List (Number Rat)) :
    ∃ m, mean values = .ok m ∧ orZero m = average (values.map Number.exact) := by
  by_cases h : values = []
  · subst h
    exact ⟨none, rfl, by rw [orZero_none, List.map_nil, average_nil]⟩
  · exact ⟨_, mean_of_ne_nil h, orZero_some _⟩

def hoursIn (micros : Int) : Rat := micros / 3600000000

theorem hoursIn_pos {micros : Int} (h : 0 < micros) : 0 < hoursIn micros := by
  have hpos : (0 : Rat) < micros := Int.cast_pos.2 h
  exact div_pos hpos (by norm_num)

theorem hoursIn_nonneg {micros : Int} (h : 0 ≤ micros) : 0 ≤ hoursIn micros := by
  have hnonneg : (0 : Rat) ≤ micros := Int.cast_nonneg h
  exact div_nonneg hnonneg (by norm_num)

theorem hoursOf_eq (micros : Int) : (hoursOf micros : Outcome Rat) = .ok (hoursIn micros) := by
  have hquotient : (hoursOf micros : Outcome Rat) =
      .ok ((micros : Rat) / ((Calendar.secondMicros : Int) : Rat) / ((3600 : Nat) : Rat)) := rfl
  rw [hquotient, hoursIn, div_div]
  norm_num [Calendar.secondMicros]

theorem hoursBetween_of_gap? {start stop : Moment} {micros : Int}
    (h : start.gap? stop = some micros) :
    (hoursBetween start stop : Outcome Rat) = .ok (hoursIn micros) := by
  rw [hoursBetween, h]
  exact hoursOf_eq micros

end PullGauge
