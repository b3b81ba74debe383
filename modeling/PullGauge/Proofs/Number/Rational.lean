import Mathlib
import PullGauge.Number.Basic
import PullGauge.Number.Exact

/-!
# Numbers over the rationals

Over the rationals an integer and a scalar are two ways to write a number: sums, quotients and
comparisons come to those of the rationals.

A rational is rounded to a multiple of a step, a half going away from zero. This keeps the order,
and leaves integers as they are, so what lies between two integers stays between them.
-/

namespace PullGauge

namespace Number

def exact : Number Rat → Rat
  | .int i => i
  | .real x => x

variable {a b : Number Rat}

@[simp]
theorem exact_int (i : Int) : (Number.int i).exact = i := rfl

@[simp]
theorem exact_real (x : Rat) : (Number.real x).exact = x := rfl

theorem toScalar_eq (a : Number Rat) : a.toScalar = .ok a.exact := by
  cases a <;> rfl

theorem exists_add (a b : Number Rat) : ∃ c, a.add b = .ok c ∧ c.exact = a.exact + b.exact := by
  have hscalars : ∃ c : Number Rat, (do pure (Number.real ((← a.toScalar) + (← b.toScalar))) :
      Outcome _) = .ok c ∧ c.exact = a.exact + b.exact := by
    rw [toScalar_eq, toScalar_eq]
    exact ⟨_, rfl, rfl⟩
  cases a with
  | real x => exact hscalars
  | int i =>
    cases b with
    | real y => exact hscalars
    | int j => exact ⟨.int (i + j), rfl, Int.cast_add i j⟩

theorem divInt_eq (a : Number Rat) (n : Int) : a.divInt n = .ok (a.exact / n) := by
  cases a <;> rfl

theorem less_iff : a.less b = true ↔ a.exact < b.exact := by
  cases a with
  | int i =>
    cases b with
    | int j => simp [less]
    | real y => exact decide_eq_true_iff
  | real x =>
    cases b with
    | int j => exact decide_eq_true_iff
    | real y => exact decide_eq_true_iff

theorem isZero_iff : a.isZero = true ↔ a.exact = 0 := by
  cases a with
  | int i => simp [isZero]
  | real x => exact decide_eq_true_iff

theorem exists_foldlM_add (total : Number Rat) (values : List (Number Rat)) :
    ∃ last, values.foldlM add total = .ok last ∧
      last.exact = total.exact + (values.map exact).sum := by
  induction values generalizing total with
  | nil => exact ⟨total, rfl, by simp⟩
  | cons n values ih =>
    obtain ⟨next, hnext, hexact⟩ := exists_add total n
    obtain ⟨last, hlast, hsum⟩ := ih next
    refine ⟨last, ?_, ?_⟩
    · rw [List.foldlM_cons, hnext]
      exact hlast
    · rw [hsum, hexact, List.map_cons, List.sum_cons]
      ring

theorem exists_sum (values : List (Number Rat)) :
    ∃ total, sum values = .ok total ∧ total.exact = (values.map exact).sum := by
  obtain ⟨total, htotal, hexact⟩ := exists_foldlM_add (.int 0) values
  exact ⟨total, htotal, by simpa using hexact⟩

end Number

theorem Decimal.scaleTen_eq (n : Nat) (e : Int) : scaleTen n e = n * (10 : Rat) ^ e := by
  cases e with
  | ofNat k =>
    show ((n * 10 ^ k : Nat) : Rat) = n * (10 : Rat) ^ (k : Int)
    push_cast
    rfl
  | negSucc k =>
    show mkRat n (10 ^ (k + 1)) = n * (10 : Rat) ^ Int.negSucc k
    rw [Rat.mkRat_eq_div, zpow_negSucc, div_eq_mul_inv]
    push_cast
    rfl

theorem Decimal.digitCount_le_iff {n k : Nat} (hk : 0 < k) : digitCount n ≤ k ↔ n < 10 ^ k :=
  Nat.length_toDigits_le_iff (by decide) hk

namespace Exact

variable {r s step : Rat}

theorem roundMagnitude_mono (hstep : 0 < step) (h : r ≤ s) :
    roundMagnitude r step ≤ roundMagnitude s step := by
  have hfloor : (r / step + 1 / 2).floor ≤ (s / step + 1 / 2).floor := by
    refine Rat.floor_monotone ?_
    gcongr
  exact mul_le_mul_of_nonneg_right (Int.cast_le.2 hfloor) hstep.le

theorem roundMagnitude_mul (hstep : 0 < step) (k : Int) :
    roundMagnitude (k * step) step = k * step := by
  have hfloor : ⌊(k : Rat) + 1 / 2⌋ = k := Int.floor_eq_iff.2 ⟨by linarith, by linarith⟩
  rw [roundMagnitude, mul_div_cancel_right₀ _ hstep.ne']
  exact congrArg (fun n : Int => (n : Rat) * step) hfloor

theorem roundMagnitude_nonneg (hstep : 0 < step) (h : 0 ≤ r) : 0 ≤ roundMagnitude r step := by
  have hmono := roundMagnitude_mono hstep h
  have hzero := roundMagnitude_mul hstep 0
  rw [Int.cast_zero, zero_mul] at hzero
  rwa [hzero] at hmono

theorem scaleTen_pos (places : Int) : 0 < Decimal.scaleTen 1 (-places) := by
  rw [Decimal.scaleTen_eq, Nat.cast_one, one_mul]
  exact zpow_pos (by norm_num) _

theorem roundHalfUp_mono (places : Int) (h : r ≤ s) :
    roundHalfUp r places ≤ roundHalfUp s places := by
  have hstep := scaleTen_pos places
  unfold roundHalfUp
  by_cases hr : r < 0
  · rw [if_pos hr]
    by_cases hs : s < 0
    · rw [if_pos hs]
      exact neg_le_neg (roundMagnitude_mono hstep (neg_le_neg h))
    · rw [if_neg hs]
      have hlow := roundMagnitude_nonneg hstep (neg_nonneg.2 hr.le)
      have hhigh := roundMagnitude_nonneg hstep (not_lt.1 hs)
      linarith
  · have hs : ¬ s < 0 := fun hs => hr (h.trans_lt hs)
    rw [if_neg hr, if_neg hs]
    exact roundMagnitude_mono hstep h

theorem roundHalfUp_intCast (i : Int) (places : Nat) : roundHalfUp i places = i := by
  have hstep := scaleTen_pos places
  have hcancel : (10 : Rat) ^ places * Decimal.scaleTen 1 (-places) = 1 := by
    rw [Decimal.scaleTen_eq, Nat.cast_one, one_mul, zpow_neg, zpow_natCast]
    exact mul_inv_cancel₀ (by positivity)
  have hmultiple (k : Int) : roundMagnitude k (Decimal.scaleTen 1 (-places)) = k := by
    have hk : (k : Rat) = (k * 10 ^ places : Int) * Decimal.scaleTen 1 (-places) := by
      push_cast
      rw [mul_assoc, hcancel, mul_one]
    rw [hk, roundMagnitude_mul hstep, ← hk]
  unfold roundHalfUp
  by_cases hi : (i : Rat) < 0
  · rw [if_pos hi, ← Int.cast_neg, hmultiple, Int.cast_neg, neg_neg]
  · rw [if_neg hi, hmultiple]

theorem roundHalfUp_mem_Icc {low high : Int} (places : Nat) (hlow : (low : Rat) ≤ r)
    (hhigh : r ≤ high) : roundHalfUp r places ∈ Set.Icc (low : Rat) high := by
  have hleft := roundHalfUp_mono places hlow
  have hright := roundHalfUp_mono places hhigh
  rw [roundHalfUp_intCast] at hleft hright
  exact ⟨hleft, hright⟩

end Exact

end PullGauge
