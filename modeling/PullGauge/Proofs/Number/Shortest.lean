import Mathlib
import PullGauge.Proofs.Number.Rounding
import PullGauge.Proofs.Number.Words

/-!
# The size of a shortest decimal

The search for the shortest decimal of a double looks at the neighbours of the double on grids whose
step is no larger than the double itself. Whatever it finds is therefore at most twice as large.
-/

namespace PullGauge.Shortest

open Decimal

section Point

theorem pow_le_of_pos {n : Nat} (hn : 0 < n) : 10 ^ (digitCount n - 1) ≤ n := by
  by_contra hless
  rcases Nat.eq_zero_or_pos (digitCount n - 1) with hone | hmore
  · rw [hone] at hless
    omega
  · have := (digitCount_le_iff hmore).2 (not_le.1 hless)
    omega

theorem pow_point_le {r : Rat} (hr : 0 < r) : (10 : Rat) ^ (point r - 1) ≤ r := by
  have hnum : 0 < r.num := Rat.num_pos.2 hr
  have hden : (0 : Rat) < r.den := Nat.cast_pos.2 r.den_pos
  have hvalue : r = (r.num.natAbs : Rat) / r.den := by
    rw [Nat.cast_natAbs, abs_of_pos hnum, Rat.num_div_den]
  unfold point
  dsimp only
  split_ifs with hwhole
  · have hpos := digitCount_pos (r.num.natAbs / r.den)
    have hdigits := pow_le_of_pos (Nat.div_pos hwhole r.den_pos)
    rw [show (digitCount (r.num.natAbs / r.den) : Int) - 1 =
      (digitCount (r.num.natAbs / r.den) - 1 : Nat) by omega, zpow_natCast]
    calc (10 : Rat) ^ (digitCount (r.num.natAbs / r.den) - 1)
      _ ≤ (r.num.natAbs / r.den : Nat) := by exact_mod_cast hdigits
      _ ≤ (r.num.natAbs : Rat) / r.den := Nat.cast_div_le
      _ = r := hvalue.symm
  · have hdigits := lt_pow_digitCount ((r.den - 1) / r.num.natAbs)
    rw [Nat.div_lt_iff_lt_mul (by omega)] at hdigits
    have hbelow : r.den ≤ 10 ^ digitCount ((r.den - 1) / r.num.natAbs) * r.num.natAbs := by omega
    rw [show 1 - (digitCount ((r.den - 1) / r.num.natAbs) : Int) - 1 =
      -(digitCount ((r.den - 1) / r.num.natAbs) : Int) by ring, zpow_neg, zpow_natCast]
    refine le_of_le_of_eq ?_ hvalue.symm
    rw [le_div_iff₀ hden, inv_mul_le_iff₀ (by positivity)]
    exact_mod_cast hbelow

end Point

section Search

theorem scaleTen_le_of_floor {r : Rat} {c : Nat} {e : Int} (hr : 0 ≤ r)
    (hc : c ≤ (r / scaleTen 1 e).floor.toNat + 1) : scaleTen c e ≤ r + 10 ^ e := by
  rw [scaleTen_one] at hc
  rw [scaleTen_eq]
  have hnonneg : 0 ≤ r / 10 ^ e := by positivity
  have hfloor : ((⌊r / 10 ^ e⌋.toNat : Int) : Rat) ≤ r / 10 ^ e := by
    rw [Int.toNat_of_nonneg (Int.floor_nonneg.2 hnonneg)]
    exact Int.floor_le _
  have hcast : (c : Rat) ≤ r / 10 ^ e + 1 := by
    refine le_trans (Nat.cast_le.2 hc) ?_
    rw [Nat.cast_add, Nat.cast_one]
    exact add_le_add_left hfloor 1
  calc (c : Rat) * 10 ^ e ≤ (r / 10 ^ e + 1) * 10 ^ e := by gcongr
    _ = r + 10 ^ e := by field_simp

theorem onGrid?_le {i : Interval} {e : Int} {c : Nat} (h : onGrid? i e = some c) :
    c ≤ (i.centre / scaleTen 1 e).floor.toNat + 1 := by
  unfold onGrid? at h
  extract_lets down up low high left right at h
  have hup : up = down + 1 := rfl
  change c ≤ down + 1
  split at h
  · cases h
  · injection h with h
    omega
  · injection h with h
    omega
  · split_ifs at h <;> injection h with h <;> omega

theorem search_spec (i : Interval) (p : Int) (fuel n : Nat) :
    (search i p fuel n).2 ≤ p - n ∧
      (search i p fuel n).1 ≤ (i.centre / scaleTen 1 (search i p fuel n).2).floor.toNat + 1 := by
  induction fuel generalizing n with
  | zero => exact ⟨le_rfl, Nat.le_succ _⟩
  | succ fuel ih =>
    rw [search]
    cases hgrid : onGrid? i (p - n) with
    | some c => exact ⟨le_rfl, onGrid?_le hgrid⟩
    | none =>
      obtain ⟨hstep, hbound⟩ := ih (n + 1)
      exact ⟨hstep.trans (by omega), hbound⟩

theorem scaleTen_stripZeros (fuel c : Nat) (e : Int) :
    scaleTen (stripZeros fuel c e).1 (stripZeros fuel c e).2 = scaleTen c e := by
  induction fuel generalizing c e with
  | zero => rfl
  | succ fuel ih =>
    rw [stripZeros]
    split_ifs with hzero
    · have hten : c / 10 * 10 ^ 1 = c := by omega
      have hmove := scaleTen_add (c / 10) 1 e
      rw [ih, ← Nat.cast_one, hmove, hten]
    · rfl

end Search

section Doubles

theorem scaleTwo_eq (m : Nat) (e : Int) : Binary64.scaleTwo m e = m * 2 ^ e := by
  cases e with
  | ofNat k => simp [Binary64.scaleTwo]
  | negSucc k => simp [Binary64.scaleTwo, Rat.mkRat_eq_div, zpow_negSucc, div_eq_mul_inv]

variable (x : Float)

theorem centre_eq : (interval x).centre =
    (Binary64.parts x).mantissa * 2 ^ (Binary64.parts x).exponent := by
  have hquarters : (interval x).centre = Binary64.scaleTwo (4 * (Binary64.parts x).mantissa)
      ((Binary64.parts x).exponent - 2) := rfl
  rw [hquarters, scaleTwo_eq, zpow_sub₀ (by norm_num)]
  push_cast
  ring

theorem centre_pos (h : Binary64.magnitude x ≠ 0) : 0 < (interval x).centre := by
  have hmantissa : 0 < (Binary64.parts x).mantissa := by
    by_cases hfield : Binary64.magnitude x / 2 ^ 52 = 0
    · rw [Binary64.parts_of_subnormal hfield]
      dsimp only
      omega
    · rw [Binary64.parts_of_normal hfield]
      exact Nat.add_pos_right _ (by positivity)
  rw [centre_eq]
  positivity

theorem abs_value_decimal_le : |(decimal x).value| ≤
    2 * ((Binary64.parts x).mantissa * 2 ^ (Binary64.parts x).exponent) := by
  rw [abs_value]
  unfold decimal
  split_ifs with hzero
  · rw [scaleTen_eq, Nat.cast_zero, zero_mul]
    positivity
  · dsimp only
    rw [scaleTen_stripZeros, ← centre_eq]
    obtain ⟨hgrid, hbound⟩ := search_spec (interval x) (point (interval x).centre) 17 1
    have hpos := centre_pos x hzero
    have hstep : (10 : Rat) ^ (search (interval x) (point (interval x).centre) 17 1).2 ≤
        (interval x).centre :=
      (zpow_le_zpow_right₀ (by norm_num) hgrid).trans (pow_point_le hpos)
    have hvalue := scaleTen_le_of_floor hpos.le hbound
    linarith

end Doubles

end PullGauge.Shortest
