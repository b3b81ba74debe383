import Mathlib
import PullGauge.Proofs.Number.Rational

/-!
# Rounding to the nearest multiple

What a rounding comes to is told without an algorithm: a multiple of the step that no other one is
nearer than, and of two that are as near the one away from zero. There is at most one such multiple,
it moves with the number that is rounded, changes its sign with it, and is the number itself if that
is a multiple already. The rounding of rationals finds it, and so does that of decimals, which is
refused if the result has too many digits.
-/

namespace PullGauge

/-- The multiple of a step that is nearest to a rational; of two that are as near, the one away from
zero. -/
structure IsRounding (step x q : Rat) : Prop where
  multiple : ∃ k : Int, q = k * step
  near : |q - x| ≤ step / 2
  away : |q - x| = step / 2 → |x| < |q|

namespace IsRounding

variable {step x y q r : Rat}

theorem step_nonneg (h : IsRounding step x q) : 0 ≤ step := by
  have hnear := (abs_nonneg (q - x)).trans h.near
  linarith

theorem nearest (h : IsRounding step x q) (k : Int) : |q - x| ≤ |k * step - x| := by
  obtain ⟨j, rfl⟩ := h.multiple
  have hstep := h.step_nonneg
  have hnear := h.near
  by_cases hjk : j = k
  · rw [hjk]
  · have hone : (1 : Rat) ≤ |((k - j : Int) : Rat)| := by
      rw [← Int.cast_abs]
      exact_mod_cast Int.one_le_abs (sub_ne_zero.2 (Ne.symm hjk))
    have hapart : step ≤ |k * step - j * step| := by
      rw [← sub_mul, abs_mul, abs_of_nonneg hstep, ← Int.cast_sub]
      exact le_mul_of_one_le_left hstep hone
    have hthrough := abs_sub_le (k * step) x (j * step)
    rw [abs_sub_comm x] at hthrough
    linarith

/-- The result moves with the number: two results the wrong way round would lie on both sides of one
number, half a step from it, and then one of them would not be away from zero. -/
theorem mono (h : IsRounding step x q) (h' : IsRounding step y r) (hxy : x ≤ y) : q ≤ r := by
  by_contra hless
  obtain ⟨j, rfl⟩ := h.multiple
  obtain ⟨k, rfl⟩ := h'.multiple
  have hstep := h.step_nonneg
  have hkj : k + 1 ≤ j := by
    by_contra hle
    exact hless (mul_le_mul_of_nonneg_right (Int.cast_le.2 (by omega)) hstep)
  have happart : ((k : Rat) + 1) * step ≤ j * step :=
    mul_le_mul_of_nonneg_right (by exact_mod_cast hkj) hstep
  have hq := (abs_le.1 h.near).2
  have hr := (abs_le.1 h'.near).1
  obtain rfl : x = y := by linarith
  have hupper : (j : Rat) * step - x = step / 2 := by linarith
  have hlower : (k : Rat) * step - x = -(step / 2) := by linarith
  have hhalf : (0 : Rat) ≤ step / 2 := by linarith
  have habove := h.away (by rw [hupper, abs_of_nonneg hhalf])
  have hbelow := h'.away (by rw [hlower, abs_neg, abs_of_nonneg hhalf])
  rcases le_or_gt 0 k with hk | hk
  · have hpos : 0 ≤ (k : Rat) * step := mul_nonneg (Int.cast_nonneg hk) hstep
    rw [abs_of_nonneg hpos, abs_of_nonneg (by linarith)] at hbelow
    linarith
  · have hneg : ((k : Rat) + 1) * step ≤ 0 :=
      mul_nonpos_of_nonpos_of_nonneg (by exact_mod_cast hk) hstep
    rw [abs_of_nonpos (by linarith), abs_of_nonpos (by linarith)] at habove
    linarith

theorem eq (h : IsRounding step x q) (h' : IsRounding step x r) : q = r :=
  le_antisymm (h.mono h' le_rfl) (h'.mono h le_rfl)

theorem neg (h : IsRounding step x q) : IsRounding step (-x) (-q) := by
  have hdist : |-q - -x| = |q - x| := by rw [← abs_neg, neg_sub_neg, neg_sub]
  refine ⟨?_, hdist ▸ h.near, fun htie => ?_⟩
  · obtain ⟨k, rfl⟩ := h.multiple
    exact ⟨-k, by push_cast; ring⟩
  · rw [abs_neg, abs_neg]
    exact h.away (hdist ▸ htie)

theorem zero (hstep : 0 < step) : IsRounding step 0 0 where
  multiple := ⟨0, by rw [Int.cast_zero, zero_mul]⟩
  near := by
    rw [sub_zero, abs_zero]
    linarith
  away h := by
    rw [sub_zero, abs_zero] at h
    linarith

theorem eq_of_multiple (h : IsRounding step x q) (hx : ∃ k : Int, x = k * step) : q = x := by
  obtain ⟨k, hk⟩ := hx
  have hnearest := h.nearest k
  rw [← hk, sub_self, abs_zero] at hnearest
  exact sub_eq_zero.1 (abs_eq_zero.1 (le_antisymm hnearest (abs_nonneg _)))

end IsRounding

namespace Exact

variable {r step : Rat}

theorem isRounding_roundMagnitude (hstep : 0 < step) (hr : 0 ≤ r) :
    IsRounding step r (roundMagnitude r step) := by
  have hlow : (⌊r / step + 1 / 2⌋ : Rat) ≤ r / step + 1 / 2 := Int.floor_le _
  have hhigh : r / step + 1 / 2 < (⌊r / step + 1 / 2⌋ : Rat) + 1 := Int.lt_floor_add_one _
  have hcancel : r / step * step = r := div_mul_cancel₀ r hstep.ne'
  have hbelow : roundMagnitude r step ≤ r + step / 2 := by
    have hmul := mul_le_mul_of_nonneg_right hlow hstep.le
    rw [add_mul, hcancel] at hmul
    exact hmul.trans (by linarith)
  have habove : r - step / 2 < roundMagnitude r step := by
    have hmul := mul_lt_mul_of_pos_right hhigh hstep
    rw [add_mul, add_mul, hcancel] at hmul
    have hsame : roundMagnitude r step = (⌊r / step + 1 / 2⌋ : Rat) * step := rfl
    linarith
  refine ⟨⟨_, rfl⟩, abs_le.2 ⟨by linarith, by linarith⟩, fun htie => ?_⟩
  -- a tie is never rounded down
  have hup : roundMagnitude r step - r = step / 2 := by
    rcases abs_eq (by linarith) |>.1 htie with hup | hdown
    · exact hup
    · linarith
  rw [abs_of_nonneg hr, abs_of_nonneg (by linarith)]
  linarith

theorem isRounding_roundHalfUp (x : Rat) (places : Int) :
    IsRounding (Decimal.scaleTen 1 (-places)) x (roundHalfUp x places) := by
  have hstep := scaleTen_pos places
  unfold roundHalfUp
  by_cases hx : x < 0
  · have hrounding := isRounding_roundMagnitude hstep (neg_nonneg.2 hx.le)
    rw [if_pos hx]
    simpa only [neg_neg] using hrounding.neg
  · rw [if_neg hx]
    exact isRounding_roundMagnitude hstep (not_lt.1 hx)

theorem roundHalfUp_neg (x : Rat) (places : Int) :
    roundHalfUp (-x) places = -roundHalfUp x places :=
  (isRounding_roundHalfUp (-x) places).eq (isRounding_roundHalfUp x places).neg

theorem roundHalfUp_of_multiple {x : Rat} {places : Int}
    (hx : ∃ k : Int, x = k * Decimal.scaleTen 1 (-places)) : roundHalfUp x places = x :=
  (isRounding_roundHalfUp x places).eq_of_multiple hx

end Exact

namespace Decimal

variable {d : Decimal} {places : Int}

theorem scaleTen_nonneg (n : Nat) (e : Int) : 0 ≤ scaleTen n e := by
  rw [scaleTen_eq]
  positivity

theorem abs_value (d : Decimal) : |d.value| = scaleTen d.coefficient d.exponent := by
  have hnonneg := scaleTen_nonneg d.coefficient d.exponent
  unfold value
  split_ifs
  · rw [abs_neg, abs_of_nonneg hnonneg]
  · rw [abs_of_nonneg hnonneg]

theorem roundHalf_eq_floor (num den : Nat) (hden : den ≠ 0) :
    (roundHalf num den : Int) = ⌊(num : Rat) / den + 1 / 2⌋ := by
  have hden' : (den : Rat) ≠ 0 := Nat.cast_ne_zero.2 hden
  have hsum : (num : Rat) / den + 1 / 2 =
      ((2 * num + den : Nat) : Rat) / ((2 * den : Nat) : Rat) := by
    push_cast
    field_simp
  rw [hsum, Rat.floor_natCast_div_natCast, roundHalf, Int.natCast_div]

theorem scaleTen_one (e : Int) : scaleTen 1 e = 10 ^ e := by
  rw [scaleTen_eq, Nat.cast_one, one_mul]

theorem scaleTen_add (n k : Nat) (e : Int) : scaleTen n (e + k) = scaleTen (n * 10 ^ k) e := by
  rw [scaleTen_eq, scaleTen_eq, zpow_add₀ (by norm_num), zpow_natCast]
  push_cast
  ring

theorem coefficientAt_of_le {e : Int} (h : e ≤ d.exponent) :
    d.coefficientAt e = d.coefficient * 10 ^ (d.exponent - e).toNat := by
  obtain ⟨k, hk⟩ := Int.eq_ofNat_of_zero_le (sub_nonneg.2 h)
  rw [coefficientAt, hk]
  rfl

theorem coefficientAt_of_lt {e : Int} (h : d.exponent < e) :
    d.coefficientAt e = roundHalf d.coefficient (10 ^ (e - d.exponent).toNat) := by
  obtain ⟨k, hk⟩ : ∃ k : Nat, d.exponent - e = Int.negSucc k :=
    Int.eq_negSucc_of_lt_zero (sub_neg.2 h)
  have hshift : (e - d.exponent).toNat = k + 1 := by omega
  rw [coefficientAt, hk, hshift]
  rfl

theorem scaleTen_coefficientAt (d : Decimal) (e : Int) : scaleTen (d.coefficientAt e) e =
    Exact.roundMagnitude (scaleTen d.coefficient d.exponent) (scaleTen 1 e) := by
  have hpos : 0 < scaleTen 1 e := by
    rw [scaleTen_one]
    positivity
  have hmultiple (n : Nat) : scaleTen n e = (n : Int) * scaleTen 1 e := by
    rw [scaleTen_one, scaleTen_eq, Int.cast_natCast]
  rcases le_or_gt e d.exponent with hpad | hdrop
  · have hscale := scaleTen_add d.coefficient (d.exponent - e).toNat e
    rw [Int.toNat_sub_of_le hpad, add_sub_cancel] at hscale
    rw [coefficientAt_of_le hpad, hscale, hmultiple, Exact.roundMagnitude_mul hpos]
  · have hquotient : scaleTen d.coefficient d.exponent / scaleTen 1 e =
        (d.coefficient : Rat) / (10 ^ (e - d.exponent).toNat : Nat) := by
      have hsplit : e = d.exponent + (e - d.exponent).toNat := by omega
      rw [scaleTen_eq, scaleTen_one, hsplit, zpow_add₀ (by norm_num), zpow_natCast, ← hsplit]
      push_cast
      field_simp
    have hfloor := roundHalf_eq_floor d.coefficient (10 ^ (e - d.exponent).toNat) (by positivity)
    rw [coefficientAt_of_lt hdrop, Exact.roundMagnitude, hquotient, hmultiple, hfloor]
    rfl

def atPlaces (d : Decimal) (places : Int) : Decimal :=
  ⟨d.negative, d.coefficientAt (-places), -places⟩

theorem isRounding_atPlaces (d : Decimal) (places : Int) :
    IsRounding (scaleTen 1 (-places)) d.value (d.atPlaces places).value := by
  have hmagnitude := Exact.isRounding_roundMagnitude (Exact.scaleTen_pos places)
    (scaleTen_nonneg d.coefficient d.exponent)
  rw [← scaleTen_coefficientAt] at hmagnitude
  cases hsign : d.negative with
  | false => simpa [value, atPlaces, hsign] using hmagnitude
  | true => simpa [value, atPlaces, hsign] using hmagnitude.neg

theorem value_atPlaces (d : Decimal) (places : Int) :
    (d.atPlaces places).value = Exact.roundHalfUp d.value places :=
  (isRounding_atPlaces d places).eq (Exact.isRounding_roundHalfUp d.value places)

theorem coefficientAt_eq (d : Decimal) (places : Int) : (d.coefficientAt (-places) : Rat) =
    |Exact.roundHalfUp d.value places| * 10 ^ places := by
  rw [← value_atPlaces, abs_value]
  change _ = scaleTen (d.coefficientAt (-places)) (-places) * 10 ^ places
  rw [scaleTen_eq, zpow_neg, inv_mul_cancel_right₀ (by positivity)]

theorem atPlaces_congr {d' : Decimal} (hsign : d.negative = d'.negative)
    (hvalue : d.value = d'.value) (places : Int) : d.atPlaces places = d'.atPlaces places := by
  have hcoefficient : d.coefficientAt (-places) = d'.coefficientAt (-places) := by
    have heq := coefficientAt_eq d places
    rw [hvalue, ← coefficientAt_eq] at heq
    exact_mod_cast heq
  rw [atPlaces, atPlaces, hsign, hcoefficient]

theorem coefficientAt_eq_zero {e : Int} (h : 2 * d.coefficient < 10 ^ (e - d.exponent).toNat)
    (hdrop : d.exponent < e) : d.coefficientAt e = 0 := by
  rw [coefficientAt_of_lt hdrop, roundHalf]
  exact Nat.div_eq_of_lt (by omega)

theorem digitCount_pos (n : Nat) : 0 < digitCount n := List.length_pos_iff.2 Nat.toDigits_ne_nil

theorem lt_pow_digitCount (n : Nat) : n < 10 ^ digitCount n :=
  (digitCount_le_iff (digitCount_pos n)).1 le_rfl

theorem round?_eq (h : allowsPlaces places = true) : d.round? places =
    if d.coefficientAt (-places) < 10 ^ precision then some (d.atPlaces places) else none := by
  have hnone (hzero : d.coefficientAt (-places) = 0) : some ⟨d.negative, 0, -places⟩ =
      if d.coefficientAt (-places) < 10 ^ precision then some (d.atPlaces places) else none := by
    rw [if_pos (by rw [hzero]; positivity), atPlaces, hzero]
  unfold round?
  dsimp only
  rw [if_neg (by simp [h])]
  by_cases hzero : d.coefficient = 0
  · rw [if_pos hzero]
    refine hnone ?_
    rcases le_or_gt (-places) d.exponent with hle | hlt
    · rw [coefficientAt_of_le hle, hzero, Nat.zero_mul]
    · exact coefficientAt_eq_zero (by rw [hzero]; positivity) hlt
  rw [if_neg hzero]
  by_cases hpad : d.exponent + places > precision
  · have hlong : 10 ^ precision ≤ d.coefficientAt (-places) := by
      rw [coefficientAt_of_le (by omega)]
      exact (Nat.pow_le_pow_right (by decide) (by omega)).trans
        (Nat.le_mul_of_pos_left _ (Nat.pos_of_ne_zero hzero))
    rw [if_pos hpad, if_neg hlong.not_gt]
  rw [if_neg hpad]
  by_cases hdrop : d.exponent + places + digitCount d.coefficient < 0
  · rw [if_pos hdrop]
    refine hnone (coefficientAt_eq_zero ?_ (by omega))
    have hdigits := lt_pow_digitCount d.coefficient
    have hpow : 10 ^ (digitCount d.coefficient + 1) ≤ 10 ^ (-places - d.exponent).toNat :=
      Nat.pow_le_pow_right (by decide) (by omega)
    rw [pow_succ] at hpow
    omega
  rw [if_neg hdrop]
  simp only [digitCount_le_iff (by decide : 0 < precision)]
  rfl

theorem round_congr {d d' : Decimal} (hsign : d.negative = d'.negative)
    (hvalue : d.value = d'.value) (places : Int) : d.round places = d'.round places := by
  have hatPlaces := atPlaces_congr hsign hvalue places
  have hcoefficient : d.coefficientAt (-places) = d'.coefficientAt (-places) :=
    congrArg coefficient hatPlaces
  have hround : d.round? places = d'.round? places := by
    cases hallowed : allowsPlaces places with
    | true => rw [round?_eq hallowed, round?_eq hallowed, hatPlaces, hcoefficient]
    | false => simp [round?, hallowed]
  rw [round, round, hround]

theorem allowsPlaces_natCast (places : Nat) :
    allowsPlaces places = decide (places ≤ placesLimit) := by
  have hlow : -(exponentLimit : Int) ≤ places := by omega
  simp [allowsPlaces, hlow]

theorem round_eq (d : Decimal) (places : Nat) : d.round places =
    if places ≤ placesLimit ∧ |Exact.roundHalfUp d.value places| * 10 ^ places < 10 ^ precision then
      .ok (d.atPlaces places)
    else .error .tooPrecise := by
  have hfits : |Exact.roundHalfUp d.value places| * 10 ^ places < 10 ^ precision ↔
      d.coefficientAt (-places) < 10 ^ precision := by
    rw [← zpow_natCast, ← coefficientAt_eq]
    exact_mod_cast Iff.rfl
  simp only [round, hfits]
  by_cases hplaces : places ≤ placesLimit
  · rw [round?_eq (by rw [allowsPlaces_natCast, decide_eq_true hplaces])]
    by_cases hdigits : d.coefficientAt (-places) < 10 ^ precision
    · rw [if_pos hdigits, if_pos ⟨hplaces, hdigits⟩]
    · rw [if_neg hdigits, if_neg fun h => hdigits h.2]
  · have hnone : d.round? places = none := by
      rw [round?, allowsPlaces_natCast, decide_eq_false hplaces]
      rfl
    rw [hnone, if_neg fun h => hplaces h.1]

theorem value_ofInt (i : Int) : (ofInt i).value = i := by
  have hmagnitude : scaleTen (ofInt i).coefficient (ofInt i).exponent = |(i : Rat)| := by
    rw [scaleTen_eq]
    simp [ofInt, Nat.cast_natAbs]
  rw [value, hmagnitude]
  by_cases hi : i < 0
  · have hsign : (ofInt i).negative = true := decide_eq_true hi
    rw [if_pos hsign, abs_of_neg (Int.cast_lt_zero.2 hi), neg_neg]
  · have hsign : (ofInt i).negative = false := decide_eq_false hi
    rw [if_neg (by simp [hsign]), abs_of_nonneg (Int.cast_nonneg (not_lt.1 hi))]

end Decimal

theorem Number.roundHalfUp_eq {n : Number Rat} {places : Nat}
    (hplaces : places ≤ Decimal.placesLimit)
    (h : |n.exact| * 10 ^ places < 10 ^ Decimal.precision) :
    n.roundHalfUp places = .ok (Exact.roundHalfUp n.exact places) := by
  cases n with
  | real x => rfl
  | int i =>
    have hround := Decimal.round_eq (Decimal.ofInt i) places
    rw [Decimal.value_ofInt, Exact.roundHalfUp_intCast, if_pos ⟨hplaces, h⟩] at hround
    have hvalue := Decimal.value_atPlaces (Decimal.ofInt i) places
    rw [Decimal.value_ofInt] at hvalue
    rw [roundHalfUp, hround, exact_int, ← hvalue]
    rfl

theorem Binary64.isNaN_of_isFinite {x : Float} (hx : isFinite x = true) : isNaN x = false := by
  have hmagnitude := of_decide_eq_true hx
  exact decide_eq_false (by omega)

theorem Binary64.roundHalfUp_of_isFinite {x : Float} (hx : isFinite x = true) (places : Int) :
    roundHalfUp x places = ((Shortest.decimal x).round places).map Decimal.toDouble := by
  rw [roundHalfUp, isNaN_of_isFinite hx, hx]
  rfl

end PullGauge
