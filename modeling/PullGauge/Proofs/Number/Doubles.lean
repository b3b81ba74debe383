import Mathlib
import PullGauge.Metrics.Statistics
import PullGauge.Proofs.Number.Words

/-!
# Doubles in order

Doubles that are numbers are compared as ranks are: first by the kind, then by the exponent and the
mantissa, both with the sign. Two of them that have the same rank are the same double, unless they
are the two zeros. A quotient of doubles that is far enough from zero is a number other than zero,
so the hours of a number of microseconds, which are such quotients, are told apart by their ranks.
-/

namespace PullGauge.Binary64

open Float.Model Float.Model.UnpackedFloat

def rankOf : UnpackedFloat → Int ×ₗ Int ×ₗ Int
  | .infinity .negative => toLex (-2, toLex (0, 0))
  | .finite .negative m e _ => toLex (-1, toLex (-e, -m))
  | .zero _ | .notANumber => toLex (0, toLex (0, 0))
  | .finite .positive m e _ => toLex (1, toLex (e, m))
  | .infinity .positive => toLex (2, toLex (0, 0))

structure IsProper (u : UnpackedFloat) : Prop where
  isNumber : u ≠ .notANumber
  notNegativeZero : u ≠ .zero .negative

section Unpacked

variable {u v : UnpackedFloat}

theorem then_eq_lt_iff (e f : Int) (m n : Nat) :
    (compare e f).then (compare m n) = .lt ↔ e < f ∨ e = f ∧ m < n := by
  rw [Ordering.then_eq_lt, compare_lt_iff_lt, compare_eq_iff_eq, compare_lt_iff_lt]

theorem then_eq_gt_iff (e f : Int) (m n : Nat) :
    (compare e f).then (compare m n) = .gt ↔ f < e ∨ e = f ∧ n < m := by
  rw [Ordering.then_eq_gt, compare_gt_iff_gt, compare_eq_iff_eq, compare_gt_iff_gt]

theorem lt_iff_rankOf (hu : u ≠ .notANumber) (hv : v ≠ .notANumber) :
    u.lt v = true ↔ rankOf u < rankOf v := by
  have hsign : compare Sign.negative Sign.positive = .lt := rfl
  rcases u with ⟨_ | _⟩ | _ | ⟨_ | _⟩ | ⟨_ | _, m, e, _⟩ <;>
  rcases v with ⟨_ | _⟩ | _ | ⟨_ | _⟩ | ⟨_ | _, n, f, _⟩ <;>
  simp [UnpackedFloat.lt, UnpackedFloat.compare, rankOf, Prod.Lex.lt_iff, then_eq_lt_iff,
    then_eq_gt_iff, hsign] at hu hv ⊢

theorem eq_of_rankOf (hu : IsProper u) (hv : IsProper v) (h : rankOf u = rankOf v) : u = v := by
  obtain ⟨hu, hu'⟩ := hu
  obtain ⟨hv, hv'⟩ := hv
  rcases u with ⟨_ | _⟩ | _ | ⟨_ | _⟩ | ⟨_ | _, m, e, _⟩ <;>
  rcases v with ⟨_ | _⟩ | _ | ⟨_ | _⟩ | ⟨_ | _, n, f, _⟩ <;>
  simp [rankOf, and_comm] at hu hv hu' hv' h ⊢ <;>
  exact h

end Unpacked

section Order

variable {x y : Float}

def rank (x : Float) : Int ×ₗ Int ×ₗ Int := rankOf x.toModel.unpack

theorem less_iff_rank (hx : IsProper x.toModel.unpack) (hy : IsProper y.toModel.unpack) :
    Scalar.less x y = true ↔ rank x < rank y := by
  have hless : Scalar.less x y = decide (x < y) := rfl
  rw [rank, rank, ← lt_iff_rankOf hx.isNumber hy.isNumber, hless, decide_eq_true_iff]
  exact decide_eq_true_iff

theorem eq_of_rank (hx : IsProper x.toModel.unpack) (hy : IsProper y.toModel.unpack)
    (h : rank x = rank y) : x = y := by
  have hbits := (unpack_inj_of_valid x.toModel.valid y.toModel.valid).1 (eq_of_rankOf hx hy h)
  exact Float.toBits_inj.1 (UInt64.toBitVec_inj.1 hbits)

end Order

section Rounding

theorem mantissa_shiftRight (em : ExtendedMantissa) (k : Nat) :
    (em >>> k).mantissa = em.mantissa / 2 ^ k := by
  induction k with
  | zero => exact (Nat.div_one _).symm
  | succ k ih =>
    change (em >>> k).mantissa / 2 = _
    rw [ih, Nat.div_div_eq_div_mul, pow_succ]

theorem mantissa_ofMantissaAndAccuracy (m : Nat) (accuracy : Accuracy) :
    (ExtendedMantissa.ofMantissaAndAccuracy m accuracy).mantissa = m := by
  rcases accuracy with _ | ⟨_ | _ | _⟩ <;> rfl

theorem mantissa_le_roundedMantissa (em : ExtendedMantissa) : em.mantissa ≤ em.roundedMantissa := by
  rcases em with ⟨m, _ | _, _ | _⟩
  · exact le_rfl
  · exact le_rfl
  · exact Nat.le_add_right m _
  · exact Nat.le_add_right m 1

theorem targetExponent_eq (m : Nat) (e : Int) :
    Format.binary64.targetExponent (totalExponent m e) = max (m.log2 + e - 52) (-1074) := by
  have hmin : Format.binary64.minExponent = -1074 := rfl
  have hbits : (Format.binary64.mantissaBits : Int) = 53 := rfl
  rw [Format.targetExponent, totalExponent, hmin, hbits]
  omega

theorem bounds_of_shiftToTargetExponent {m : Nat} {e : Int} (hm : 0 < m) (he : -1074 ≤ e)
    (accuracy : Accuracy) {em : ExtendedMantissa} {e' : Int}
    (h : shiftToTargetExponent Format.binary64 m e accuracy = (em, e')) :
    0 < em.mantissa ∧ em.mantissa < 2 ^ 53 ∧ -1074 ≤ e' := by
  rw [shiftToTargetExponent, targetExponent_eq, shiftToExponent] at h
  obtain ⟨rfl, rfl⟩ := Prod.mk.inj h
  rw [mantissa_shiftRight, mantissa_ofMantissaAndAccuracy]
  have hlow := Nat.log2_self_le hm.ne'
  have hhigh := @Nat.lt_log2_self m
  generalize m.log2 = digits at *
  have hleast : (max ((digits : Int) + e - 52) (-1074) - e).toNat ≤ digits := by omega
  have hmost : digits + 1 ≤ 53 + (max ((digits : Int) + e - 52) (-1074) - e).toNat := by omega
  generalize (max ((digits : Int) + e - 52) (-1074) - e).toNat = shift at *
  refine ⟨Nat.div_pos ((Nat.pow_le_pow_right two_pos hleast).trans hlow) (by positivity), ?_,
    by omega⟩
  rw [Nat.div_lt_iff_lt_mul (by positivity), ← pow_add]
  exact hhigh.trans_le (Nat.pow_le_pow_right two_pos hmost)

theorem exists_roundWithAccuracy {m : Nat} {e : Int} (hm : 0 < m) (he : -1074 ≤ e) (sign : Sign)
    (accuracy : Accuracy) : ∃ (m' : Nat) (e' : Int) (hm' : 0 < m'),
      roundWithAccuracy Format.binary64 sign m e accuracy = .finite sign m' e' hm' ∧
      m' < 2 ^ 53 ∧ -1074 ≤ e' := by
  unfold roundWithAccuracy
  cases hfirst : shiftToTargetExponent Format.binary64 m e accuracy with
  | mk em e₁ =>
    obtain ⟨hpos, -, he₁⟩ := bounds_of_shiftToTargetExponent hm he accuracy hfirst
    have hrounded := hpos.trans_le (mantissa_le_roundedMantissa em)
    dsimp only
    cases hsecond : shiftToTargetExponent Format.binary64 em.roundedMantissa e₁ .exact with
    | mk em' e₂ =>
      obtain ⟨hpos', hlt, he₂⟩ := bounds_of_shiftToTargetExponent hrounded he₁ .exact hsecond
      dsimp only
      rw [dif_neg hpos'.ne']
      exact ⟨_, _, hpos', rfl, hlt, he₂⟩

theorem exists_pack_eq {m : Nat} {e : Int} (hm : 0 < m) (hlt : m < 2 ^ 53) (he : -1074 ≤ e)
    (sign : Sign) : ∃ (exponent : BitVec 11) (mantissa : BitVec 52),
      UnpackedFloat.pack Format.binary64 (.finite sign m e hm) =
        packComponents Format.binary64 sign exponent mantissa ∧
      (exponent = -1 → mantissa = 0) ∧ (exponent = 0 → mantissa ≠ 0) := by
  have hbias : (Format.binary64.exponentBias : Int) = 1023 := rfl
  unfold UnpackedFloat.pack
  extract_lets digits biased
  have hbiased : biased = (e + 1023 + 52).toNat := rfl
  split_ifs with hbig hnormal
  · exact ⟨_, _, rfl, fun _ => rfl, nofun⟩
  · have hfits : biased + 1 < 2 ^ 11 := not_le.1 hbig
    have hvalue : (BitVec.ofNat 11 biased).toNat = biased :=
      Nat.mod_eq_of_lt (by omega)
    refine ⟨_, _, rfl, fun hones => ?_, fun hzero => ?_⟩
    · rw [hones] at hvalue
      change 2 ^ 11 - 1 = biased at hvalue
      omega
    · rw [hzero] at hvalue
      change 0 = biased at hvalue
      omega
  · have hlog : m.log2 < 53 := (Nat.log2_lt hm.ne').2 hlt
    have hleading : m.log2 + 1 ≠ 53 := hnormal
    have hsmall : m < 2 ^ 52 := (Nat.log2_lt hm.ne').1 (by omega)
    refine ⟨_, _, rfl, nofun, fun _ hzero => ?_⟩
    have hvalue : m % 2 ^ 52 = 0 := congrArg BitVec.toNat hzero
    rw [Nat.mod_eq_of_lt hsmall] at hvalue
    exact hm.ne' hvalue

theorem isProper_pack {m : Nat} {e : Int} (hm : 0 < m) (hlt : m < 2 ^ 53) (he : -1074 ≤ e)
    (sign : Sign) : IsProper (Float.Model.pack (.finite sign m e hm)).unpack := by
  obtain ⟨exponent, mantissa, hpack, hones, hzeros⟩ := exists_pack_eq hm hlt he sign
  have hvalid : Format.binary64.Valid (UnpackedFloat.pack Format.binary64 (.finite sign m e hm)) :=
    valid_pack
  constructor
  · refine mt (unpack_eq_notANumber_iff_of_valid hvalid).1 fun hnan => ?_
    rw [hpack, packedNaN] at hnan
    have hexponent := congrArg unpackExponent hnan
    have hmantissa := congrArg unpackMantissa hnan
    rw [unpackExponent_packComponents, unpackExponent_packComponents] at hexponent
    rw [unpackMantissa_packComponents, unpackMantissa_packComponents, hones hexponent] at hmantissa
    revert hmantissa
    decide
  · refine mt (unpack_eq_zero_iff_of_valid hvalid).1 fun hzero => ?_
    rw [hpack, packedZero] at hzero
    have hexponent := congrArg unpackExponent hzero
    have hmantissa := congrArg unpackMantissa hzero
    rw [unpackExponent_packComponents, unpackExponent_packComponents] at hexponent
    rw [unpackMantissa_packComponents, unpackMantissa_packComponents] at hmantissa
    exact hzeros hexponent hmantissa

end Rounding

section Quotients

theorem isProper_div {x y : Float} {s t : Sign} {m n : Nat} {e f : Int} {hm : 0 < m} {hn : 0 < n}
    (hx : x.toModel.unpack = .finite s m e hm) (hy : y.toModel.unpack = .finite t n f hn)
    (hlog : m.log2 = 52) (hlog' : n.log2 = 52) (he : -1000 ≤ e - f) :
    IsProper (x / y).toModel.unpack := by
  have htotal : totalExponent m e - totalExponent n f = e - f := by
    rw [totalExponent, totalExponent, hlog, hlog']
    omega
  have htarget : Format.binary64.targetExponent (e - f) = e - f - 53 := by
    have hmin : Format.binary64.minExponent = -1074 := rfl
    have hbits : (Format.binary64.mantissaBits : Int) = 53 := rfl
    rw [Format.targetExponent, hmin, hbits]
    omega
  have hcore : divCore Format.binary64 m e n f =
      (m <<< 53 / n, e - f - 53, accuracyOfFraction (m <<< 53 % n) n) := by
    have hmin : min (e - f) (e - f - 53) = e - f - 53 := by omega
    have hshift : (e - f - (e - f - 53)).toNat = 53 := by omega
    simp only [divCore, htotal, htarget, hmin, hshift]
  have hquotient : 0 < m <<< 53 / n := by
    have hnhigh := @Nat.lt_log2_self n
    rw [hlog'] at hnhigh
    rw [Nat.shiftLeft_eq]
    exact Nat.div_pos (hnhigh.le.trans (Nat.le_mul_of_pos_left _ hm)) hn
  obtain ⟨m', e', hm', hround, hlt, he'⟩ := exists_roundWithAccuracy hquotient
    (e := e - f - 53) (by omega) (s / t) (accuracyOfFraction (m <<< 53 % n) n)
  have hdiv : (x / y).toModel = Float.Model.pack (.finite (s / t) m' e' hm') := by
    change Float.Model.pack (UnpackedFloat.div _ x.toModel.unpack y.toModel.unpack) = _
    rw [hx, hy, UnpackedFloat.div, hcore]
    exact congrArg Float.Model.pack hround
  rw [hdiv]
  exact isProper_pack hm' hlt he' _

theorem exists_unpack_ofWord {word : Nat} (negative : Bool) (hlow : 2 ^ 52 ≤ word)
    (hhigh : word < infinityWord) : ∃ (s : Sign) (m : Nat) (hm : 0 < m),
      (ofWord negative word).toModel.unpack = .finite s m ((word / 2 ^ 52 : Nat) - 1075) hm ∧
      m.log2 = 52 := by
  have hmagnitude := magnitude_ofWord negative hhigh
  have hfield : magnitude (ofWord negative word) / 2 ^ 52 ≠ 0 := by
    rw [hmagnitude]
    omega
  have hfinite : isFinite (ofWord negative word) = true :=
    decide_eq_true (hmagnitude.trans_lt hhigh)
  obtain ⟨hnone, -⟩ | ⟨s, hm, hunpack⟩ := unpack_of_isFinite hfinite
  · rw [parts_of_normal hfield] at hnone
    exact absurd hnone (Nat.succ_ne_zero _)
  · have hparts := parts_of_normal hfield
    rw [hmagnitude] at hparts
    simp only [hparts] at hunpack
    refine ⟨s, _, _, hunpack, ?_⟩
    rw [Nat.log2_eq_iff (by omega)]
    omega

theorem unpack_hourSeconds : (Scalar.whole 3600 : Float).toModel.unpack =
    .finite .positive (3600 * 2 ^ 41) (-41) (by decide) := by
  rfl

theorem isProper_of_hoursOf {micros : Int} {x : Float} (h : hoursOf micros = .ok x) :
    IsProper x.toModel.unpack := by
  rw [hoursOf] at h
  cases hseconds : (Scalar.quotient? micros Calendar.secondMicros : Option Float) with
  | none =>
    rw [hseconds] at h
    cases h
  | some seconds =>
    rw [hseconds] at h
    obtain rfl := Except.ok.inj h
    by_cases hzero : micros = 0
    · subst hzero
      have hpositive : (seconds / Scalar.whole 3600).toModel.unpack = .zero .positive := by
        obtain rfl := Option.some.inj hseconds
        rfl
      rw [hpositive]
      exact ⟨nofun, nofun⟩
    · change nearest? _ _ _ = _ at hseconds
      rw [nearest?] at hseconds
      split_ifs at hseconds with hfinite
      obtain rfl := Option.some.inj hseconds
      have hsmall : (Calendar.secondMicros : Int).natAbs ≤ micros.natAbs * 2 ^ 20 :=
        (by decide : _ ≤ 2 ^ 20).trans
          (Nat.le_mul_of_pos_left _ (Int.natAbs_pos.2 hzero))
      have hlow := le_nearestWord (Int.natAbs_ne_zero.2 hzero) (by decide) hsmall
      obtain ⟨s, m, hm, hunpack, hlog⟩ := exists_unpack_ofWord _ (by omega) hfinite
      exact isProper_div hunpack unpack_hourSeconds hlog (by decide) (by omega)

end Quotients

end PullGauge.Binary64
