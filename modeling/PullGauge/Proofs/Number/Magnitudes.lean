import Mathlib
import PullGauge.Proofs.Number.Doubles
import PullGauge.Proofs.Number.Shortest

/-!
# How large doubles become

Powers of two are doubles, so a result that is below one of them is not rounded beyond it. This
bounds quotients. It bounds sums of any length, too: next to a large power of two what is small
enough is lost, so a sum that has come as far as the power stays there. A double within such a bound
is finite, and its printed decimal can be rounded to one place.
-/

namespace PullGauge.Binary64

open Float.Model Float.Model.UnpackedFloat

def IsUpTo (k : Nat) : UnpackedFloat → Prop
  | .zero _ => True
  | .finite _ m e _ => (m : Rat) * 2 ^ e ≤ 2 ^ k
  | _ => False

variable {u v : UnpackedFloat} {j k l m n : Nat} {e f : Int} {sign : Sign}

theorem IsUpTo.mono (h : IsUpTo j u) (hjk : j ≤ k) : IsUpTo k u := by
  have hpow : (2 : Rat) ^ j ≤ 2 ^ k := pow_le_pow_right₀ (by norm_num) hjk
  cases u with
  | zero s => trivial
  | finite s m e hm => exact le_trans h hpow
  | infinity s => exact h
  | notANumber => exact h

section Powers

theorem zpow_add_log2_le (hm : 0 < m) (e : Int) : (2 : Rat) ^ (m.log2 + e) ≤ m * 2 ^ e := by
  rw [zpow_add₀ (by norm_num)]
  gcongr
  exact zpow_log2_le hm.ne'

theorem add_log2_lt {k : Int} (hm : 0 < m) (h : (m : Rat) * 2 ^ e < 2 ^ k) : m.log2 + e < k :=
  (zpow_lt_zpow_iff_right₀ (by norm_num : (1 : Rat) < 2)).1 ((zpow_add_log2_le hm e).trans_lt h)

theorem add_log2_le (hm : 0 < m) (h : (m : Rat) * 2 ^ e ≤ 2 ^ k) : m.log2 + e ≤ k := by
  rw [← zpow_natCast] at h
  exact (zpow_le_zpow_iff_right₀ (by norm_num : (1 : Rat) < 2)).1 ((zpow_add_log2_le hm e).trans h)

theorem le_add_log2 {k : Int} (h : (2 : Rat) ^ k ≤ m * 2 ^ e) : k ≤ m.log2 + e := by
  have hpower : (2 : Rat) ^ k < 2 ^ ((m.log2 : Int) + 1 + e) := by
    rw [zpow_add₀ (by norm_num)]
    refine h.trans_lt ?_
    gcongr
    exact lt_zpow_log2 m
  have hless := (zpow_lt_zpow_iff_right₀ (by norm_num : (1 : Rat) < 2)).1 hpower
  omega

theorem succ_mul_le {k : Int} (hek : e ≤ k) (h : (m : Rat) * 2 ^ e < 2 ^ k) :
    ((m + 1 : Nat) : Rat) * 2 ^ e ≤ 2 ^ k := by
  have hsplit : (2 : Rat) ^ k = (2 ^ (k - e).toNat : Nat) * 2 ^ e := by
    rw [Nat.cast_pow, Nat.cast_ofNat, ← zpow_natCast, ← zpow_add₀ (by norm_num)]
    congr 1
    omega
  rw [hsplit] at h ⊢
  have hlt := lt_of_mul_lt_mul_right h (by positivity)
  gcongr
  exact_mod_cast hlt

theorem div_mul_le (m shift : Nat) (e : Int) :
    ((m / 2 ^ shift : Nat) : Rat) * 2 ^ (e + shift) ≤ m * 2 ^ e := by
  rw [zpow_add₀ (by norm_num), zpow_natCast, mul_comm ((2 : Rat) ^ e), ← mul_assoc]
  gcongr
  exact_mod_cast Nat.div_mul_le_self m (2 ^ shift)

end Powers

section Rounding

theorem roundedMantissa_le (em : ExtendedMantissa) :
    em.roundedMantissa ≤ em.mantissa + em.roundBit.toNat := by
  rcases em with ⟨m, _ | _, _ | _⟩
  · exact le_rfl
  · exact le_rfl
  · exact Nat.add_le_add_left (Nat.lt_succ_iff.1 (Nat.mod_lt m two_pos)) m
  · exact le_rfl

theorem shiftToTargetExponent_eq (m : Nat) (e : Int) (accuracy : Accuracy) :
    shiftToTargetExponent Format.binary64 m e accuracy =
      (ExtendedMantissa.ofMantissaAndAccuracy m accuracy >>>
        (max (m.log2 + e - 52) (-1074) - e).toNat,
      e + (max (m.log2 + e - 52) (-1074) - e).toNat) := by
  rw [shiftToTargetExponent, targetExponent_eq, shiftToExponent]

theorem isUpTo_of_roundedMantissa {accuracy : Accuracy} {em : ExtendedMantissa}
    (hshift : shiftToTargetExponent Format.binary64 m e accuracy = (em, f))
    (h : (em.roundedMantissa : Rat) * 2 ^ f ≤ 2 ^ k) :
    IsUpTo k (roundWithAccuracy Format.binary64 sign m e accuracy) := by
  unfold roundWithAccuracy
  rw [hshift]
  dsimp only
  rw [shiftToTargetExponent_eq]
  dsimp only
  split_ifs with hzero
  · trivial
  · rw [IsUpTo, mantissa_shiftRight, mantissa_ofMantissaAndAccuracy]
    exact (div_mul_le _ _ _).trans h

theorem isUpTo_roundWithAccuracy (accuracy : Accuracy) (he : e ≤ k)
    (h : (m : Rat) * 2 ^ e < 2 ^ k) :
    IsUpTo k (roundWithAccuracy Format.binary64 sign m e accuracy) := by
  refine isUpTo_of_roundedMantissa (shiftToTargetExponent_eq m e accuracy) ?_
  have hlog : m.log2 + e ≤ k := by
    rcases Nat.eq_zero_or_pos m with rfl | hm
    · simpa using he
    · exact add_log2_le hm h.le
  have hcut := div_mul_le m (max (m.log2 + e - 52) (-1074) - e).toNat e
  have hrounded := roundedMantissa_le (ExtendedMantissa.ofMantissaAndAccuracy m accuracy >>>
    (max (m.log2 + e - 52) (-1074) - e).toNat)
  rw [mantissa_shiftRight, mantissa_ofMantissaAndAccuracy] at hrounded
  have hbelow := succ_mul_le (k := k) (by omega) (hcut.trans_lt (by rwa [zpow_natCast]))
  rw [zpow_natCast] at hbelow
  refine le_trans ?_ hbelow
  gcongr
  exact hrounded.trans (Nat.add_le_add_left (Bool.toNat_le _) _)

theorem roundedMantissa_shift_le (m shift : Nat) :
    2 * (ExtendedMantissa.ofMantissaAndAccuracy m .exact >>> shift).roundedMantissa * 2 ^ shift ≤
      2 * m + 2 ^ shift := by
  cases shift with
  | zero =>
    change 2 * m * 1 ≤ 2 * m + 1
    omega
  | succ shift =>
    have hrounded :=
      roundedMantissa_le (ExtendedMantissa.ofMantissaAndAccuracy m .exact >>> (shift + 1))
    have hbit : (ExtendedMantissa.ofMantissaAndAccuracy m .exact >>> (shift + 1)).roundBit =
        (m / 2 ^ shift % 2 != 0) := by
      rw [← mantissa_ofMantissaAndAccuracy m .exact, ← mantissa_shiftRight]
      rfl
    rw [mantissa_shiftRight, mantissa_ofMantissaAndAccuracy, hbit, pow_succ,
      ← Nat.div_div_eq_div_mul] at hrounded
    have hcut := Nat.div_mul_le_self m (2 ^ shift)
    generalize m / 2 ^ shift = q at *
    generalize (ExtendedMantissa.ofMantissaAndAccuracy m .exact >>> (shift + 1)).roundedMantissa =
      r at *
    have hhalf : 2 * r ≤ q + 1 := by
      rcases Nat.mod_two_eq_zero_or_one q with hq | hq <;> simp [hq] at hrounded <;> omega
    calc 2 * r * 2 ^ (shift + 1) = 2 * (2 * r * 2 ^ shift) := by ring
      _ ≤ 2 * ((q + 1) * 2 ^ shift) := by gcongr
      _ ≤ 2 * m + 2 ^ (shift + 1) := by rw [add_mul, pow_succ]; omega

theorem isUpTo_roundWithAccuracy_exact (hm : 0 < m) (he : e ≤ max (m.log2 + e - 52) (-1074))
    (h : (m : Rat) * 2 ^ e < 2 ^ k + 2 ^ ((k : Int) - 53)) :
    IsUpTo k (roundWithAccuracy Format.binary64 sign m e .exact) := by
  have hlog : m.log2 + e < (k : Int) + 1 := by
    refine add_log2_lt hm (h.trans_le ?_)
    have hstep : (2 : Rat) ^ ((k : Int) - 53) ≤ 2 ^ (k : Int) :=
      zpow_le_zpow_right₀ (by norm_num) (by omega)
    rw [zpow_natCast] at hstep
    rw [zpow_add_one₀ (by norm_num), zpow_natCast]
    linarith
  -- below the power no step leads beyond it; at the power the step is known, and half of it is left
  rcases lt_or_ge (m.log2 + e) k with hless | htop
  · refine isUpTo_roundWithAccuracy .exact (by omega) (not_le.1 fun hle => ?_)
    rw [← zpow_natCast] at hle
    have := le_add_log2 hle
    omega
  · refine isUpTo_of_roundedMantissa (shiftToTargetExponent_eq m e .exact) ?_
    have hrounded := roundedMantissa_shift_le m (max (m.log2 + e - 52) (-1074) - e).toNat
    have htarget : e + (max (m.log2 + e - 52) (-1074) - e).toNat = (k : Int) - 52 := by omega
    generalize (max (m.log2 + e - 52) (-1074) - e).toNat = shift at *
    generalize (ExtendedMantissa.ofMantissaAndAccuracy m .exact >>> shift).roundedMantissa = r at *
    have hscaled : 2 * (r * (2 : Rat) ^ ((k : Int) - 52)) ≤
        2 * (m * 2 ^ e) + 2 ^ ((k : Int) - 52) := by
      have hcast : (2 : Rat) * r * 2 ^ shift ≤ 2 * m + 2 ^ shift := by exact_mod_cast hrounded
      have hmul := mul_le_mul_of_nonneg_right hcast (by positivity : (0 : Rat) ≤ 2 ^ e)
      rw [← htarget, zpow_add₀ (by norm_num), zpow_natCast]
      linarith
    have hhalf : (2 : Rat) ^ ((k : Int) - 52) = 2 * 2 ^ ((k : Int) - 53) := by
      rw [← zpow_one_add₀ (by norm_num)]
      congr 1
      ring
    have hpower : (2 : Rat) ^ k = (2 ^ 52 : Nat) * 2 ^ ((k : Int) - 52) := by
      rw [Nat.cast_pow, Nat.cast_ofNat, ← zpow_natCast, ← zpow_natCast, ← zpow_add₀ (by norm_num)]
      congr 1
      push_cast
      ring
    have hless : (r : Rat) * 2 ^ ((k : Int) - 52) <
        ((2 ^ 52 + 1 : Nat) : Rat) * 2 ^ ((k : Int) - 52) := by
      rw [Nat.cast_add, add_mul, ← hpower, Nat.cast_one]
      linarith
    have hbound := lt_of_mul_lt_mul_right hless (by positivity)
    rw [htarget, hpower]
    gcongr
    exact_mod_cast Nat.lt_succ_iff.1 (Nat.cast_lt.1 hbound)

theorem shiftLeft_mul (m shift : Nat) (e : Int) :
    ((m <<< shift : Nat) : Rat) * 2 ^ (e - shift) = m * 2 ^ e := by
  rw [Nat.shiftLeft_eq, zpow_sub₀ (by norm_num), zpow_natCast, Nat.cast_mul, Nat.cast_pow,
    Nat.cast_ofNat]
  field_simp

theorem isUpTo_round (hm : 0 < m) (h : (m : Rat) * 2 ^ e < 2 ^ k + 2 ^ ((k : Int) - 53)) :
    IsUpTo k (round Format.binary64 sign m e) := by
  unfold UnpackedFloat.round decreaseExponent
  rw [targetExponent_eq]
  dsimp only
  generalize hshift : (e - max (m.log2 + e - 52) (-1074)).toNat = shift
  have hpos : 0 < m <<< shift := by
    rw [Nat.shiftLeft_eq]
    positivity
  have hlog : (m <<< shift).log2 = m.log2 + shift := by
    rw [Nat.log2_eq_iff hpos.ne', Nat.shiftLeft_eq, Nat.add_right_comm, pow_add, pow_add]
    exact ⟨Nat.mul_le_mul_right _ (Nat.log2_self_le hm.ne'),
      Nat.mul_lt_mul_of_pos_right Nat.lt_log2_self (by positivity)⟩
  refine isUpTo_roundWithAccuracy_exact hpos ?_ (by rwa [shiftLeft_mul])
  rw [hlog]
  push_cast
  omega

theorem isUpTo_normalize {i : Int} (h : (i.natAbs : Rat) * 2 ^ e < 2 ^ k + 2 ^ ((k : Int) - 53)) :
    IsUpTo k (UnpackedFloat.normalize Format.binary64 i e sign) := by
  unfold UnpackedFloat.normalize
  rcases lt_trichotomy i 0 with hneg | hzero | hpos
  · rw [compare_lt_iff_lt.2 hneg]
    dsimp only
    refine isUpTo_round (by omega) ?_
    rwa [show (-i).toNat = i.natAbs by omega]
  · rw [compare_eq_iff_eq.2 hzero]
    trivial
  · rw [compare_gt_iff_gt.2 hpos]
    dsimp only
    refine isUpTo_round (by omega) ?_
    rwa [show i.toNat = i.natAbs by omega]

end Rounding

section Operations

theorem natAbs_apply (sign : Sign) (n : Nat) : (sign.apply n).natAbs = n := by
  cases sign with
  | positive => rfl
  | negative => exact Int.natAbs_neg n

theorem IsUpTo.add (hu : IsUpTo k u) (hv : IsUpTo j v) (hjk : j + 54 ≤ k) :
    IsUpTo k (UnpackedFloat.add Format.binary64 u v) := by
  have hv' := hv.mono (by omega : j ≤ k)
  cases u with
  | infinity s => exact hu.elim
  | notANumber => exact hu.elim
  | zero s =>
    cases v with
    | infinity t => exact hv.elim
    | notANumber => exact hv.elim
    | zero t =>
      change IsUpTo k (if s == t then .zero s else .zero .positive)
      split_ifs <;> trivial
    | finite t n f hn => exact hv'
  | finite s m e hm =>
    cases v with
    | infinity t => exact hv.elim
    | notANumber => exact hv.elim
    | zero t => exact hu
    | finite t n f hn =>
      refine isUpTo_normalize ?_
      have hleft := shiftLeft_mul m (e - min e f).toNat e
      have hright := shiftLeft_mul n (f - min e f).toNat f
      rw [show e - (e - min e f).toNat = min e f by omega] at hleft
      rw [show f - (f - min e f).toNat = min e f by omega] at hright
      have hsum := Int.natAbs_add_le (s.apply (m <<< (e - min e f).toNat : Nat))
        (t.apply (n <<< (f - min e f).toNat : Nat))
      rw [natAbs_apply, natAbs_apply] at hsum
      calc _ ≤ ((m <<< (e - min e f).toNat + n <<< (f - min e f).toNat : Nat) : Rat) *
              2 ^ min e f := by
            gcongr
        _ = m * 2 ^ e + n * 2 ^ f := by rw [Nat.cast_add, add_mul, hleft, hright]
        _ ≤ 2 ^ k + 2 ^ j := add_le_add hu hv
        _ < 2 ^ k + 2 ^ ((k : Int) - 53) := by
            rw [← zpow_natCast (2 : Rat) j]
            have hlost : (2 : Rat) ^ (j : Int) < 2 ^ ((k : Int) - 53) :=
              zpow_lt_zpow_right₀ (by norm_num) (by omega)
            linarith

theorem IsUpTo.div {hn : 0 < n} {i : Int} (hu : IsUpTo k u) (hv : (2 : Rat) ^ i ≤ n * 2 ^ f)
    (hless : (k : Int) < j + i) :
    IsUpTo j (UnpackedFloat.div Format.binary64 u (.finite sign n f hn)) := by
  cases u with
  | infinity s => exact hu.elim
  | notANumber => exact hu.elim
  | zero s => trivial
  | finite s m e hm =>
    unfold UnpackedFloat.div divCore
    dsimp only
    have hlog : m.log2 + e ≤ k := add_log2_le hm hu
    have hlog' : i ≤ n.log2 + f := le_add_log2 hv
    have htarget : Format.binary64.targetExponent (totalExponent m e - totalExponent n f) ≤ j := by
      have hmin : Format.binary64.minExponent = -1074 := rfl
      have hbits : (Format.binary64.mantissaBits : Int) = 53 := rfl
      rw [Format.targetExponent, totalExponent, totalExponent, hmin, hbits]
      omega
    generalize Format.binary64.targetExponent (totalExponent m e - totalExponent n f) = t at *
    refine isUpTo_roundWithAccuracy _ (by omega) ?_
    have hshift := shiftLeft_mul m (e - f - min (e - f) t).toNat (e - f)
    rw [show e - f - (e - f - min (e - f) t).toNat = min (e - f) t by omega] at hshift
    generalize m <<< (e - f - min (e - f) t).toNat = shifted at *
    have hquotient : ((shifted / n : Nat) : Rat) * n ≤ shifted := by
      exact_mod_cast Nat.div_mul_le_self shifted n
    refine lt_of_mul_lt_mul_right ?_ (by positivity : (0 : Rat) ≤ n * 2 ^ f)
    calc ((shifted / n : Nat) : Rat) * 2 ^ min (e - f) t * (n * 2 ^ f)
      _ = (shifted / n : Nat) * n * (2 ^ min (e - f) t * 2 ^ f) := by ring
      _ ≤ shifted * (2 ^ min (e - f) t * 2 ^ f) := by gcongr
      _ = m * 2 ^ e := by
        rw [← mul_assoc, hshift, mul_assoc, ← zpow_add₀ (by norm_num), sub_add_cancel]
      _ ≤ 2 ^ k := hu
      _ < 2 ^ j * 2 ^ i := by
        rw [← zpow_natCast, ← zpow_natCast, ← zpow_add₀ (by norm_num)]
        exact zpow_lt_zpow_right₀ (by norm_num) hless
      _ ≤ 2 ^ j * (n * 2 ^ f) := by gcongr

end Operations

section Packing

variable {x : Float}

theorem isUpTo_of_magnitude (hk : k ≤ 1000) (h : magnitude x ≤ (k + 1023) * 2 ^ 52) :
    IsUpTo k x.toModel.unpack := by
  have hinfinity : infinityWord = 2047 * 2 ^ 52 := by decide
  have hfinite : isFinite x = true := decide_eq_true (by omega)
  obtain ⟨-, s, hzero⟩ | ⟨s, hm, hunpack⟩ := unpack_of_isFinite hfinite
  · rw [hzero]
    trivial
  rw [hunpack, IsUpTo, ← zpow_natCast]
  by_cases hfield : magnitude x / 2 ^ 52 = 0
  · rw [parts_of_subnormal hfield] at hm ⊢
    dsimp only at hm ⊢
    refine (not_le.1 fun hle => ?_).le
    have hlog : (magnitude x % 2 ^ 52).log2 < 52 := (Nat.log2_lt hm.ne').2 (by omega)
    have := le_add_log2 hle
    omega
  · rw [parts_of_normal hfield] at hm ⊢
    dsimp only at hm ⊢
    rcases Nat.lt_or_ge (magnitude x / 2 ^ 52) (k + 1023) with hless | htop
    · refine (not_le.1 fun hle => ?_).le
      have hlog : (magnitude x % 2 ^ 52 + 2 ^ 52).log2 < 53 := (Nat.log2_lt hm.ne').2 (by omega)
      have := le_add_log2 hle
      omega
    · have hfraction : magnitude x % 2 ^ 52 + 2 ^ 52 = 2 ^ 52 := by omega
      have hquotient : magnitude x / 2 ^ 52 = k + 1023 := by omega
      rw [hfraction, hquotient, Nat.cast_pow, Nat.cast_ofNat, ← zpow_natCast,
        ← zpow_add₀ (by norm_num)]
      exact zpow_le_zpow_right₀ (by norm_num) (by omega)

theorem toNat_packComponents (s : Sign) (exponent : BitVec 11) (mantissa : BitVec 52) :
    (packComponents Format.binary64 s exponent mantissa).toNat % 2 ^ 63 =
      exponent.toNat * 2 ^ 52 + mantissa.toNat := by
  have hexponent := toNat_unpackExponent (packComponents Format.binary64 s exponent mantissa)
  have hmantissa := toNat_unpackMantissa (packComponents Format.binary64 s exponent mantissa)
  rw [unpackExponent_packComponents] at hexponent
  rw [unpackMantissa_packComponents] at hmantissa
  omega

/-- Packing keeps the bound, also of a number whose mantissa does not have its leading digit: then the
word that it is packed into is only smaller. -/
theorem IsUpTo.pack (hk : k ≤ 900) (h : IsUpTo k u) : IsUpTo k (Float.Model.pack u).unpack := by
  cases u with
  | infinity s => exact h.elim
  | notANumber => exact h.elim
  | zero s => cases s <;> trivial
  | finite s m e hm =>
    refine isUpTo_of_magnitude (x := .ofModel (.pack (.finite s m e hm))) (by omega) ?_
    have hlog : m.log2 + e ≤ k := add_log2_le hm h
    have hbias : (Format.binary64.exponentBias : Int) = 1023 := rfl
    change (UnpackedFloat.pack Format.binary64 (.finite s m e hm)).toNat % signWord ≤ _
    have hsign : signWord = 2 ^ 63 := by decide
    rw [hsign]
    unfold UnpackedFloat.pack
    extract_lets digits biased
    have hbiased : biased = (e + 1023 + 52).toNat := rfl
    split_ifs with hbig hnormal
    · change 2 ^ 11 ≤ biased + 1 at hbig
      omega
    · have hfits : biased + 1 < 2 ^ 11 := not_le.1 hbig
      have hdigits : m.log2 + 1 = 53 := hnormal
      have hvalue : (BitVec.ofNat 11 biased).toNat = biased := Nat.mod_eq_of_lt (by omega)
      have hfraction : (BitVec.ofNat 52 m).toNat = m % 2 ^ 52 := rfl
      rw [toNat_packComponents, hvalue, hfraction]
      rcases Nat.lt_or_ge biased (k + 1023) with hless | htop
      · have := Nat.mod_lt m (by decide : 2 ^ 52 > 0)
        omega
      · have hone : m ≤ 2 ^ 52 := by
          have hpower : (2 : Rat) ^ k = (2 ^ 52 : Nat) * 2 ^ e := by
            rw [Nat.cast_pow, Nat.cast_ofNat, ← zpow_natCast, ← zpow_natCast,
              ← zpow_add₀ (by norm_num)]
            congr 1
            omega
          rw [IsUpTo, hpower] at h
          exact_mod_cast le_of_mul_le_mul_right h (by positivity)
        have hlow := Nat.log2_self_le hm.ne'
        rw [show m.log2 = 52 by omega] at hlow
        rw [le_antisymm hone hlow]
        omega
    · rw [toNat_packComponents]
      change 0 * 2 ^ 52 + m % 2 ^ 52 ≤ _
      rw [Nat.zero_mul, Nat.zero_add]
      exact (Nat.mod_lt m (by positivity)).le.trans (Nat.le_mul_of_pos_left _ (Nat.succ_pos _))

end Packing

section Doubles

variable {x y : Float}

theorem isFinite_of_isUpTo (h : IsUpTo k x.toModel.unpack) : isFinite x = true := by
  by_contra hinfinite
  have hinfinity : infinityWord = 2047 * 2 ^ 52 := by decide
  have hlarge : infinityWord ≤ magnitude x := not_lt.1 (mt decide_eq_true hinfinite)
  have hones : @unpackExponent Format.binary64 x.toBits.toBitVec = -1#_ := by
    have hexponent := exponent_of_magnitude x
    have hlt := (@unpackExponent Format.binary64 x.toBits.toBitVec).isLt
    change _ < 2 ^ 11 at hlt
    refine BitVec.toNat_inj.1 ?_
    change _ = 2 ^ 11 - 1
    omega
  have hunpack : x.toModel.unpack = UnpackedFloat.unpack Format.binary64 x.toBits.toBitVec := rfl
  rw [hunpack, UnpackedFloat.unpack] at h
  dsimp only at h
  rw [if_pos hones] at h
  split_ifs at h <;> exact h

theorem parts_le_of_isUpTo (h : IsUpTo k x.toModel.unpack) :
    ((parts x).mantissa : Rat) * 2 ^ (parts x).exponent ≤ 2 ^ k := by
  obtain ⟨hzero, -⟩ | ⟨s, hm, hunpack⟩ := unpack_of_isFinite (isFinite_of_isUpTo h)
  · rw [hzero, Nat.cast_zero, zero_mul]
    positivity
  · rwa [hunpack] at h

theorem isUpTo_add (hx : IsUpTo k x.toModel.unpack) (hy : IsUpTo j y.toModel.unpack)
    (hjk : j + 54 ≤ k) (hk : k ≤ 900) : IsUpTo k (x + y).toModel.unpack :=
  (hx.add hy hjk).pack hk

theorem isUpTo_div {s : Sign} {hn : 0 < n} {i : Int} (hx : IsUpTo k x.toModel.unpack)
    (hy : y.toModel.unpack = .finite s n f hn) (hsize : (2 : Rat) ^ i ≤ n * 2 ^ f)
    (hless : (k : Int) < j + i) (hj : j ≤ 900) : IsUpTo j (x / y).toModel.unpack := by
  change IsUpTo j (Float.Model.pack (UnpackedFloat.div _ x.toModel.unpack y.toModel.unpack)).unpack
  rw [hy]
  exact (hx.div hsize hless).pack hj

theorem exists_roundHalfUp (h : IsUpTo 86 x.toModel.unpack) :
    ∃ y, roundHalfUp x 1 = .ok y := by
  have hprinted := (Shortest.abs_value_decimal_le x).trans
    (mul_le_mul_of_nonneg_left (parts_le_of_isUpTo h) zero_le_two)
  have hnear := (Exact.isRounding_roundHalfUp (Shortest.decimal x).value 1).near
  have hdistance := abs_sub_abs_le_abs_sub (Exact.roundHalfUp (Shortest.decimal x).value 1)
    (Shortest.decimal x).value
  rw [Decimal.scaleTen_one, zpow_neg_one] at hnear
  have hfits : |Exact.roundHalfUp (Shortest.decimal x).value 1| * 10 ^ 1 <
      10 ^ Decimal.precision := by
    rw [Decimal.precision]
    norm_num at hprinted hnear ⊢
    linarith
  have hround := Decimal.round_eq (Shortest.decimal x) 1
  rw [Nat.cast_one, if_pos ⟨by decide, hfits⟩] at hround
  exact ⟨_, by rw [roundHalfUp_of_isFinite (isFinite_of_isUpTo h), hround]; rfl⟩

end Doubles

section Quotients

variable {x : Float}

theorem exists_nearest? {num den : Nat} (negative : Bool) (hden : den ≠ 0) (hk : k ≤ 900)
    (h : num ≤ den * 2 ^ k) :
    ∃ x, nearest? negative num den = some x ∧ IsUpTo (k + 1) x.toModel.unpack := by
  have hinfinity : infinityWord = 2047 * 2 ^ 52 := by decide
  have hword := nearestWord_le hden h
  have hfinite : nearestWord num den < infinityWord := by omega
  refine ⟨_, if_pos hfinite, isUpTo_of_magnitude (by omega) ?_⟩
  rw [magnitude_ofWord negative hfinite]
  omega

theorem exists_hoursOf {micros : Int} (h : micros.natAbs ≤ Calendar.secondMicros * 2 ^ 39) :
    ∃ x : Float, hoursOf micros = .ok x ∧ IsUpTo 30 x.toModel.unpack := by
  obtain ⟨seconds, hseconds, hbound⟩ := exists_nearest?
    (decide (micros < 0) != decide ((Calendar.secondMicros : Int) < 0)) (by decide) (by decide) h
  have hquotient : (Scalar.quotient? micros Calendar.secondMicros : Option Float) = some seconds :=
    hseconds
  refine ⟨seconds / Scalar.whole 3600, by rw [hoursOf, hquotient], ?_⟩
  refine isUpTo_div (i := 11) hbound unpack_hourSeconds ?_ (by decide) (by decide)
  norm_num

theorem exists_ofInt? (hn : 0 < n) (hle : n ≤ 2 ^ 1000) :
    ∃ (x : Float) (s : Sign) (m : Nat) (e : Int) (hm : 0 < m), ofInt? n = some x ∧
      x.toModel.unpack = .finite s m e hm ∧ (2 : Rat) ^ (-1 : Int) ≤ m * 2 ^ e := by
  have hinfinity : infinityWord = 2047 * 2 ^ 52 := by decide
  have hword := @nearestWord_le n 1 1000 one_ne_zero (by omega)
  have hleast := @le_nearestWord n 1 0 hn.ne' one_ne_zero (by omega)
  have hfinite : nearestWord n 1 < infinityWord := by omega
  obtain ⟨s, m, hm, hunpack, hlog⟩ :=
    exists_unpack_ofWord (decide ((n : Int) < 0)) (by omega) hfinite
  refine ⟨_, s, m, _, hm, if_pos hfinite, hunpack, ?_⟩
  refine not_lt.1 fun hless => ?_
  have := add_log2_lt hm hless
  omega

theorem exists_divInt (hn : 0 < n) (hle : n ≤ 2 ^ 1000) (h : IsUpTo k x.toModel.unpack)
    (hk : k ≤ 800) : ∃ y : Float, (Number.real x).divInt n = .ok y ∧
      IsUpTo (k + 2) y.toModel.unpack := by
  obtain ⟨y, s, m, e, hm, hscalar, hunpack, hsize⟩ := exists_ofInt? hn hle
  have hdivisor : (Number.scalarOfInt n : Outcome Float) = .ok y := by
    have hscalar' : (Scalar.ofInt? n : Option Float) = some y := hscalar
    rw [Number.scalarOfInt, hscalar']
  refine ⟨x / y, ?_, isUpTo_div h hunpack hsize (by push_cast; omega) (by omega)⟩
  rw [Number.divInt, hdivisor]
  rfl

end Quotients

end PullGauge.Binary64
