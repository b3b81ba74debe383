import Mathlib
import PullGauge.Number.Binary64

/-!
# Doubles as words

The word of a finite double shows its mantissa and its exponent, and these are what the arithmetic
of doubles reads. The word of a quotient that is rounded lies near those of the powers of two
between which the quotient lies.
-/

namespace PullGauge.Binary64

open Float.Model Float.Model.UnpackedFloat

section Fields

variable {x : Float}

theorem toNat_unpackExponent (bits : BitVec Format.binary64.numBits) :
    (unpackExponent bits).toNat = bits.toNat / 2 ^ 52 % 2 ^ 11 := by
  rw [unpackExponent_def, BitVec.extractLsb'_toNat, Nat.shiftRight_eq_div_pow]

theorem toNat_unpackMantissa (bits : BitVec Format.binary64.numBits) :
    (unpackMantissa bits).toNat = bits.toNat % 2 ^ 52 := by
  rw [unpackMantissa_def, BitVec.extractLsb'_toNat, Nat.shiftRight_zero]

theorem exponent_of_magnitude (x : Float) :
    (@unpackExponent Format.binary64 x.toBits.toBitVec).toNat = magnitude x / 2 ^ 52 := by
  have hsign : signWord = 2 ^ 63 := by decide
  rw [toNat_unpackExponent, magnitude, hsign]
  change x.toBits.toNat / 2 ^ 52 % 2 ^ 11 = _
  omega

theorem mantissa_of_magnitude (x : Float) :
    (@unpackMantissa Format.binary64 x.toBits.toBitVec).toNat = magnitude x % 2 ^ 52 := by
  have hsign : signWord = 2 ^ 63 := by decide
  rw [toNat_unpackMantissa, magnitude, hsign]
  change x.toBits.toNat % 2 ^ 52 = _
  omega

theorem parts_of_subnormal (h : magnitude x / 2 ^ 52 = 0) :
    parts x = ⟨magnitude x % 2 ^ 52, -1074⟩ :=
  if_pos h

theorem parts_of_normal (h : magnitude x / 2 ^ 52 ≠ 0) :
    parts x = ⟨magnitude x % 2 ^ 52 + 2 ^ 52, (magnitude x / 2 ^ 52 : Nat) - 1075⟩ :=
  if_neg h

theorem exists_finite_eq {m m' : Nat} {e e' : Int} (s : Sign) (hm : 0 < m) (h : m = m')
    (h' : e = e') : ∃ hm', UnpackedFloat.finite s m e hm = .finite s m' e' hm' := by
  subst h h'
  exact ⟨hm, rfl⟩

theorem unpack_of_isFinite (h : isFinite x = true) :
    ((parts x).mantissa = 0 ∧ ∃ s, x.toModel.unpack = .zero s) ∨
    ∃ s hm, x.toModel.unpack = .finite s (parts x).mantissa (parts x).exponent hm := by
  have hfinite : magnitude x < 2047 * 2 ^ 52 := of_decide_eq_true h
  have hexponent := exponent_of_magnitude x
  have hmantissa := mantissa_of_magnitude x
  have hones : @unpackExponent Format.binary64 x.toBits.toBitVec ≠ -1#_ := by
    intro hones
    rw [hones] at hexponent
    change 2 ^ 11 - 1 = _ at hexponent
    omega
  have hunpack : x.toModel.unpack = UnpackedFloat.unpack Format.binary64 x.toBits.toBitVec := rfl
  rw [hunpack, UnpackedFloat.unpack]
  dsimp only
  rw [if_neg hones, hexponent]
  by_cases hfield : magnitude x / 2 ^ 52 = 0
  · have hzero : @unpackExponent Format.binary64 x.toBits.toBitVec = 0#_ :=
      BitVec.toNat_inj.1 (hexponent.trans hfield)
    rw [if_pos hzero, parts_of_subnormal hfield]
    split_ifs with hnone
    · refine .inl ⟨?_, _, rfl⟩
      rw [← hmantissa, hnone]
      rfl
    · refine .inr ⟨_, exists_finite_eq _ _ hmantissa ?_⟩
      rw [hfield]
      rfl
  · have hzero : @unpackExponent Format.binary64 x.toBits.toBitVec ≠ 0#_ := by
      intro hzero
      rw [hzero] at hexponent
      exact hfield hexponent.symm
    have hleading : (1#1 ++ @unpackMantissa Format.binary64 x.toBits.toBitVec).toNat =
        magnitude x % 2 ^ 52 + 2 ^ 52 := by
      rw [BitVec.toNat_append, ← Nat.shiftLeft_add_eq_or_of_lt
        (@unpackMantissa Format.binary64 x.toBits.toBitVec).isLt, Nat.shiftLeft_eq,
        hmantissa, Nat.add_comm]
      rfl
    rw [if_neg hzero, parts_of_normal hfield]
    exact .inr ⟨_, exists_finite_eq _ _ hleading rfl⟩

theorem toBits_ofBits {bits : UInt64} (h : bits.toNat % 2 ^ 63 < 2047 * 2 ^ 52) :
    (Float.ofBits bits).toBits = bits := by
  have hones : @unpackExponent Format.binary64 bits.toBitVec ≠ -1#_ := by
    intro hones
    have hexponent := toNat_unpackExponent bits.toBitVec
    rw [hones] at hexponent
    change 2 ^ 11 - 1 = bits.toNat / 2 ^ 52 % 2 ^ 11 at hexponent
    omega
  have hpacked : UnpackedFloat.pack Format.binary64
      (UnpackedFloat.unpack Format.binary64 bits.toBitVec) = bits.toBitVec := by
    have hnumber : @isNaNBits Format.binary64 bits.toBitVec = false :=
      decide_eq_false fun hnan => hones hnan.1
    rw [pack_unpack, hnumber]
    rfl
  exact congrArg UInt64.ofBitVec hpacked

theorem magnitude_ofWord (negative : Bool) {word : Nat} (h : word < infinityWord) :
    magnitude (ofWord negative word) = word := by
  have hinfinity : infinityWord = 2047 * 2 ^ 52 := by decide
  have hsign : signWord = 2 ^ 63 := by decide
  have hbits : ∃ bits : UInt64, ofWord negative word = Float.ofBits bits ∧
      bits.toNat % 2 ^ 63 = word := by
    cases negative with
    | false =>
      refine ⟨_, rfl, ?_⟩
      change word % 2 ^ 64 % 2 ^ 63 = word
      omega
    | true =>
      refine ⟨_, rfl, ?_⟩
      change (signWord + word) % 2 ^ 64 % 2 ^ 63 = word
      omega
  obtain ⟨bits, hbits, hword⟩ := hbits
  rw [hbits, magnitude, hsign, toBits_ofBits (by omega), hword]

end Fields

section Leading

variable {num den : Nat}

theorem zpow_log2_le {n : Nat} (hn : n ≠ 0) : (2 : Rat) ^ (n.log2 : Int) ≤ n := by
  rw [zpow_natCast]
  exact_mod_cast Nat.log2_self_le hn

theorem lt_zpow_log2 (n : Nat) : (n : Rat) < 2 ^ ((n.log2 : Int) + 1) := by
  rw [← Nat.cast_succ, zpow_natCast]
  exact_mod_cast Nat.lt_log2_self

theorem reaches_iff (e : Int) : reaches num den e = true ↔ (den : Rat) * 2 ^ e ≤ num := by
  cases e with
  | ofNat k =>
    rw [reaches, decide_eq_true_iff, Int.ofNat_eq_natCast, zpow_natCast]
    exact_mod_cast Iff.rfl
  | negSucc k =>
    rw [reaches, decide_eq_true_iff, zpow_negSucc, ← div_eq_mul_inv, div_le_iff₀ (by positivity)]
    exact_mod_cast Iff.rfl

theorem leading_spec (hnum : num ≠ 0) (hden : den ≠ 0) :
    (den : Rat) * 2 ^ leading num den ≤ num ∧ (num : Rat) < den * 2 ^ (leading num den + 1) := by
  unfold leading
  dsimp only
  split_ifs with hreaches
  · refine ⟨(reaches_iff _).1 hreaches, ?_⟩
    calc (num : Rat) < 2 ^ ((num.log2 : Int) + 1) := lt_zpow_log2 num
      _ = 2 ^ (den.log2 : Int) * 2 ^ ((num.log2 : Int) - den.log2 + 1) := by
        rw [← zpow_add₀ (by norm_num)]
        congr 1
        ring
      _ ≤ den * 2 ^ ((num.log2 : Int) - den.log2 + 1) := by
        gcongr
        exact zpow_log2_le hden
  · rw [sub_add_cancel]
    refine ⟨?_, not_le.1 (mt (reaches_iff _).2 hreaches)⟩
    calc (den : Rat) * 2 ^ ((num.log2 : Int) - den.log2 - 1)
      _ ≤ 2 ^ ((den.log2 : Int) + 1) * 2 ^ ((num.log2 : Int) - den.log2 - 1) := by
        gcongr
        exact (lt_zpow_log2 den).le
      _ = 2 ^ (num.log2 : Int) := by
        rw [← zpow_add₀ (by norm_num)]
        congr 1
        ring
      _ ≤ num := zpow_log2_le hnum

theorem roundEven_le (num den : Nat) : roundEven num den ≤ num / den + 1 := by
  unfold roundEven
  dsimp only
  split_ifs <;> omega

theorem roundScaled_le {e : Int} {bound : Nat} (hden : den ≠ 0)
    (h : (num : Rat) < den * 2 ^ e * bound) : roundScaled num den e ≤ bound := by
  cases e with
  | ofNat k =>
    have hquotient : num / (den * 2 ^ k) < bound := by
      rw [Nat.div_lt_iff_lt_mul (by positivity)]
      rw [Int.ofNat_eq_natCast, zpow_natCast, mul_comm] at h
      exact_mod_cast h
    exact (roundEven_le _ _).trans hquotient
  | negSucc k =>
    have hquotient : num * 2 ^ (k + 1) / den < bound := by
      rw [Nat.div_lt_iff_lt_mul (by positivity)]
      rw [zpow_negSucc, ← div_eq_mul_inv, div_mul_eq_mul_div, lt_div_iff₀ (by positivity),
        mul_comm (den : Rat)] at h
      exact_mod_cast h
    exact (roundEven_le _ _).trans hquotient

theorem nearestWord_le {k : Nat} (hden : den ≠ 0) (h : num ≤ den * 2 ^ k) :
    nearestWord num den ≤ (k + 1024) * 2 ^ 52 := by
  by_cases hnum : num = 0
  · rw [nearestWord, if_pos hnum]
    exact Nat.zero_le _
  obtain ⟨hlow, hhigh⟩ := leading_spec hnum hden
  have hleading : leading num den ≤ k := by
    have hpower : (2 : Rat) ^ leading num den ≤ 2 ^ (k : Int) := by
      rw [zpow_natCast]
      refine le_of_mul_le_mul_left (hlow.trans ?_) (Nat.cast_pos.2 (Nat.pos_of_ne_zero hden))
      exact_mod_cast h
    exact (zpow_le_zpow_iff_right₀ (by norm_num)).1 hpower
  rw [nearestWord, if_neg hnum]
  dsimp only
  generalize leading num den = e at *
  have hrounded : roundScaled num den (max (e - 52) (-1074)) ≤ 2 ^ 53 := by
    refine roundScaled_le hden (hhigh.trans_le ?_)
    have hpower : (2 : Rat) ^ (e + 1) ≤ 2 ^ max (e - 52) (-1074) * (2 ^ 53 : Nat) := by
      rw [Nat.cast_pow, Nat.cast_ofNat, ← zpow_natCast, ← zpow_add₀ (by norm_num)]
      exact zpow_le_zpow_right₀ (by norm_num) (by omega)
    rw [mul_assoc]
    gcongr
  calc (max (e - 52) (-1074) + 1074).toNat * 2 ^ 52 + roundScaled num den (max (e - 52) (-1074))
    _ ≤ (k + 1022) * 2 ^ 52 + 2 ^ 53 := by
      gcongr
      omega
    _ = (k + 1024) * 2 ^ 52 := by ring

theorem le_nearestWord {k : Nat} (hnum : num ≠ 0) (hden : den ≠ 0) (h : den ≤ num * 2 ^ k) :
    (1022 - k) * 2 ^ 52 ≤ nearestWord num den := by
  have hhigh := (leading_spec hnum hden).2
  have hleading : -(k : Int) ≤ leading num den := by
    have hpower : (2 : Rat) ^ (-(k : Int)) < 2 ^ (leading num den + 1) := by
      rw [zpow_neg, zpow_natCast, inv_lt_iff_one_lt_mul₀' (by positivity)]
      refine lt_of_mul_lt_mul_left ?_ (Nat.cast_nonneg num)
      calc (num : Rat) * 1 < den * 2 ^ (leading num den + 1) := by rwa [mul_one]
        _ ≤ num * 2 ^ k * 2 ^ (leading num den + 1) := by
          gcongr
          exact_mod_cast h
        _ = num * (2 ^ k * 2 ^ (leading num den + 1)) := mul_assoc _ _ _
    exact Int.lt_add_one_iff.1 ((zpow_lt_zpow_iff_right₀ (by norm_num)).1 hpower)
  have hexponent : 1022 - k ≤ (max (leading num den - 52) (-1074) + 1074).toNat := by omega
  rw [nearestWord, if_neg hnum]
  exact (Nat.mul_le_mul_right _ hexponent).trans (Nat.le_add_right _ _)

end Leading

end PullGauge.Binary64
