import Mathlib

/-!
# Counts as doubles

A positive count below `2 ^ 64` is a double of full precision: its mantissa has 53 bits, and its
exponent is far from both ends (`normal_toFloat`). A quotient by such a double is always a number
(`not_isNaN_div_toFloat`).

Both facts are about the model that `Float` carries: rounding keeps 53 bits of a mantissa that has
at least as many (`normal_roundWithAccuracy`), and a normal value comes back when it is packed and
unpacked (`unpack_pack_normal`).
-/

set_option autoImplicit false

namespace AuraGateway.Foundations.FloatCounts

open Float.Model (UnpackedFloat Format)
open Float.Model.UnpackedFloat

/-! ## Rounding -/

theorem shift_mantissa (em : ExtendedMantissa) (n : Nat) :
    (em >>> n).mantissa = em.mantissa / 2 ^ n := by
  change (n.repeat ExtendedMantissa.shiftRightOne em).mantissa = _
  induction n with
  | zero => rw [Nat.pow_zero, Nat.div_one, Nat.repeat]
  | succ n ih =>
      change (n.repeat ExtendedMantissa.shiftRightOne em).mantissa / 2 = _
      rw [ih, Nat.div_div_eq_div_mul, Nat.pow_succ]

/-- Rounding adds at most one to a mantissa. -/
theorem roundedMantissa_mem (em : ExtendedMantissa) :
    em.mantissa ≤ em.roundedMantissa ∧ em.roundedMantissa ≤ em.mantissa + 1 := by
  obtain ⟨m, roundBit, stickyBit⟩ := em
  simp only [ExtendedMantissa.roundedMantissa]
  cases roundBit <;> cases stickyBit <;>
    simp only [ExtendedMantissa.accuracy, Accuracy.roundToNearestEven] <;> omega

/-- A mantissa with more than 53 bits is cut to 53. -/
theorem log2_cut {m : Nat} (hm : 52 ≤ m.log2) :
    2 ^ 52 ≤ m / 2 ^ (m.log2 - 52) ∧ m / 2 ^ (m.log2 - 52) < 2 ^ 53 := by
  have hne : m ≠ 0 := by
    rintro rfl
    exact absurd hm (by decide)
  have hpos : 0 < 2 ^ (m.log2 - 52) := Nat.two_pow_pos _
  constructor
  · rw [Nat.le_div_iff_mul_le hpos, ← Nat.pow_add, Nat.add_sub_cancel' hm]
    exact Nat.log2_self_le hne
  · rw [Nat.div_lt_iff_lt_mul hpos, ← Nat.pow_add]
    have hexp : 53 + (m.log2 - 52) = m.log2 + 1 := by omega
    rw [hexp]
    exact Nat.lt_log2_self

theorem targetExponent_eq {m : Nat} {e : Int} (h : -1022 ≤ (m.log2 : Int) + e) :
    Format.binary64.targetExponent (Float.Model.totalExponent m e) = m.log2 + e - 52 := by
  simp only [Format.targetExponent, Float.Model.totalExponent, Format.mantissaBits,
    Format.minExponent]
  norm_num
  omega

/-- A mantissa of 53 bits is in place. -/
theorem shift_in_place {m : Nat} {e : Int} (hm : m.log2 = 52) (he : -1074 ≤ e) :
    shiftToTargetExponent Format.binary64 m e .exact = (⟨m, false, false⟩, e) := by
  have htarget : Format.binary64.targetExponent (Float.Model.totalExponent m e) = e := by
    rw [targetExponent_eq (by omega)]
    omega
  rw [shiftToTargetExponent, htarget, shiftToExponent, Int.sub_self, Int.toNat_zero]
  exact Prod.ext rfl (Int.add_zero e)

/-- A mantissa that rounding has carried over is halved. -/
theorem shift_carry {e : Int} (he : -1074 ≤ e) :
    shiftToTargetExponent Format.binary64 (2 ^ 53) e .exact = (⟨2 ^ 52, false, false⟩, e + 1) := by
  have hlog : Nat.log2 (2 ^ 53) = 53 := by rw [Nat.log2_two_pow]
  have htarget : Format.binary64.targetExponent (Float.Model.totalExponent (2 ^ 53) e) = e + 1 := by
    rw [targetExponent_eq (by omega)]
    omega
  have hshift : (e + 1 - e).toNat = 1 := by omega
  rw [shiftToTargetExponent, htarget, shiftToExponent, hshift]
  rfl

/-- A double of full precision whose exponent is far from both ends. -/
def IsNormal (f : UnpackedFloat) (low high : Int) : Prop :=
  ∃ sign m e hm, f = .finite sign m e hm ∧ m.log2 = 52 ∧ low ≤ e ∧ e ≤ high

/-- Rounding keeps 53 bits of a mantissa that has as many. -/
theorem normal_roundWithAccuracy (sign : Sign) {m : Nat} {e : Int}
    (accuracy : Accuracy) (hm : 52 ≤ m.log2) (he : -1022 ≤ (m.log2 : Int) - 52 + e) :
    IsNormal (roundWithAccuracy Format.binary64 sign m e accuracy) (m.log2 - 52 + e)
      (m.log2 - 52 + e + 1) := by
  obtain ⟨hlow, hhigh⟩ := log2_cut hm
  have hfirst : ∃ em, shiftToTargetExponent Format.binary64 m e accuracy = (em, m.log2 - 52 + e)
      ∧ em.mantissa = m / 2 ^ (m.log2 - 52) := by
    have hshift : ((m.log2 : Int) + e - 52 - e).toNat = m.log2 - 52 := by omega
    refine ⟨ExtendedMantissa.ofMantissaAndAccuracy m accuracy >>> (m.log2 - 52), ?_, ?_⟩
    · rw [shiftToTargetExponent, targetExponent_eq (by omega), shiftToExponent, hshift]
      refine Prod.ext rfl ?_
      simp only
      omega
    · rw [shift_mantissa]
      cases accuracy with
      | exact => rfl
      | inexact o => cases o <;> rfl
  obtain ⟨em, hem, hmantissa⟩ := hfirst
  obtain ⟨hround, hround'⟩ := roundedMantissa_mem em
  rw [hmantissa] at hround hround'
  rw [roundWithAccuracy, hem]
  simp only
  rcases Nat.lt_or_ge em.roundedMantissa (2 ^ 53) with hfits | hcarry
  · have hne : em.roundedMantissa ≠ 0 := by omega
    have hlog : em.roundedMantissa.log2 = 52 := by
      rw [Nat.log2_eq_iff hne]
      omega
    rw [shift_in_place hlog (by omega)]
    simp only [dif_neg hne]
    exact ⟨sign, _, _, _, rfl, hlog, le_refl _, by omega⟩
  · have heq : em.roundedMantissa = 2 ^ 53 := by omega
    rw [heq, shift_carry (by omega)]
    exact ⟨sign, _, _, _, rfl, Nat.log2_two_pow, by omega, le_refl _⟩

/-! ## Packing -/

section Components

variable {sign : Sign} {e : BitVec 11} {m : BitVec 52}

theorem unpack_ne_nan (he : e ≠ -1#11) :
    unpack Format.binary64 (packComponents Format.binary64 sign e m) ≠ .notANumber := by
  simp only [unpack, unpackExponent_packComponents, unpackMantissa_packComponents, if_neg he]
  split
  · split
    · nofun
    · nofun
  · nofun

/-- The leading bit of a mantissa is implicit. -/
theorem log2_append_implicit (m : BitVec 52) : (1#1 ++ m).toNat.log2 = 52 := by
  have heq : (1#1 ++ m).toNat = 2 ^ 52 + m.toNat := by
    rw [BitVec.toNat_append, ← Nat.shiftLeft_add_eq_or_of_lt m.isLt]
    rfl
  have hlt := m.isLt
  rw [Nat.log2_eq_iff (by omega)]
  omega

theorem normal_unpack {low high : Int} (he : e ≠ -1#11) (hzero : e ≠ 0#11)
    (hlow : low ≤ e.toNat - 1075) (hhigh : e.toNat - 1075 ≤ high) :
    IsNormal (unpack Format.binary64 (packComponents Format.binary64 sign e m)) low high := by
  simp only [unpack, unpackExponent_packComponents, unpackMantissa_packComponents, if_neg he,
    if_neg hzero]
  exact ⟨_, _, _, _, rfl, log2_append_implicit m, hlow, hhigh⟩

end Components

/-- A biased exponent within its range is not the one that is reserved at its end. -/
theorem exponent_ne_last {b : Nat} (hlt : b + 1 < 2 ^ 11) : BitVec.ofNat 11 b ≠ -1#11 := by
  intro h
  have hb : (BitVec.ofNat 11 b).toNat = b := by
    rw [BitVec.toNat_ofNat, Nat.mod_eq_of_lt (by omega)]
  have hlast : (-1#11).toNat = 2 ^ 11 - 1 := by decide
  rw [h] at hb
  omega

theorem exponent_ne_zero {b : Nat} (hpos : 0 < b) (hlt : b < 2 ^ 11) :
    BitVec.ofNat 11 b ≠ 0#11 := by
  intro h
  have hb : (BitVec.ofNat 11 b).toNat = b := by
    rw [BitVec.toNat_ofNat, Nat.mod_eq_of_lt hlt]
  have hzero : (0#11).toNat = 0 := by decide
  rw [h] at hb
  omega

/-- A normal value comes back as one. -/
theorem normal_unpack_pack {f : UnpackedFloat} {low high : Int} (hlow : -1000 ≤ low)
    (hhigh : high ≤ 900) (h : IsNormal f low high) :
    IsNormal (Float.Model.pack f).unpack low high := by
  obtain ⟨sign, m, e, hm, rfl, hlog, he, he'⟩ := h
  change IsNormal (unpack Format.binary64 (pack Format.binary64 (.finite sign m e hm))) low high
  have hbias : (e + Format.binary64.exponentBias + Format.binary64.mantissaBitsWithoutImplicit)
      = e + 1075 := by
    rw [add_assoc]
    rfl
  have hlast : BitVec.ofNat 11 (e + 1075).toNat ≠ -1#11 := exponent_ne_last (by omega)
  have hzero : BitVec.ofNat 11 (e + 1075).toNat ≠ 0#11 := exponent_ne_zero (by omega) (by omega)
  have htoNat : (BitVec.ofNat 11 (e + 1075).toNat).toNat = (e + 1075).toNat := by
    rw [BitVec.toNat_ofNat, Nat.mod_eq_of_lt (by omega)]
  have hnormal : m.log2 + 1 = Format.binary64.mantissaBits := by
    rw [hlog]
    rfl
  rw [pack]
  simp only [hbias, hnormal, if_true]
  rw [if_neg (by omega)]
  exact normal_unpack hlast hzero (by omega) (by omega)

/-- Only what is no number comes back as no number. -/
theorem unpack_pack_ne_nan {f : UnpackedFloat} (h : f ≠ .notANumber) :
    (Float.Model.pack f).unpack ≠ .notANumber := by
  change unpack Format.binary64 (pack Format.binary64 f) ≠ .notANumber
  have hinfinity : ∀ sign, unpack Format.binary64 (packedInfinity Format.binary64 sign)
      ≠ .notANumber := by
    intro sign
    have heq : unpack Format.binary64 (packedInfinity Format.binary64 sign) = .infinity sign := by
      cases sign <;> rfl
    rw [heq]
    nofun
  cases f with
  | notANumber => exact absurd rfl h
  | infinity sign => exact hinfinity sign
  | zero sign => exact unpack_ne_nan (by decide)
  | finite sign m e hm =>
      rw [pack]
      simp only
      split
      · exact hinfinity sign
      · rename_i hover
        split
        · exact unpack_ne_nan (exponent_ne_last (Nat.lt_of_not_le hover))
        · exact unpack_ne_nan (by decide)

/-! ## Counts -/

theorem log2_mul_two_pow {n : Nat} (hn : n ≠ 0) (k : Nat) : (n * 2 ^ k).log2 = n.log2 + k := by
  have hpos : 0 < 2 ^ k := Nat.two_pow_pos k
  rw [Nat.log2_eq_iff (Nat.mul_ne_zero hn hpos.ne'), Nat.add_right_comm, Nat.pow_add, Nat.pow_add]
  exact ⟨Nat.mul_le_mul_right _ (Nat.log2_self_le hn),
    Nat.mul_lt_mul_of_pos_right Nat.lt_log2_self hpos⟩

/-- A product whose mantissa has enough bits is rounded once. -/
theorem normal_mul {s₁ s₂ : Sign} {m₁ m₂ : Nat} {e₁ e₂ : Int} {h₁ : 0 < m₁} {h₂ : 0 < m₂}
    (hm : 52 ≤ (m₁ * m₂).log2) (hlow : -1000 ≤ ((m₁ * m₂).log2 : Int) - 52 + (e₁ + e₂))
    (hhigh : ((m₁ * m₂).log2 : Int) - 52 + (e₁ + e₂) < 900) :
    IsNormal (Float.Model.pack (mul Format.binary64 (.finite s₁ m₁ e₁ h₁)
      (.finite s₂ m₂ e₂ h₂))).unpack (-1000) 900 := by
  obtain ⟨sign, m, e, hpos, heq, hlog, he, he'⟩ :=
    normal_roundWithAccuracy (s₁ * s₂) .exact hm (e := e₁ + e₂) (by omega)
  apply normal_unpack_pack le_rfl le_rfl
  rw [mul, heq]
  exact ⟨sign, m, e, hpos, rfl, hlog, by omega, by omega⟩

/-- A count that is not zero and fits in a mantissa. -/
theorem normal_ofNat {n : Nat} (hpos : 0 < n) (hlt : n < 2 ^ 53) :
    IsNormal (ofNat Format.binary64 n) (-52) 1 := by
  have hlog : n.log2 ≤ 52 := by
    have hlt' := (Nat.log2_lt hpos.ne').mpr hlt
    omega
  have hcompare : compare (n : Int) 0 = .gt := compare_gt_iff_gt.mpr (Int.natCast_pos.mpr hpos)
  have htarget : (0 - (((n.log2 : Int) + 0) - 52)).toNat = 52 - n.log2 := by omega
  have hshifted : (n <<< (52 - n.log2)).log2 = 52 := by
    rw [Nat.shiftLeft_eq, log2_mul_two_pow hpos.ne']
    omega
  obtain ⟨sign, m, e, hm, heq, hm', he, he'⟩ := normal_roundWithAccuracy .positive .exact
    (m := n <<< (52 - n.log2)) (e := 0 - ((52 - n.log2 : Nat) : Int)) (by omega) (by omega)
  rw [ofNat, ofInt, UnpackedFloat.normalize, hcompare]
  simp only [UnpackedFloat.round, Int.toNat_natCast, decreaseExponent]
  rw [targetExponent_eq (by omega), htarget, heq]
  exact ⟨sign, m, e, hm, rfl, hm', by omega, by omega⟩

/-- A positive count below `2 ^ 64`, as a double. -/
theorem normal_toFloat {n : Nat} (hpos : 0 < n) (hlt : n < 2 ^ 64) :
    IsNormal n.toFloat.toModel.unpack (-1000) 900 := by
  change IsNormal (Float.ofScientific n false 0).toModel.unpack (-1000) 900
  by_cases hfast : n < 2 ^ 53
  · -- a count with a short mantissa is multiplied by one
    obtain ⟨sign, m, e, hm, heq, hlog, he, he'⟩ :=
      normal_unpack_pack (by decide) (by decide) (normal_ofNat hpos hfast)
    have hone : (Float.ofBits 0x3FF0000000000000).toModel.unpack
        = .finite .positive (2 ^ 52) (-52) (by decide) := by
      rfl
    have hwidth : n.toUInt64.toNat = n := Nat.mod_eq_of_lt hlt
    have hcount : n.toUInt64.toFloat.toModel.unpack = .finite sign m e hm := by
      rw [← heq]
      change (Float.Model.pack (ofNat Format.binary64 n.toUInt64.toNat)).unpack = _
      rw [hwidth]
    have hlog' : (m * 2 ^ 52).log2 = 104 := by
      rw [log2_mul_two_pow hm.ne', hlog]
    rw [Float.ofScientific, dif_pos ⟨hfast, by decide⟩]
    change IsNormal (Float.Model.pack (mul Format.binary64 n.toUInt64.toFloat.toModel.unpack
      (Float.ofBits 0x3FF0000000000000).toModel.unpack)).unpack (-1000) 900
    rw [hcount, hone]
    exact normal_mul (by omega) (by omega) (by omega)
  · have hlog : n.log2 < 64 := (Nat.log2_lt hpos.ne').mpr hlt
    have hlog' : 53 ≤ n.log2 := (Nat.le_log2 hpos.ne').mpr (Nat.le_of_not_lt hfast)
    have hmantissa : (n <<< Format.binary64.mantissaBits * 10 ^ (0 : Int).toNat).log2
        = n.log2 + 53 := by
      change (n <<< 53 * 1).log2 = n.log2 + 53
      rw [Nat.mul_one, Nat.shiftLeft_eq, log2_mul_two_pow hpos.ne']
    have hexponent : (-(Format.binary64.mantissaBits : Int)) = -53 := rfl
    have hrange : ¬ (0 : Int) < -((2 ^ Format.binary64.exponentBits : Int) + n.log2) := by
      have hbits : (0 : Int) ≤ 2 ^ Format.binary64.exponentBits := by positivity
      omega
    rw [Float.ofScientific, dif_neg (fun h => hfast h.1)]
    change IsNormal (Float.Model.pack (UnpackedFloat.ofScientific Format.binary64 n 0)).unpack
      (-1000) 900
    rw [UnpackedFloat.ofScientific, dif_neg hpos.ne', if_neg (by decide), if_neg hrange,
      if_pos le_rfl]
    apply normal_mul
    · omega
    · omega
    · omega

theorem roundWithAccuracy_ne_nan (sign : Sign) (m : Nat) (e : Int) (accuracy : Accuracy) :
    roundWithAccuracy Format.binary64 sign m e accuracy ≠ .notANumber := by
  simp only [roundWithAccuracy]
  split
  · nofun
  · nofun

/-- No count is `NaN`. -/
theorem toFloat_ne_nan (n : Nat) : n.toFloat.toModel.unpack ≠ .notANumber := by
  change (Float.ofScientific n false 0).toModel.unpack ≠ .notANumber
  rcases Nat.eq_zero_or_pos n with rfl | hpos
  · have hzero : (Float.ofScientific 0 false 0).toModel.unpack = .zero .positive := rfl
    rw [hzero]
    nofun
  · by_cases hfast : n < 2 ^ 53
    · obtain ⟨sign, m, e, hm, heq, -⟩ := normal_toFloat hpos (by omega)
      change (Float.ofScientific n false 0).toModel.unpack = _ at heq
      rw [heq]
      nofun
    · rw [Float.ofScientific, dif_neg (fun h => hfast h.1)]
      apply unpack_pack_ne_nan
      change UnpackedFloat.ofScientific Format.binary64 n 0 ≠ .notANumber
      rw [UnpackedFloat.ofScientific, dif_neg hpos.ne', if_neg (by decide)]
      split
      · nofun
      · rw [if_pos le_rfl, mul]
        exact roundWithAccuracy_ne_nan _ _ _ _

/-- A quotient by a count that is not zero is a number. -/
theorem not_isNaN_div_toFloat (n : Nat) {d : Nat} (hpos : 0 < d) (hlt : d < 2 ^ 64) :
    (n.toFloat / d.toFloat).isNaN = false := by
  obtain ⟨sign, m, e, hm, hd, -⟩ := normal_toFloat hpos hlt
  have hne : div Format.binary64 n.toFloat.toModel.unpack d.toFloat.toModel.unpack
      ≠ .notANumber := by
    have hn := toFloat_ne_nan n
    rw [hd]
    cases hx : n.toFloat.toModel.unpack with
    | notANumber => exact absurd hx hn
    | infinity s => nofun
    | zero s => nofun
    | finite s m' e' hm' =>
        rw [div]
        exact roundWithAccuracy_ne_nan _ _ _ _
  have hunpack := unpack_pack_ne_nan hne
  change (Float.Model.pack (div Format.binary64 n.toFloat.toModel.unpack
    d.toFloat.toModel.unpack)).unpack.isNaN = false
  cases hx : (Float.Model.pack (div Format.binary64 n.toFloat.toModel.unpack
    d.toFloat.toModel.unpack)).unpack with
  | notANumber => exact absurd hx hunpack
  | infinity s => rfl
  | zero s => rfl
  | finite s m' e' hm' => rfl

end AuraGateway.Foundations.FloatCounts
