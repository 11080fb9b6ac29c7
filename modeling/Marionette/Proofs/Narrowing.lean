import Mathlib
import Marionette.Rounding

/-!
# The range of single precision

A double is written in single precision, which has fewer exponents.  A double past the last of them
becomes infinite there, and so does one that is rounded up past the last float.

- `IsDouble`: the mantissas and exponents of doubles.
- `keptMantissa`, `singleExponent`: what single precision keeps of a double.
- `IsDouble.isFinite_round_iff`: which doubles stay finite, by mantissa and exponent.
- `singleLimit`, `isFinite_toSingle_iff`: they are the ones between a limit and its negative.
-/

namespace Marionette

open Float.Model (Format UnpackedFloat totalExponent)
open Float.Model.UnpackedFloat

/-- The least number whose float of single precision is infinite: it lies half way between the last
float and the power of two after it. -/
def singleLimit : Float := 340282356779733661637539395458142568448

/-! ### Doubles -/

/-- Mantissa and exponent of a double: the mantissa has all its bits, unless the exponent is the
least one. -/
structure IsDouble (mantissa : Nat) (exponent : Int) : Prop where
  pos : 0 < mantissa
  mantissa_lt : mantissa < 2 ^ 53
  le_exponent : -1074 ≤ exponent
  full : 2 ^ 52 ≤ mantissa ∨ exponent = -1074

/-- The bits of a double that is finite and not zero hold such a pair. -/
theorem isDouble_of_unpack {x : Float} {sign : Sign} {mantissa : Nat} {exponent : Int}
    {hpos : 0 < mantissa} (h : x.toModel.unpack = .finite sign mantissa exponent hpos) :
    IsDouble mantissa exponent := by
  have hbias : ((Format.binary64.exponentBias : Nat) : Int) = 1023 := rfl
  unfold Float.Model.unpack unpack at h
  dsimp only at h
  rw [hbias] at h
  split_ifs at h with hlast hnone hleast hzero
  · -- without the first bit
    have hlt := (@unpackMantissa .binary64 x.toModel.toBits.toBitVec).isLt
    injection h with _ hmantissa hexponent
    rw [hleast] at hexponent
    refine ⟨hpos, hmantissa ▸ hlt.trans (by decide), ?_, .inr ?_⟩ <;>
    · rw [← hexponent]
      decide
  · -- with the first bit
    have hlt := (@unpackMantissa .binary64 x.toModel.toBits.toBitVec).isLt
    have hexponent_pos : 0 < (@unpackExponent .binary64 x.toModel.toBits.toBitVec).toNat :=
      Nat.pos_of_ne_zero fun hzero => hleast (BitVec.eq_of_toNat_eq hzero)
    injection h with _ hmantissa hexponent
    rw [BitVec.toNat_append, ← Nat.shiftLeft_add_eq_or_of_lt hlt] at hmantissa
    have hone : (1#1).toNat <<< 52 = 2 ^ 52 := by decide
    rw [hone] at hmantissa
    dsimp only at hlt hexponent
    exact ⟨hpos, by omega, by omega, .inl (by omega)⟩

/-! ### Rounding to single precision -/

/-- A shift by some bits divides the mantissa. -/
theorem mantissa_shift (em : ExtendedMantissa) (n : Nat) :
    (em >>> n).mantissa = em.mantissa / 2 ^ n := by
  induction n with
  | zero => exact (Nat.div_one _).symm
  | succ n ih =>
    show (em >>> n).mantissa / 2 = _
    rw [ih, Nat.div_div_eq_div_mul, Nat.pow_succ]

/-- The last bit that a shift drops decides how to round. -/
theorem roundBit_shift (em : ExtendedMantissa) (n : Nat) :
    (em >>> (n + 1)).roundBit = (em.mantissa / 2 ^ n % 2 != 0) := by
  rw [← mantissa_shift]
  rfl

theorem roundedMantissa_bounds (em : ExtendedMantissa) :
    em.mantissa ≤ em.roundedMantissa ∧ em.roundedMantissa ≤ em.mantissa + 1 := by
  obtain ⟨mantissa, roundBit, stickyBit⟩ := em
  cases roundBit <;> cases stickyBit <;>
    simp only [ExtendedMantissa.roundedMantissa, ExtendedMantissa.accuracy,
      Accuracy.roundToNearestEven] <;> omega

/-- Where the mantissa is odd, the first bit that is dropped decides. -/
theorem roundedMantissa_of_odd {em : ExtendedMantissa} (h : em.mantissa % 2 = 1) :
    em.roundedMantissa = if em.roundBit then em.mantissa + 1 else em.mantissa := by
  obtain ⟨mantissa, roundBit, stickyBit⟩ := em
  dsimp only at h
  cases roundBit <;> cases stickyBit <;>
    simp [ExtendedMantissa.roundedMantissa, ExtendedMantissa.accuracy,
      Accuracy.roundToNearestEven, h]

/-- The exponent of a double in single precision, before it is rounded. -/
def singleExponent (mantissa : Nat) (exponent : Int) : Int :=
  max (mantissa.log2 + exponent - 23) (-149)

theorem targetExponent_eq (mantissa : Nat) (exponent : Int) :
    Format.binary32.targetExponent (totalExponent mantissa exponent) =
      singleExponent mantissa exponent := by
  have hbits : ((Format.binary32.mantissaBits : Nat) : Int) = 24 := rfl
  have hleast : Format.binary32.minExponent = -149 := rfl
  rw [Format.targetExponent, totalExponent, singleExponent, hbits, hleast]
  congr 1
  omega

/-- What is left of a mantissa in single precision, before it is rounded. -/
def keptMantissa (mantissa : Nat) (exponent : Int) : ExtendedMantissa :=
  (⟨mantissa, false, false⟩ : ExtendedMantissa) >>>
    (singleExponent mantissa exponent - exponent).toNat

section Double

variable {mantissa : Nat} {exponent : Int}

/-- Single precision drops at least 29 bits of a double. -/
theorem IsDouble.add_le (h : IsDouble mantissa exponent) :
    exponent + 29 ≤ singleExponent mantissa exponent := by
  unfold singleExponent
  rcases h.full with hfull | rfl
  · have hlog : 52 ≤ mantissa.log2 := (Nat.le_log2 h.pos.ne').2 hfull
    omega
  · omega

theorem IsDouble.log2_le (h : IsDouble mantissa exponent) : mantissa.log2 ≤ 52 :=
  Nat.le_of_lt_succ ((Nat.log2_lt h.pos.ne').2 h.mantissa_lt)

/-- At most 24 bits are left of a mantissa. -/
theorem kept_lt (mantissa : Nat) (exponent : Int) :
    (keptMantissa mantissa exponent).mantissa < 2 ^ 24 := by
  have hbits : mantissa.log2 + 1 ≤ (singleExponent mantissa exponent - exponent).toNat + 24 := by
    unfold singleExponent
    omega
  rw [keptMantissa, mantissa_shift]
  refine Nat.div_lt_of_lt_mul ?_
  rw [← Nat.pow_add]
  exact Nat.lt_log2_self.trans_le (Nat.pow_le_pow_right (by decide) hbits)

/-- In single precision exponents end at 104. -/
theorem isFinite_unpack_pack (sign : Sign) {hpos : 0 < mantissa} :
    (unpack .binary32 (pack .binary32 (.finite sign mantissa exponent hpos))).isFinite = true ↔
      exponent ≤ 104 := by
  have hbias : ((Format.binary32.exponentBias : Nat) : Int) = 127 := rfl
  have hlast (b : BitVec 32) : (unpack .binary32 b).isFinite = true ↔
      (@unpackExponent .binary32 b).toNat ≠ 255 := by
    have hones : @unpackExponent .binary32 b = -1#8 ↔ (@unpackExponent .binary32 b).toNat = 255 :=
      BitVec.toNat_inj.symm
    rw [ne_eq, ← hones]
    unfold unpack
    dsimp only
    split_ifs <;> simp_all [UnpackedFloat.isFinite]
  rw [hlast, pack]
  dsimp only
  rw [hbias]
  split_ifs with hlarge hfull
  · rw [packedInfinity, unpackExponent_packComponents]
    show (255 : Nat) ≠ 255 ↔ _
    omega
  · rw [unpackExponent_packComponents, BitVec.toNat_ofNat, Nat.mod_eq_of_lt (by omega)]
    omega
  · rw [unpackExponent_packComponents]
    show (0 : Nat) ≠ 255 ↔ _
    omega

theorem shiftToTargetExponent_eq (mantissa : Nat) (exponent : Int) :
    shiftToTargetExponent .binary32 mantissa exponent .exact = (keptMantissa mantissa exponent,
      exponent + (singleExponent mantissa exponent - exponent).toNat) := by
  rw [shiftToTargetExponent, targetExponent_eq]
  rfl

/-- A rounded mantissa needs another bit only if it has become a power of two. -/
theorem toNat_singleExponent {rounded : Nat} (hle : rounded ≤ 2 ^ 24) (hleast : -149 ≤ exponent) :
    (singleExponent rounded exponent - exponent).toNat = if rounded < 2 ^ 24 then 0 else 1 := by
  unfold singleExponent
  split_ifs with hlt
  · have hlog : rounded.log2 ≤ 23 := by
      by_cases hzero : rounded = 0
      · rw [hzero]
        decide
      · exact Nat.le_of_lt_succ ((Nat.log2_lt hzero).2 hlt)
    omega
  · obtain rfl : rounded = 2 ^ 24 := by omega
    rw [Nat.log2_two_pow]
    omega

/-- A double is finite in single precision if it becomes zero, or if its exponent stays in range
after its mantissa has been rounded. -/
theorem IsDouble.isFinite_round (h : IsDouble mantissa exponent) (sign : Sign) :
    (unpack .binary32 (pack .binary32
        (UnpackedFloat.round .binary32 sign mantissa exponent))).isFinite = true ↔
      (keptMantissa mantissa exponent).roundedMantissa = 0 ∨
        singleExponent mantissa exponent +
          (if (keptMantissa mantissa exponent).roundedMantissa < 2 ^ 24 then 0 else 1 : Nat) ≤
            104 := by
  have hdrop := h.add_le
  have hdecrease : decreaseExponent mantissa exponent (singleExponent mantissa exponent) =
      (mantissa, exponent) := by
    have hnone : (exponent - singleExponent mantissa exponent).toNat = 0 := by omega
    simp [decreaseExponent, hnone]
  have hfirst : exponent + (singleExponent mantissa exponent - exponent).toNat =
      singleExponent mantissa exponent := by
    omega
  rw [UnpackedFloat.round, targetExponent_eq]
  dsimp only
  rw [hdecrease]
  dsimp only
  rw [roundWithAccuracy, shiftToTargetExponent_eq, hfirst]
  dsimp only
  -- The second shift only makes room for the bit that rounding may have added.
  have hle : (keptMantissa mantissa exponent).roundedMantissa ≤ 2 ^ 24 :=
    (roundedMantissa_bounds _).2.trans (kept_lt mantissa exponent)
  have hleast : -149 ≤ singleExponent mantissa exponent := le_max_right _ _
  revert hle hleast
  generalize (keptMantissa mantissa exponent).roundedMantissa = rounded
  generalize singleExponent mantissa exponent = least
  intro hle hleast
  have hcarry := toNat_singleExponent hle hleast
  rw [shiftToTargetExponent_eq]
  dsimp only
  have hkept : (keptMantissa rounded least).mantissa = 0 ↔ rounded = 0 := by
    rw [keptMantissa, mantissa_shift, hcarry]
    split_ifs
    · simp
    · obtain rfl : rounded = 2 ^ 24 := by omega
      decide
  by_cases hzero : rounded = 0
  · rw [dif_pos (hkept.2 hzero)]
    cases sign <;> simp [hzero] <;> decide
  · rw [dif_neg (mt hkept.1 hzero), isFinite_unpack_pack, hcarry, or_iff_right hzero]

/-- So it has to lie below half way to the power of two after the last float. -/
theorem IsDouble.isFinite_round_iff (h : IsDouble mantissa exponent) (sign : Sign) :
    (unpack .binary32 (pack .binary32
        (UnpackedFloat.round .binary32 sign mantissa exponent))).isFinite = true ↔
      exponent < 75 ∨ exponent = 75 ∧ mantissa < 33554431 * 2 ^ 28 := by
  have hdrop := h.add_le
  have hlog := h.log2_le
  rw [h.isFinite_round]
  rcases lt_trichotomy exponent 75 with hlow | hlast | hhigh
  · -- far enough below the last exponent for one more bit
    have hsingle : singleExponent mantissa exponent ≤ 103 := by
      unfold singleExponent
      omega
    refine iff_of_true (.inr ?_) (.inl hlow)
    split_ifs <;> omega
  · -- at the last exponent the dropped bits decide
    have hfull : 2 ^ 52 ≤ mantissa := h.full.resolve_right (by omega)
    have hsingle : singleExponent mantissa exponent = 104 := by
      have hlog : mantissa.log2 = 52 :=
        Nat.le_antisymm hlog ((Nat.le_log2 h.pos.ne').2 hfull)
      unfold singleExponent
      omega
    have hkept : keptMantissa mantissa exponent =
        (⟨mantissa, false, false⟩ : ExtendedMantissa) >>> 29 := by
      rw [keptMantissa, hsingle, hlast]
      rfl
    have hmantissa := mantissa_shift ⟨mantissa, false, false⟩ 29
    have hdropped := roundBit_shift ⟨mantissa, false, false⟩ 28
    have hlt := kept_lt mantissa exponent
    rw [← hkept] at hmantissa hdropped
    dsimp only at hmantissa hdropped
    have hrounded : (keptMantissa mantissa exponent).roundedMantissa < 2 ^ 24 ↔
        mantissa < 33554431 * 2 ^ 28 := by
      by_cases hones : (keptMantissa mantissa exponent).mantissa = 2 ^ 24 - 1
      · rw [roundedMantissa_of_odd (by rw [hones]; decide), hdropped, hones]
        simp only [bne_iff_ne]
        split_ifs <;> omega
      · have hle := (roundedMantissa_bounds (keptMantissa mantissa exponent)).2
        refine iff_of_true ?_ ?_ <;> omega
    have hpos := (roundedMantissa_bounds (keptMantissa mantissa exponent)).1
    rw [hsingle, ← hrounded]
    split_ifs <;> omega
  · -- above it no float is left
    have hfull : 2 ^ 52 ≤ mantissa := h.full.resolve_right (by omega)
    have hkept : 0 < (keptMantissa mantissa exponent).mantissa := by
      rw [keptMantissa, mantissa_shift]
      refine Nat.div_pos ((Nat.pow_le_pow_right (by decide) ?_).trans hfull) (by positivity)
      unfold singleExponent
      omega
    have hrounded := (roundedMantissa_bounds (keptMantissa mantissa exponent)).1
    refine iff_of_false ?_ ?_
    · rintro (hzero | hle)
      · omega
      · omega
    · omega

end Double

/-! ### The limit -/

theorem unpack_singleLimit :
    singleLimit.toModel.unpack = .finite .positive (33554431 * 2 ^ 28) 75 (by decide) := by
  have hbits : singleLimit.toModel.toBits = 0x47EFFFFFF0000000 := by decide +kernel
  rw [Float.Model.unpack, hbits]
  rfl

theorem unpack_neg_singleLimit :
    (-singleLimit).toModel.unpack = .finite .negative (33554431 * 2 ^ 28) 75 (by decide) := by
  have hbits : (-singleLimit).toModel.toBits = 0xC7EFFFFFF0000000 := by decide +kernel
  rw [Float.Model.unpack, hbits]
  rfl

theorem float_lt_iff {x y : Float} :
    x < y ↔ x.toModel.unpack.compare y.toModel.unpack = some .lt :=
  decide_eq_true_iff.trans beq_iff_eq

/-- A number is finite in single precision if and only if it lies below the limit in size. -/
theorem isFinite_toSingle_iff {x : Float} :
    (toSingle x).isFinite = true ↔ -singleLimit < x ∧ x < singleLimit := by
  rw [float_lt_iff, float_lt_iff, unpack_singleLimit, unpack_neg_singleLimit]
  unfold toSingle
  cases hx : x.toModel.unpack with
  | notANumber =>
    simp [UnpackedFloat.compare]
    decide
  | infinity sign =>
    cases sign <;> simp [UnpackedFloat.compare] <;> decide
  | zero sign =>
    cases sign <;> simp [UnpackedFloat.compare] <;> decide
  | finite sign mantissa exponent hpos =>
    refine ((isDouble_of_unpack hx).isFinite_round_iff sign).trans ?_
    cases sign with
    | positive => simp [UnpackedFloat.compare, Ordering.then_eq_lt, compare_lt_iff_lt]
    | negative =>
      simp [UnpackedFloat.compare, Ordering.then_eq_gt, compare_gt_iff_gt]
      omega

end Marionette
