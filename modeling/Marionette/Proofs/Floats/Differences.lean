import Mathlib
import Marionette.Proofs.Floats.Nearest

/-!
# Differences of doubles

All doubles are multiples of the least positive one, and so are their differences.  A difference
that is not zero is therefore not rounded to zero, however small it is; one that is too large
becomes infinite.

- `exists_round_eq`: a multiple of the least double is rounded to a mantissa that is not zero.
- `zero_compare_pack`: what has such a mantissa is stored as a double above zero, or as infinity.
- `float_sub_pos`: a larger double minus a smaller one is above zero.
-/

namespace Marionette

open Float.Model (Format UnpackedFloat totalExponent)
open Float.Model.UnpackedFloat

variable {x y : Float} {m : Nat} {e scale : Int}

/-! ### Rounding multiples of the least double -/

/-- The first bits of a multiple of the least double are kept, up to 53 of them. -/
theorem exists_shift_decreased (hm : 0 < m) (hleast : -1074 ≤ e)
    (hscale : max (m.log2 + e - 52) (-1074) = scale) :
    ∃ em, shiftToTargetExponent .binary64 (decreaseExponent m e scale).1
        (decreaseExponent m e scale).2 .exact = (em, scale) ∧
      0 < em.mantissa ∧ em.mantissa < 2 ^ 53 := by
  obtain ⟨up, hup⟩ : ∃ up, (e - scale).toNat = up := ⟨_, rfl⟩
  obtain ⟨down, hdown⟩ : ∃ down, (scale - (e - (up : Int))).toNat = down := ⟨_, rfl⟩
  -- Zeros at the end do not change the exponent of the first bit.
  have hlog : (m <<< up).log2 = m.log2 + up := by
    rw [Nat.shiftLeft_eq]
    refine log2_eq_of_bounds ?_ ?_
    · rw [pow_add]
      exact Nat.mul_le_mul_right _ (Nat.log2_self_le hm.ne')
    · rw [add_right_comm, pow_add]
      exact Nat.mul_lt_mul_of_pos_right Nat.lt_log2_self (Nat.two_pow_pos up)
  have htarget : max (((m <<< up).log2 : Int) + (e - up) - 52) (-1074) = scale := by
    rw [hlog]
    omega
  have hne : m <<< up ≠ 0 := by
    rw [Nat.shiftLeft_eq]
    positivity
  rw [decreaseExponent]
  dsimp only
  rw [hup, shiftToTargetExponent, shiftToExponent, targetExponent_binary64, htarget, hdown]
  refine ⟨_, Prod.ext rfl (by show e - up + down = scale; omega), ?_⟩
  rw [mantissa_shift]
  show 0 < m <<< up / 2 ^ down ∧ m <<< up / 2 ^ down < 2 ^ 53
  constructor
  · have hle : down ≤ (m <<< up).log2 := by omega
    exact Nat.div_pos ((Nat.pow_le_pow_right (by decide) hle).trans (Nat.log2_self_le hne))
      (Nat.two_pow_pos down)
  · have hle : (m <<< up).log2 + 1 ≤ down + 53 := by omega
    refine Nat.div_lt_of_lt_mul (Nat.lt_log2_self.trans_le ?_)
    rw [← pow_add]
    exact Nat.pow_le_pow_right (by decide) hle

/-- A mantissa that has become a power of two by rounding loses a zero. -/
theorem exists_shift_rounded {rounded : Nat} (hpos : 0 < rounded) (hle : rounded ≤ 2 ^ 53)
    (hleast : -1074 ≤ scale) :
    ∃ em d, shiftToTargetExponent .binary64 rounded scale .exact = (em, d) ∧ 0 < em.mantissa ∧
      em.mantissa < 2 ^ 53 ∧ scale ≤ d := by
  rw [shiftToTargetExponent, shiftToExponent, targetExponent_binary64]
  refine ⟨_, _, rfl, ?_⟩
  rw [mantissa_shift]
  show 0 < rounded / 2 ^ _ ∧ rounded / 2 ^ _ < 2 ^ 53 ∧ _
  rcases hle.lt_or_eq with hlt | rfl
  · have hlog : rounded.log2 < 53 := (Nat.log2_lt hpos.ne').2 hlt
    rw [show (max ((rounded.log2 : Int) + scale - 52) (-1074) - scale).toNat = 0 by omega]
    omega
  · rw [Nat.log2_two_pow,
      show (max (((53 : Nat) : Int) + scale - 52) (-1074) - scale).toNat = 1 by omega]
    omega

/-- A multiple of the least double is rounded to a mantissa that is not zero. -/
theorem exists_round_eq (sign : Sign) (hm : 0 < m) (hleast : -1074 ≤ e) :
    ∃ n d hn, UnpackedFloat.round .binary64 sign m e = .finite sign n d hn ∧ n < 2 ^ 53 ∧
      -1074 ≤ d := by
  obtain ⟨scale, hscale⟩ : ∃ scale, max ((m.log2 : Int) + e - 52) (-1074) = scale := ⟨_, rfl⟩
  obtain ⟨em, hem, hpos, hlt⟩ := exists_shift_decreased hm hleast hscale
  obtain ⟨hdown, hup⟩ := roundedMantissa_bounds em
  obtain ⟨last, d, hlast, hlastPos, hlastLt, hd⟩ :=
    exists_shift_rounded (hpos.trans_le hdown) (hup.trans hlt) (by omega : -1074 ≤ scale)
  refine ⟨last.mantissa, d, hlastPos, ?_, hlastLt, by omega⟩
  rw [UnpackedFloat.round, targetExponent_binary64, hscale]
  dsimp only
  rw [roundWithAccuracy, hem]
  dsimp only
  rw [hlast]
  exact dif_neg hlastPos.ne'

/-! ### Storing what is above zero -/

/-- What is stored with a positive sign, and neither as zero nor as what is no number, lies above
zero. -/
theorem zero_compare_unpack {b : BitVec 64} (hsign : @unpackSign .binary64 b = 0#1)
    (hlast : @unpackExponent .binary64 b = -1#11 → @unpackMantissa .binary64 b = 0#52)
    (hfirst : @unpackExponent .binary64 b = 0#11 → @unpackMantissa .binary64 b ≠ 0#52) :
    UnpackedFloat.compare (.zero .positive) (unpack .binary64 b) = some .lt := by
  have hpositive : Sign.ofBitVec 0#1 = .positive := rfl
  unfold unpack
  dsimp only
  rw [hsign, hpositive]
  split_ifs with hones hnone hzero hempty
  · rfl
  · exact absurd (hlast hones) hnone
  · exact absurd hempty (hfirst hzero)
  · rfl
  · rfl

/-- A mantissa that is not zero is stored as a double above zero, or as infinity if its exponent is
too high. -/
theorem zero_compare_pack (hm : 0 < m) (hlt : m < 2 ^ 53) (hleast : -1074 ≤ e) :
    UnpackedFloat.compare (.zero .positive)
      (unpack .binary64 (pack .binary64 (.finite .positive m e hm))) = some .lt := by
  have hbias : ((Format.binary64.exponentBias : Nat) : Int) = 1023 := rfl
  obtain ⟨b, hb⟩ : ∃ b, (e + 1023 + ((52 : Nat) : Int)).toNat = b := ⟨_, rfl⟩
  rw [pack]
  dsimp only
  rw [hbias, hb]
  split_ifs with hlarge hfull
  · -- infinity
    refine zero_compare_unpack (unpackSign_packComponents ..)
      (fun _ => unpackMantissa_packComponents ..) fun h => ?_
    rw [packedInfinity, unpackExponent_packComponents] at h
    cases h
  · -- with the first bit
    have hexponent : (BitVec.ofNat 11 b).toNat = b := by
      rw [BitVec.toNat_ofNat]
      omega
    refine zero_compare_unpack (unpackSign_packComponents ..) (fun h => ?_) fun h => ?_
    · rw [unpackExponent_packComponents] at h
      have hones := congrArg BitVec.toNat h
      rw [hexponent] at hones
      have : (-1#11).toNat = 2047 := rfl
      omega
    · rw [unpackExponent_packComponents] at h
      have hzero := congrArg BitVec.toNat h
      rw [hexponent] at hzero
      have : (0#11).toNat = 0 := rfl
      omega
  · -- without the first bit
    have hsmall : m < 2 ^ 52 := by
      by_contra hge
      exact hfull (congrArg (· + 1) (log2_eq_of_bounds (not_lt.1 hge) hlt))
    refine zero_compare_unpack (unpackSign_packComponents ..) (fun h => ?_) fun _ h => ?_
    · rw [unpackExponent_packComponents] at h
      cases h
    · rw [unpackMantissa_packComponents] at h
      have hzero := congrArg BitVec.toNat h
      rw [BitVec.toNat_ofNat, Nat.mod_eq_of_lt hsmall] at hzero
      exact hm.ne' hzero

/-! ### Differences -/

/-- A lower exponent leaves the number of a mantissa with a sign as it is. -/
theorem apply_decreaseExponent (sign : Sign) (m : Nat) {d : Int} (h : d ≤ e) :
    ((sign.apply (decreaseExponent m e d).1 : Int) : ℚ) * 2 ^ d = (sign.apply m : Int) * 2 ^ e := by
  have hsame := decreaseExponent_mul m h
  cases sign with
  | positive =>
    show (((decreaseExponent m e d).1 : Int) : ℚ) * 2 ^ d = ((m : Int) : ℚ) * 2 ^ e
    rwa [Int.cast_natCast, Int.cast_natCast]
  | negative =>
    show ((-((decreaseExponent m e d).1 : Int) : Int) : ℚ) * 2 ^ d =
      ((-(m : Int) : Int) : ℚ) * 2 ^ e
    rw [Int.cast_neg, Int.cast_neg, Int.cast_natCast, Int.cast_natCast, neg_mul, neg_mul, hsame]

/-- A positive multiple of the least double stays above zero when it is rounded. -/
theorem zero_compare_normalize {k : Int} (hk : 0 < k) (hleast : -1074 ≤ e) :
    UnpackedFloat.compare (.zero .positive)
      (Float.Model.pack (UnpackedFloat.normalize .binary64 k e .positive)).unpack = some .lt := by
  obtain ⟨n, d, hn, hround, hlt, hd⟩ :=
    exists_round_eq .positive (Int.lt_toNat.2 hk : 0 < k.toNat) hleast
  rw [UnpackedFloat.normalize, compare_gt_iff_gt.2 hk]
  dsimp only
  rw [hround]
  exact zero_compare_pack hn hlt hd

/-- A larger double minus a smaller one is above zero. -/
theorem float_sub_pos (hx : x.isFinite = true) (hy : y.isFinite = true) (h : x < y) :
    0 < y - x := by
  rw [float_lt_iff_number hx hy] at h
  rw [float_lt_iff, unpack_zero]
  show UnpackedFloat.compare _ (Float.Model.pack
    (UnpackedFloat.sub .binary64 y.toModel.unpack x.toModel.unpack)).unpack = _
  rcases unpack_of_isFinite hx with ⟨sign, hux, hzero⟩ | ⟨sign, m, d, hm, hux, hdouble, hx'⟩
  · rw [hzero] at h
    obtain ⟨n, e, hn, huy, hdouble, -⟩ := exists_unpack_of_number_pos h
    rw [hux, huy]
    exact zero_compare_pack hn hdouble.mantissa_lt hdouble.le_exponent
  rcases unpack_of_isFinite hy with ⟨sign', huy, hzero⟩ | ⟨sign', n, e, hn, huy, hdouble', hy'⟩
  · rw [hzero, hx'] at h
    rw [hux, huy]
    cases sign with
    | negative => exact zero_compare_pack hm hdouble.mantissa_lt hdouble.le_exponent
    | positive => exact absurd h (mantissa_pow_pos hm d).not_gt
  · rw [hux, huy]
    refine zero_compare_normalize ?_ (le_min hdouble'.le_exponent hdouble.le_exponent)
    have hpos : (0 : ℚ) < 2 ^ min e d := zpow_pos (by norm_num) _
    rw [hx', hy', ← apply_decreaseExponent sign m (min_le_right e d),
      ← apply_decreaseExponent sign' n (min_le_left e d), mul_lt_mul_iff_left₀ hpos,
      Int.cast_lt] at h
    exact Int.sub_pos.2 h

end Marionette
