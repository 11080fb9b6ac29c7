import Mathlib
import Marionette.Proofs.Floats.Order

/-!
# Rounding to the nearest double

A number between two powers of two is rounded to a mantissa of 53 bits, at most half a step away.

- `Reads`: what a mantissa, its round bit and its sticky bit say of a number; `Reads.shift`: this
  stays so when bits are dropped.
- `IsRounded`: a double is a number rounded, for a number with a given step.
- `isRounded_div`, `isRounded_add`, `isRounded_sub`, `isRounded_mul`: operations; `number_toFloat`:
  natural numbers.
- `IsRounded.number_eq`: what has no bits below the step is not changed.
-/

namespace Marionette

open Float.Model (Format UnpackedFloat totalExponent)
open Float.Model.UnpackedFloat

/-! ### Dropping bits -/

/-- What a mantissa with its round bit and its sticky bit says of a number. -/
def Reads (em : ExtendedMantissa) (q : ℚ) : Prop :=
  match em with
  | ⟨mantissa, false, false⟩ => q = mantissa
  | ⟨mantissa, false, true⟩ => mantissa < q ∧ q < mantissa + 1 / 2
  | ⟨mantissa, true, false⟩ => q = mantissa + 1 / 2
  | ⟨mantissa, true, true⟩ => mantissa + 1 / 2 < q ∧ q < mantissa + 1

namespace Reads

variable {em : ExtendedMantissa} {q : ℚ}

theorem shiftRightOne (h : Reads em q) : Reads em.shiftRightOne (q / 2) := by
  obtain ⟨mantissa, roundBit, stickyBit⟩ := em
  obtain ⟨half, bit, rfl⟩ : ∃ half, ∃ bit : Bool, mantissa = 2 * half + bit.toNat := by
    rcases Nat.even_or_odd' mantissa with ⟨half, heven | hodd⟩
    · exact ⟨half, false, heven⟩
    · exact ⟨half, true, hodd⟩
  have hdiv : (2 * half + bit.toNat) / 2 = half := by cases bit <;> simp; omega
  have hmod : ((2 * half + bit.toNat) % 2 != 0) = bit := by cases bit <;> simp [Nat.add_mod]
  rw [ExtendedMantissa.shiftRightOne]
  dsimp only
  rw [hdiv, hmod]
  -- the last bit of the mantissa is the new round bit, and the old one becomes sticky
  cases bit <;> cases roundBit <;> cases stickyBit <;>
    simp only [Reads, Bool.toNat, cond_true, cond_false, Bool.or_self, Bool.or_true,
      Bool.true_or] at h ⊢ <;> push_cast at h <;> first | linarith | constructor <;> linarith

/-- Dropping bits divides the number. -/
theorem shift (h : Reads em q) (n : Nat) : Reads (em >>> n) (q / 2 ^ n) := by
  induction n with
  | zero =>
    rw [pow_zero, div_one]
    exact h
  | succ n ih =>
    rw [pow_succ, ← div_div]
    exact ih.shiftRightOne

/-- The mantissa is the number without its fraction. -/
theorem mantissa_le (h : Reads em q) : (em.mantissa : ℚ) ≤ q ∧ q < em.mantissa + 1 := by
  obtain ⟨mantissa, roundBit, stickyBit⟩ := em
  cases roundBit <;> cases stickyBit <;> simp only [Reads] at h ⊢ <;> constructor <;> linarith

/-- The rounded mantissa is at most half away. -/
theorem roundedMantissa_near (h : Reads em q) : |(em.roundedMantissa : ℚ) - q| ≤ 1 / 2 := by
  obtain ⟨mantissa, roundBit, stickyBit⟩ := em
  rw [abs_le]
  cases roundBit <;> cases stickyBit <;>
    simp only [Reads, ExtendedMantissa.roundedMantissa, ExtendedMantissa.accuracy,
      Accuracy.roundToNearestEven] at h ⊢
  · constructor <;> linarith
  · constructor <;> linarith
  · -- a tie is rounded up or down
    rcases Nat.mod_two_eq_zero_or_one mantissa with heven | hodd
    · rw [heven, Nat.add_zero]
      constructor <;> linarith
    · rw [hodd]
      push_cast
      constructor <;> linarith
  · push_cast
    constructor <;> linarith

end Reads

/-! ### Rounding a number with a given step -/

section Round

variable {m : Nat} {e scale : Int} {accuracy : Accuracy} {q : ℚ}

/-- A number that has 53 bits before the point when it is counted in steps of size `2 ^ scale`. -/
structure HasStep (q : ℚ) (scale : Int) : Prop where
  least_le : -1074 ≤ scale
  le_last : scale ≤ 970
  low : 2 ^ (scale + 52) ≤ q
  high : q < 2 ^ (scale + 53)

theorem HasStep.pos (h : HasStep q scale) : 0 < q :=
  (zpow_pos (by norm_num) _).trans_le h.low

/-- The number counted in steps. -/
theorem HasStep.steps (h : HasStep q scale) : 2 ^ 52 ≤ q / 2 ^ scale ∧ q / 2 ^ scale < 2 ^ 53 := by
  have hpos : (0 : ℚ) < 2 ^ scale := zpow_pos (by norm_num) scale
  have hlow := h.low
  have hhigh := h.high
  rw [zpow_add₀ (by norm_num)] at hlow hhigh
  rw [le_div_iff₀ hpos, div_lt_iff₀ hpos]
  constructor
  · exact_mod_cast (mul_comm _ _).trans_le hlow
  · exact_mod_cast hhigh.trans_eq (mul_comm _ _)

/-- Numbers that are not too far from one have a step, which is what 53 bits leave of them. -/
theorem exists_hasStep (hlow : 1 / 2 ^ 60 ≤ q) (hhigh : q < 2 ^ 60) :
    ∃ scale, HasStep q scale ∧ 2 ^ scale ≤ q / 2 ^ 52 := by
  have hpos : 0 < q := lt_of_lt_of_le (by norm_num) hlow
  have hfirst : -60 ≤ Int.log 2 q := by
    refine (Int.zpow_le_iff_le_log (by norm_num) hpos).1 ?_
    norm_num at hlow ⊢
    exact hlow
  have hlast : Int.log 2 q < 60 := by
    refine (Int.lt_zpow_iff_log_lt (by norm_num) hpos).1 ?_
    norm_num at hhigh ⊢
    exact hhigh
  have hbelow := Int.zpow_log_le_self (b := 2) (by norm_num) hpos
  have habove := Int.lt_zpow_succ_log_self (b := 2) (by norm_num) q
  have hstep : HasStep q (Int.log 2 q - 52) := by
    refine ⟨by omega, by omega, ?_, ?_⟩
    · rw [sub_add_cancel]
      exact_mod_cast hbelow
    · rw [show Int.log 2 q - 52 + 53 = Int.log 2 q + 1 by ring]
      exact_mod_cast habove
  refine ⟨_, hstep, ?_⟩
  rw [le_div_iff₀ (by positivity), ← zpow_natCast, ← zpow_add₀ (by norm_num)]
  exact hstep.low

theorem log2_eq_of_bounds {k : Nat} (hlow : 2 ^ k ≤ m) (hhigh : m < 2 ^ (k + 1)) : m.log2 = k :=
  (Nat.log2_eq_iff (Nat.pos_of_ne_zero fun h => by simp [h] at hlow).ne').2 ⟨hlow, hhigh⟩

/-- The exponent of a number that is rounded: 53 bits are left of it, or fewer if it is too small
for that. -/
theorem targetExponent_binary64 (m : Nat) (e : Int) :
    Format.binary64.targetExponent (totalExponent m e) = max (m.log2 + e - 52) (-1074) := by
  have hbits : ((Format.binary64.mantissaBits : Nat) : Int) = 53 := rfl
  have hmin : Format.binary64.minExponent = -1074 := rfl
  rw [Format.targetExponent, totalExponent, hbits, hmin]
  congr 1
  omega

/-- Shifting to 53 bits. -/
theorem shiftToTargetExponent_binary64 (hlog : (m.log2 : Int) + e = scale + 52)
    (hleast : -1074 ≤ scale) (hle : e ≤ scale) :
    shiftToTargetExponent .binary64 m e accuracy =
      (ExtendedMantissa.ofMantissaAndAccuracy m accuracy >>> (scale - e).toNat, scale) := by
  have htarget : Format.binary64.targetExponent (totalExponent m e) = scale := by
    rw [targetExponent_binary64]
    omega
  have hlast : e + ((scale - e).toNat : Int) = scale := by omega
  rw [shiftToTargetExponent, htarget, shiftToExponent, hlast]

/-- The first bit of a number says what its step is. -/
theorem HasStep.eq_of_bounds (h : HasStep q scale) {first : Int} (hlow : 2 ^ first ≤ q)
    (hhigh : q < 2 ^ (first + 1)) : first = scale + 52 := by
  have hlt : first < scale + 53 :=
    (zpow_lt_zpow_iff_right₀ (by norm_num)).1 (hlow.trans_lt h.high)
  have hgt : scale + 52 < first + 1 :=
    (zpow_lt_zpow_iff_right₀ (by norm_num)).1 (h.low.trans_lt hhigh)
  omega

/-- The first bit of a number is the one of its mantissa. -/
theorem HasStep.log2_eq (h : HasStep q scale) (hm : 0 < m) (hlow : m * 2 ^ e ≤ q)
    (hhigh : q < (m + 1 : ℕ) * 2 ^ e) : (m.log2 : Int) + e = scale + 52 := by
  have hpos : (0 : ℚ) < 2 ^ e := zpow_pos (by norm_num) e
  have hfloor : ((2 ^ m.log2 : ℕ) : ℚ) ≤ m := Nat.cast_le.2 (Nat.log2_self_le hm.ne')
  have hceil : ((m + 1 : ℕ) : ℚ) ≤ (2 ^ (m.log2 + 1) : ℕ) := Nat.cast_le.2 Nat.lt_log2_self
  push_cast at hfloor hceil
  refine h.eq_of_bounds ?_ ?_
  · rw [zpow_add₀ (by norm_num), zpow_natCast]
    exact (mul_le_mul_of_nonneg_right hfloor hpos.le).trans hlow
  · rw [show (m.log2 : Int) + e + 1 = (m.log2 + 1 : ℕ) + e by push_cast; ring,
      zpow_add₀ (by norm_num), zpow_natCast]
    push_cast at hhigh
    exact hhigh.trans_le (mul_le_mul_of_nonneg_right hceil hpos.le)

/-- Bits of a number that are counted in parts of a step. -/
theorem Reads.log2_eq (h : Reads (.ofMantissaAndAccuracy m accuracy) (q / 2 ^ e))
    (hstep : HasStep q scale) (hle : e ≤ scale) : (m.log2 : Int) + e = scale + 52 := by
  have hmantissa : (ExtendedMantissa.ofMantissaAndAccuracy m accuracy).mantissa = m := by
    cases accuracy with
    | exact => rfl
    | inexact o => cases o <;> rfl
  have hpos : (0 : ℚ) < 2 ^ e := zpow_pos (by norm_num) e
  obtain ⟨hfloor, hceil⟩ := h.mantissa_le
  rw [hmantissa, le_div_iff₀ hpos] at hfloor
  rw [hmantissa, div_lt_iff₀ hpos] at hceil
  have hm : 0 < m := by
    rcases Nat.eq_zero_or_pos m with rfl | hm
    · have hle : (2 : ℚ) ^ e ≤ 2 ^ (scale + 52) := zpow_le_zpow_right₀ (by norm_num) (by omega)
      have hlow := hstep.low
      norm_num at hceil
      linarith
    · exact hm
  refine hstep.log2_eq hm hfloor ?_
  push_cast
  exact hceil

/-- Counted in steps, a number has a full mantissa. -/
theorem Reads.mantissa_full {em : ExtendedMantissa} (h : Reads em (q / 2 ^ scale))
    (hstep : HasStep q scale) : 2 ^ 52 ≤ em.mantissa ∧ em.mantissa < 2 ^ 53 := by
  obtain ⟨hfloor, hceil⟩ := h.mantissa_le
  obtain ⟨hlow, hhigh⟩ := hstep.steps
  constructor
  · have hlt : ((2 ^ 52 : ℕ) : ℚ) < (em.mantissa + 1 : ℕ) := by
      push_cast
      exact hlow.trans_lt hceil
    exact Nat.le_of_lt_succ (by exact_mod_cast hlt)
  · have hlt : (em.mantissa : ℚ) < (2 ^ 53 : ℕ) := by
      push_cast
      exact hfloor.trans_lt hhigh
    exact_mod_cast hlt

/-- The rounded mantissa is at most half a step away. -/
theorem Reads.roundedMantissa_mul_near {em : ExtendedMantissa} (h : Reads em (q / 2 ^ scale)) :
    |(em.roundedMantissa : ℚ) * 2 ^ scale - q| ≤ 2 ^ scale / 2 := by
  have hpos : (0 : ℚ) < 2 ^ scale := zpow_pos (by norm_num) scale
  have hnear := h.roundedMantissa_near
  have hscaled : (em.roundedMantissa : ℚ) * 2 ^ scale - q =
      (em.roundedMantissa - q / 2 ^ scale) * 2 ^ scale := by
    field_simp
  rw [hscaled, abs_mul, abs_of_pos hpos]
  linarith [mul_le_mul_of_nonneg_right hnear hpos.le]

/-- A number is rounded to a full mantissa, at most half a step away. -/
theorem exists_roundWithAccuracy (sign : Sign) (hstep : HasStep q scale) (hle : e ≤ scale)
    (h : Reads (.ofMantissaAndAccuracy m accuracy) (q / 2 ^ e)) :
    ∃ n d hn, roundWithAccuracy .binary64 sign m e accuracy = .finite sign n d hn ∧
      2 ^ 52 ≤ n ∧ n < 2 ^ 53 ∧ scale ≤ d ∧ d ≤ scale + 1 ∧
      |(n : ℚ) * 2 ^ d - q| ≤ 2 ^ scale / 2 := by
  have hshifted : Reads (ExtendedMantissa.ofMantissaAndAccuracy m accuracy >>> (scale - e).toNat)
      (q / 2 ^ scale) := by
    have hdrop := h.shift (scale - e).toNat
    rwa [div_div, ← zpow_natCast, ← zpow_add₀ (by norm_num),
      show e + ((scale - e).toNat : Int) = scale by omega] at hdrop
  rw [roundWithAccuracy,
    shiftToTargetExponent_binary64 (h.log2_eq hstep hle) hstep.least_le hle]
  dsimp only
  generalize ExtendedMantissa.ofMantissaAndAccuracy m accuracy >>> (scale - e).toNat = em
    at hshifted
  obtain ⟨hfull, hbits⟩ := hshifted.mantissa_full hstep
  obtain ⟨hdown, hup⟩ := roundedMantissa_bounds em
  have hnear := hshifted.roundedMantissa_mul_near
  revert hdown hup hnear
  generalize em.roundedMantissa = r
  intro hdown hup hnear
  by_cases hcarry : r < 2 ^ 53
  · have hlog := log2_eq_of_bounds (hfull.trans hdown) hcarry
    rw [shiftToTargetExponent_binary64 (by rw [hlog]; omega) hstep.least_le le_rfl, Int.sub_self]
    have hne : r ≠ 0 := by omega
    exact ⟨r, scale, by omega, dif_neg hne, by omega, hcarry, le_rfl, by omega, hnear⟩
  · -- The mantissa has become a power of two and loses a zero.
    obtain rfl : r = 2 ^ 53 := by omega
    have hleast := hstep.least_le
    have hlog : ((2 ^ 53 : ℕ).log2 : Int) + scale = scale + 1 + 52 := by
      rw [Nat.log2_two_pow]
      omega
    rw [shiftToTargetExponent_binary64 hlog (by omega) (by omega),
      show (scale + 1 - scale).toNat = 1 by omega]
    have hne : (ExtendedMantissa.ofMantissaAndAccuracy (2 ^ 53) .exact >>> 1).mantissa ≠ 0 := by
      decide
    refine ⟨2 ^ 52, scale + 1, by decide, dif_neg hne, le_rfl, by decide, by omega, le_rfl, ?_⟩
    rw [zpow_add_one₀ (by norm_num)]
    convert hnear using 2
    push_cast
    ring

end Round

/-! ### Rounded doubles -/

/-- A double with a full mantissa is stored as it is. -/
theorem unpack_pack_of_full {m : Nat} {e : Int} (sign : Sign) (hm : 0 < m) (hfull : 2 ^ 52 ≤ m)
    (hlt : m < 2 ^ 53) (hleast : -1074 ≤ e) (hlast : e ≤ 971) :
    (Float.Model.pack (.finite sign m e hm)).unpack = .finite sign m e hm := by
  have hbias : ((Format.binary64.exponentBias : Nat) : Int) = 1023 := rfl
  have hlog : m.log2 + 1 = Format.binary64.mantissaBits := by
    rw [log2_eq_of_bounds hfull hlt]
    rfl
  -- the biased exponent lies between those of zero and of infinity
  obtain ⟨b, hb⟩ : ∃ b, (e + 1023 + ((52 : Nat) : Int)).toNat = b := ⟨_, rfl⟩
  have hlarge : ¬2 ^ 11 ≤ b + 1 := by omega
  have hpack : pack .binary64 (.finite sign m e hm) =
      packComponents .binary64 sign (BitVec.ofNat 11 b) (BitVec.ofNat 52 m) := by
    rw [pack]
    dsimp only
    rw [hbias, hb, if_neg hlarge, if_pos hlog]
  have hexponent : (BitVec.ofNat 11 b).toNat = b := by
    rw [BitVec.toNat_ofNat]
    omega
  have hones : BitVec.ofNat 11 b ≠ -1#11 := by
    intro h
    have hlast := congrArg BitVec.toNat h
    rw [hexponent] at hlast
    have : (-1#11).toNat = 2047 := rfl
    omega
  have hzero : BitVec.ofNat 11 b ≠ 0#11 := by
    intro h
    have hfirst := congrArg BitVec.toNat h
    rw [hexponent] at hfirst
    have : (0#11).toNat = 0 := rfl
    omega
  -- the leading bit is not stored, and added again
  have hmantissa : (1#1 ++ BitVec.ofNat 52 m).toNat = m := by
    have hone : (1#1).toNat <<< 52 = 2 ^ 52 := by decide
    rw [BitVec.toNat_append, ← Nat.shiftLeft_add_eq_or_of_lt (BitVec.isLt _), hone,
      BitVec.toNat_ofNat]
    omega
  have hsign : Sign.ofBitVec sign.toBitVec = sign := by cases sign <;> rfl
  have hreal : (b : Int) - (1023 + (52 : Nat)) = e := by omega
  have hunpack : unpack .binary64 (packComponents .binary64 sign (BitVec.ofNat 11 b)
      (BitVec.ofNat 52 m)) = .finite sign m e hm := by
    simp only [unpack, unpackExponent_packComponents, unpackMantissa_packComponents,
      unpackSign_packComponents, if_neg hones, if_neg hzero, hexponent, hbias, hsign, hmantissa,
      hreal]
  exact (congrArg (unpack .binary64) hpack).trans hunpack

/-- A double that a number with a given step is rounded to. -/
structure IsRounded (x : Float) (q : ℚ) (scale : Int) : Prop where
  /-- The step of the double is at least the one of the number. -/
  exists_eq : ∃ m e, IsDouble m e ∧ number x = m * 2 ^ e ∧ scale ≤ e
  near : |number x - q| ≤ 2 ^ scale / 2

section Rounded

variable {x y : Float} {q : ℚ} {scale : Int}

theorem IsRounded.of_round {m : Nat} {e : Int} {accuracy : Accuracy} (hstep : HasStep q scale)
    (hle : e ≤ scale) (h : Reads (.ofMantissaAndAccuracy m accuracy) (q / 2 ^ e))
    (hx : x.toModel = .pack (roundWithAccuracy .binary64 .positive m e accuracy)) :
    IsRounded x q scale := by
  obtain ⟨n, d, hn, hround, hfull, hlt, hscale, hscale', hnear⟩ :=
    exists_roundWithAccuracy .positive hstep hle h
  have hleast := hstep.least_le
  have hlast := hstep.le_last
  have hnumber : number x = n * 2 ^ d := by
    rw [number, hx, hround, unpack_pack_of_full .positive hn hfull hlt (by omega) (by omega)]
    rfl
  refine ⟨⟨n, d, ⟨hn, hlt, by omega, .inl hfull⟩, hnumber, hscale⟩, ?_⟩
  rwa [hnumber]

theorem IsRounded.pos (h : IsRounded x q scale) : 0 < number x := by
  obtain ⟨m, e, hdouble, hx, -⟩ := h.exists_eq
  exact hx ▸ mantissa_pow_pos hdouble.pos e

/-- What has no bits below the step is not changed. -/
theorem IsRounded.number_eq (h : IsRounded x q scale) {n : Nat} (hq : q = n * 2 ^ scale) :
    number x = q := by
  obtain ⟨m, e, -, hx, hle⟩ := h.exists_eq
  have hpos : (0 : ℚ) < 2 ^ scale := zpow_pos (by norm_num) scale
  have hsteps : number x = (m * 2 ^ (e - scale).toNat : ℕ) * 2 ^ scale := by
    rw [hx, two_zpow_eq_mul hle]
    push_cast
    ring
  have hnear := h.near
  rw [hsteps, hq, ← sub_mul, abs_mul, abs_of_pos hpos] at hnear
  rw [hsteps, hq]
  -- Both are whole numbers of steps, and less than one step apart.
  have hlt : |((m * 2 ^ (e - scale).toNat : ℕ) - n : ℤ)| < 1 := by
    have hhalf : |((m * 2 ^ (e - scale).toNat : ℕ) : ℚ) - n| ≤ 1 / 2 := by
      refine le_of_mul_le_mul_right ?_ hpos
      linarith
    have : |(((m * 2 ^ (e - scale).toNat : ℕ) : ℤ) - n : ℚ)| < 1 := by
      push_cast at hhalf ⊢
      linarith
    exact_mod_cast this
  rw [Int.abs_lt_one_iff, sub_eq_zero] at hlt
  rw [Nat.cast_inj.1 hlt]

/-! ### Operations -/

/-- A mantissa with more zeros at its end and a lower exponent is the same number. -/
theorem decreaseExponent_mul (m : Nat) {e d : Int} (h : d ≤ e) :
    ((decreaseExponent m e d).1 : ℚ) * 2 ^ d = m * 2 ^ e := by
  rw [decreaseExponent]
  dsimp only
  rw [Nat.shiftLeft_eq, two_zpow_eq_mul h]
  push_cast
  ring

/-- The bits before the point, where there are none behind it. -/
theorem reads_exact (m : Nat) (e : Int) {q : ℚ} (hq : q = m * 2 ^ e) :
    Reads (.ofMantissaAndAccuracy m .exact) (q / 2 ^ e) := by
  have hpos : (0 : ℚ) < 2 ^ e := zpow_pos (by norm_num) e
  show q / 2 ^ e = m
  rw [hq, mul_div_cancel_right₀ _ hpos.ne']

/-- Mantissa and exponent of a number are rounded, whether there are too many bits or too few. -/
theorem isRounded_of_round {m : Nat} {e : Int} (hstep : HasStep q scale) (hq : q = m * 2 ^ e)
    (hx : x.toModel = .pack (UnpackedFloat.round .binary64 .positive m e)) :
    IsRounded x q scale := by
  have hpos : (0 : ℚ) < 2 ^ e := zpow_pos (by norm_num) e
  have hm : 0 < m := by
    rcases Nat.eq_zero_or_pos m with rfl | hm
    · rw [Nat.cast_zero, zero_mul] at hq
      exact absurd hq hstep.pos.ne'
    · exact hm
  have hlog : (m.log2 : Int) + e = scale + 52 := by
    refine hstep.log2_eq hm hq.ge ?_
    rw [hq]
    exact mul_lt_mul_of_pos_right (Nat.cast_lt.2 m.lt_succ_self) hpos
  have htarget : Format.binary64.targetExponent (totalExponent m e) = scale := by
    have hleast := hstep.least_le
    rw [targetExponent_binary64]
    omega
  rw [UnpackedFloat.round, htarget] at hx
  -- Fewer bits are filled up with zeros, more bits are left to be dropped.
  have hexponent : (decreaseExponent m e scale).2 = min e scale := by
    rw [decreaseExponent]
    dsimp only
    omega
  have hmantissa : ((decreaseExponent m e scale).1 : ℚ) * 2 ^ min e scale = q := by
    rcases le_total scale e with hle | hle
    · rw [min_eq_right hle, decreaseExponent_mul m hle, hq]
    · have hnone : (decreaseExponent m e scale).1 = m := by
        rw [decreaseExponent, show (e - scale).toNat = 0 by omega]
        rfl
      rw [min_eq_left hle, hnone, hq]
  refine IsRounded.of_round hstep (min_le_right e scale) (reads_exact _ _ hmantissa.symm) ?_
  rw [← hexponent]
  exact hx

/-- A positive number of steps is rounded. -/
theorem isRounded_of_normalize {k e : Int} (hstep : HasStep q scale) (hq : q = k * 2 ^ e)
    (hx : x.toModel = .pack (UnpackedFloat.normalize .binary64 k e .positive)) :
    IsRounded x q scale := by
  have hpos : (0 : ℚ) < 2 ^ e := zpow_pos (by norm_num) _
  have hk : 0 < k := by
    have hmul := hq ▸ hstep.pos
    exact_mod_cast pos_of_mul_pos_left hmul hpos.le
  rw [UnpackedFloat.normalize, compare_gt_iff_gt.2 hk] at hx
  refine isRounded_of_round hstep ?_ hx
  rw [hq, ← Int.cast_natCast, Int.toNat_of_nonneg hk.le]

theorem isRounded_sub (hy : 0 < number y) (hlt : number y < number x)
    (hstep : HasStep (number x - number y) scale) :
    IsRounded (x - y) (number x - number y) scale := by
  obtain ⟨m, e, hm, hux, -, hx'⟩ := exists_unpack_of_number_pos (hy.trans hlt)
  obtain ⟨n, d, hn, huy, -, hy'⟩ := exists_unpack_of_number_pos hy
  have hmodel : (x - y).toModel = .pack (UnpackedFloat.normalize .binary64
      (((decreaseExponent m e (min e d)).1 : Int) - (decreaseExponent n d (min e d)).1) (min e d)
      .positive) := by
    show Float.Model.pack (UnpackedFloat.sub .binary64 x.toModel.unpack y.toModel.unpack) = _
    rw [hux, huy]
    rfl
  refine isRounded_of_normalize hstep ?_ hmodel
  push_cast
  rw [sub_mul, decreaseExponent_mul m (min_le_left e d), decreaseExponent_mul n (min_le_right e d),
    hx', hy']

theorem isRounded_add (hx : 0 < number x) (hy : 0 < number y)
    (hstep : HasStep (number x + number y) scale) :
    IsRounded (x + y) (number x + number y) scale := by
  obtain ⟨m, e, hm, hux, -, hx'⟩ := exists_unpack_of_number_pos hx
  obtain ⟨n, d, hn, huy, -, hy'⟩ := exists_unpack_of_number_pos hy
  have hmodel : (x + y).toModel = .pack (UnpackedFloat.normalize .binary64
      (((decreaseExponent m e (min e d)).1 : Int) + (decreaseExponent n d (min e d)).1) (min e d)
      .positive) := by
    show Float.Model.pack (UnpackedFloat.add .binary64 x.toModel.unpack y.toModel.unpack) = _
    rw [hux, huy]
    rfl
  refine isRounded_of_normalize hstep ?_ hmodel
  push_cast
  rw [add_mul, decreaseExponent_mul m (min_le_left e d), decreaseExponent_mul n (min_le_right e d),
    hx', hy']

/-- Nothing is added to a number. -/
theorem zero_add_of_number_pos (hx : 0 < number x) : 0 + x = x := by
  obtain ⟨m, e, hm, hux, -, -⟩ := exists_unpack_of_number_pos hx
  have hmodel : (0 + x).toModel = .pack x.toModel.unpack := by
    show Float.Model.pack
      (UnpackedFloat.add .binary64 (0 : Float).toModel.unpack x.toModel.unpack) = _
    rw [unpack_zero, hux]
    rfl
  have hsame : (Float.ofBits x.toBits).toModel = .pack x.toModel.unpack := rfl
  calc 0 + x = Float.ofBits x.toBits := congrArg Float.ofModel (hmodel.trans hsame.symm)
    _ = x := Float.ofBits_toBits x

/-- The bits of a fraction: its quotient, and what the remainder says of the rest. -/
theorem reads_fraction (n : Nat) {k : Nat} (hk : 0 < k) :
    Reads (.ofMantissaAndAccuracy (n / k) (accuracyOfFraction (n % k) k)) ((n : ℚ) / k) := by
  have hpos : (0 : ℚ) < k := Nat.cast_pos.2 hk
  have hsplit : (n : ℚ) / k = (n / k : ℕ) + (n % k : ℕ) / k := by
    rw [eq_comm, eq_div_iff hpos.ne', add_mul, div_mul_cancel₀ _ hpos.ne']
    exact_mod_cast Nat.div_add_mod' n k
  have hrest : ((n % k : ℕ) : ℚ) < k := Nat.cast_lt.2 (Nat.mod_lt n hk)
  -- the quotient leaves a rest, of which only the comparison with one half counts
  rw [hsplit]
  revert hrest
  generalize n % k = rest
  intro hrest
  unfold accuracyOfFraction
  by_cases hzero : rest = 0
  · rw [if_pos hzero, hzero]
    show ((n / k : ℕ) : ℚ) + (0 : ℕ) / k = (n / k : ℕ)
    simp
  · have hsome : (0 : ℚ) < rest := Nat.cast_pos.2 (Nat.pos_of_ne_zero hzero)
    have hfraction : 0 < (rest : ℚ) / k ∧ (rest : ℚ) / k < 1 :=
      ⟨div_pos hsome hpos, (div_lt_one hpos).2 hrest⟩
    rw [if_neg hzero]
    -- below a half, just a half, or above
    rcases lt_trichotomy (2 * rest) k with hlt | heq | hgt
    · have hhalf : (rest : ℚ) / k < 1 / 2 := by
        rw [div_lt_div_iff₀ hpos (by norm_num)]
        exact_mod_cast (by omega : rest * 2 < 1 * k)
      rw [compare_lt_iff_lt.2 hlt]
      exact ⟨by linarith, by linarith⟩
    · have hhalf : (rest : ℚ) / k = 1 / 2 := by
        rw [div_eq_div_iff hpos.ne' (by norm_num)]
        exact_mod_cast (by omega : rest * 2 = 1 * k)
      rw [compare_eq_iff_eq.2 heq, hhalf]
      rfl
    · have hhalf : 1 / 2 < (rest : ℚ) / k := by
        rw [div_lt_div_iff₀ (by norm_num) hpos]
        exact_mod_cast (by omega : 1 * k < rest * 2)
      rw [compare_gt_iff_gt.2 hgt]
      exact ⟨by linarith, by linarith⟩

/-- A quotient has at least as many bits as its first bits say. -/
theorem HasStep.add_log2_lt {m n : Nat} {e d : Int} (h : HasStep (m * 2 ^ e / (n * 2 ^ d)) scale)
    (hm : 0 < m) (hn : 0 < n) : (m.log2 : Int) + e < scale + 53 + (n.log2 + 1 + d) := by
  have hnum : (2 : ℚ) ^ (m.log2 + e) ≤ m * 2 ^ e := by
    rw [zpow_add₀ (by norm_num), zpow_natCast]
    have hfloor : ((2 ^ m.log2 : ℕ) : ℚ) ≤ m := Nat.cast_le.2 (Nat.log2_self_le hm.ne')
    push_cast at hfloor
    gcongr
  have hden : (n : ℚ) * 2 ^ d < 2 ^ (n.log2 + 1 + d) := by
    rw [zpow_add₀ (by norm_num), zpow_add₀ (by norm_num), zpow_natCast, zpow_one, ← pow_succ]
    have hceil : (n : ℚ) < (2 ^ (n.log2 + 1) : ℕ) := Nat.cast_lt.2 Nat.lt_log2_self
    push_cast at hceil
    gcongr
  refine (zpow_lt_zpow_iff_right₀ (by norm_num : (1 : ℚ) < 2)).1 ?_
  calc (2 : ℚ) ^ (m.log2 + e) ≤ m * 2 ^ e := hnum
    _ < 2 ^ (scale + 53) * (n * 2 ^ d) := (div_lt_iff₀ (mantissa_pow_pos hn d)).1 h.high
    _ < 2 ^ (scale + 53) * 2 ^ (n.log2 + 1 + d) := by gcongr
    _ = 2 ^ (scale + 53 + (n.log2 + 1 + d)) := (zpow_add₀ (by norm_num) _ _).symm

theorem isRounded_div (hx : 0 < number x) (hy : 0 < number y)
    (hstep : HasStep (number x / number y) scale) :
    IsRounded (x / y) (number x / number y) scale := by
  obtain ⟨m, e, hm, hux, -, hx'⟩ := exists_unpack_of_number_pos hx
  obtain ⟨n, d, hn, huy, -, hy'⟩ := exists_unpack_of_number_pos hy
  have hbits : ((Format.binary64.mantissaBits : Nat) : Int) = 53 := rfl
  have hmin : Format.binary64.minExponent = -1074 := rfl
  obtain ⟨c, hc⟩ : ∃ c, min (e - d) (Format.binary64.targetExponent
      (totalExponent m e - totalExponent n d)) = c := ⟨_, rfl⟩
  have hmodel : (x / y).toModel = .pack (roundWithAccuracy .binary64 .positive
      ((m <<< (e - d - c).toNat) / n) c
      (accuracyOfFraction ((m <<< (e - d - c).toNat) % n) n)) := by
    show Float.Model.pack (UnpackedFloat.div .binary64 x.toModel.unpack y.toModel.unpack) = _
    rw [hux, huy, ← hc]
    rfl
  have hle : c ≤ e - d := hc ▸ min_le_left _ _
  have hfull : c ≤ scale := by
    have hleast := hstep.least_le
    rw [hx', hy'] at hstep
    have hfirst := hstep.add_log2_lt hm hn
    rw [← hc, Format.targetExponent, totalExponent, totalExponent, hbits, hmin]
    omega
  refine IsRounded.of_round hstep hfull ?_ hmodel
  have hscaled : number x / number y / 2 ^ c = ((m <<< (e - d - c).toNat : ℕ) : ℚ) / n := by
    rw [hx', hy', Nat.shiftLeft_eq, two_zpow_eq_mul (by omega : c + d ≤ e),
      show e - (c + d) = e - d - c by ring, zpow_add₀ (by norm_num)]
    push_cast
    field_simp
  rw [hscaled]
  exact reads_fraction _ hn

theorem isRounded_mul (hx : 0 < number x) (hy : 1 ≤ number y)
    (hstep : HasStep (number x * number y) scale) :
    IsRounded (x * y) (number x * number y) scale := by
  obtain ⟨m, e, hm, hux, -, hx'⟩ := exists_unpack_of_number_pos hx
  obtain ⟨n, d, hn, huy, hdouble, hy'⟩ := exists_unpack_of_number_pos (zero_lt_one.trans_le hy)
  have hmodel : (x * y).toModel = .pack (roundWithAccuracy .binary64 .positive (m * n) (e + d)
      .exact) := by
    show Float.Model.pack (UnpackedFloat.mul .binary64 x.toModel.unpack y.toModel.unpack) = _
    rw [hux, huy]
    rfl
  have hproduct : number x * number y = (m * n : ℕ) * 2 ^ (e + d) := by
    rw [hx', hy', zpow_add₀ (by norm_num)]
    push_cast
    ring
  have hn52 : 2 ^ 52 ≤ n := by
    refine hdouble.full.resolve_right fun hleast => ?_
    have hlt : (n : ℚ) < 2 ^ 53 := by exact_mod_cast hdouble.mantissa_lt
    rw [hy', hleast] at hy
    have hsmall : (n : ℚ) * 2 ^ (-1074 : ℤ) < 2 ^ 53 * 2 ^ (-1074 : ℤ) :=
      mul_lt_mul_of_pos_right hlt (zpow_pos (by norm_num) _)
    have hone : (2 : ℚ) ^ 53 * 2 ^ (-1074 : ℤ) ≤ 1 := by
      rw [← zpow_natCast, ← zpow_add₀ (by norm_num)]
      exact zpow_le_one_of_nonpos₀ (by norm_num) (by norm_num)
    linarith
  have hproductPos : 0 < m * n := Nat.mul_pos hm hn
  have hpos : (0 : ℚ) < 2 ^ (e + d) := zpow_pos (by norm_num) _
  have hlog : ((m * n).log2 : Int) + (e + d) = scale + 52 := by
    refine hstep.log2_eq hproductPos hproduct.ge ?_
    rw [hproduct]
    exact mul_lt_mul_of_pos_right (Nat.cast_lt.2 (Nat.lt_succ_self _)) hpos
  have hbits : 52 ≤ (m * n).log2 :=
    (Nat.le_log2 hproductPos.ne').2 (hn52.trans (Nat.le_mul_of_pos_left n hm))
  exact IsRounded.of_round hstep (by omega) (reads_exact _ _ hproduct) hmodel

/-- The first bit of a natural number says what its step is. -/
theorem hasStep_natCast {k : Nat} (hk : 0 < k) (hlt : k < 2 ^ 53) :
    HasStep (k : ℚ) (k.log2 - 52) := by
  have hlog : k.log2 < 53 := (Nat.log2_lt hk.ne').2 hlt
  refine ⟨by omega, by omega, ?_, ?_⟩
  · rw [sub_add_cancel, zpow_natCast]
    exact_mod_cast Nat.log2_self_le hk.ne'
  · rw [show (k.log2 : Int) - 52 + 53 = (k.log2 + 1 : ℕ) by push_cast; ring, zpow_natCast]
    exact_mod_cast Nat.lt_log2_self

/-- A double that is a natural number of 53 bits, rounded, is this number. -/
theorem IsRounded.eq_natCast {k : Nat} (h : IsRounded x k (k.log2 - 52)) (hlt : k < 2 ^ 53)
    (hk : 0 < k) : number x = k := by
  have hlog : k.log2 < 53 := (Nat.log2_lt hk.ne').2 hlt
  refine h.number_eq (n := k * 2 ^ (52 - k.log2)) ?_
  have hinv : (2 : ℚ) ^ (52 - k.log2) * 2 ^ ((k.log2 : ℤ) - 52) = 1 := by
    rw [← zpow_natCast, ← zpow_add₀ (by norm_num),
      show ((52 - k.log2 : ℕ) : ℤ) + (k.log2 - 52) = 0 by omega, zpow_zero]
  push_cast
  rw [mul_assoc, hinv, mul_one]

/-- Natural numbers of 53 bits are doubles. -/
theorem number_toFloat {k : Nat} (hk : 0 < k) (hlt : k < 2 ^ 53) : number k.toFloat = k := by
  have hone : number (Float.ofBits 0x3FF0000000000000) = 1 := by
    have hbits : (Float.ofBits 0x3FF0000000000000).toModel.toBits = 0x3FF0000000000000 := by
      decide +kernel
    have hnumber : number (Float.ofBits 0x3FF0000000000000) = (2 ^ 52 : ℕ) * 2 ^ (-52 : ℤ) :=
      number_of_toBits _ hbits
    rw [hnumber]
    norm_num
  have hpos : (0 : ℚ) < k := Nat.cast_pos.2 hk
  have hstep := hasStep_natCast hk hlt
  have hcast : number k.toUInt64.toFloat = k := by
    have hmodel : (k.toUInt64.toFloat).toModel =
        .pack (UnpackedFloat.round .binary64 .positive k 0) := by
      have hnat : k.toUInt64.toNat = k := Nat.mod_eq_of_lt (hlt.trans (by decide))
      show Float.Model.pack (UnpackedFloat.normalize .binary64 (k.toUInt64.toNat : Int) 0 _) = _
      rw [hnat, UnpackedFloat.normalize, compare_gt_iff_gt.2 (by omega : (0 : Int) < k)]
      rfl
    refine (isRounded_of_round hstep ?_ hmodel).eq_natCast hlt hk
    rw [zpow_zero, mul_one]
  have hfactor : k.toFloat = k.toUInt64.toFloat * Float.ofBits 0x3FF0000000000000 := by
    show Float.ofScientific k false 0 = _
    rw [Float.ofScientific, dif_pos ⟨hlt, by decide⟩]
    rfl
  have hsame : number k.toUInt64.toFloat * number (Float.ofBits 0x3FF0000000000000) = k := by
    rw [hcast, hone, mul_one]
  have hrounded := isRounded_mul (hpos.trans_eq hcast.symm) hone.ge (hsame.symm ▸ hstep)
  rw [hsame] at hrounded
  rw [hfactor]
  exact hrounded.eq_natCast hlt hk

end Rounded

end Marionette
