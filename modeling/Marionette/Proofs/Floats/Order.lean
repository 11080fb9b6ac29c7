import Mathlib
import Marionette.Proofs.Narrowing

/-!
# Doubles as numbers

A finite double stands for a rational number, and finite doubles are compared as these numbers.  The
step of a double is the power of two that its mantissa counts.

- `number`: the number of a finite double; `unpack_of_isFinite`: its sign, mantissa and exponent.
- `float_lt_iff_number`, `float_le_iff_number`, `float_beq_iff_number`: comparisons of finite
  doubles.
- `IsDouble.add_step_le`: the double after a positive one is at least a step larger.
- `number_add_le_of_between`: two doubles with another one between them are two steps apart.
-/

namespace Marionette

open Float.Model (UnpackedFloat)
open Float.Model.UnpackedFloat

variable {x y z : Float}

/-- The number that stands for mantissa and exponent with a sign. -/
def unpackedNumber : UnpackedFloat → ℚ
  | .finite .positive mantissa exponent _ => mantissa * 2 ^ exponent
  | .finite .negative mantissa exponent _ => -(mantissa * 2 ^ exponent)
  | _ => 0

/-- The number of a finite double; any other counts as zero. -/
def number (x : Float) : ℚ := unpackedNumber x.toModel.unpack

/-- The number of a double can be read off its bits. -/
theorem number_of_toBits (bits : UInt64) (h : x.toModel.toBits = bits) :
    number x = unpackedNumber (unpack .binary64 bits.toBitVec) := by
  rw [number, Float.Model.unpack, h]

theorem unpack_zero : (0 : Float).toModel.unpack = .zero .positive := by
  have hbits : (0 : Float).toModel.toBits = 0 := by decide +kernel
  rw [Float.Model.unpack, hbits]
  rfl

theorem unpackedNumber_finite {m : Nat} {e : Int} (sign : Sign) (hm : 0 < m) :
    unpackedNumber (.finite sign m e hm) = (sign.apply m : Int) * 2 ^ e := by
  cases sign with
  | positive =>
    show (m : ℚ) * 2 ^ e = ((m : Int) : ℚ) * 2 ^ e
    rw [Int.cast_natCast]
  | negative =>
    show -((m : ℚ) * 2 ^ e) = ((-(m : Int) : Int) : ℚ) * 2 ^ e
    rw [Int.cast_neg, Int.cast_natCast, neg_mul]

/-- A finite double is zero, or it has a sign, a mantissa and an exponent. -/
theorem unpack_of_isFinite (hx : x.isFinite = true) :
    (∃ sign, x.toModel.unpack = .zero sign ∧ number x = 0) ∨
      ∃ sign m e hm, x.toModel.unpack = .finite sign m e hm ∧ IsDouble m e ∧
        number x = (sign.apply m : Int) * 2 ^ e := by
  have hfinite : x.toModel.unpack.isFinite = true := hx
  unfold number
  cases hunpack : x.toModel.unpack with
  | notANumber =>
    rw [hunpack] at hfinite
    cases hfinite
  | infinity sign =>
    rw [hunpack] at hfinite
    cases hfinite
  | zero sign => exact .inl ⟨sign, rfl, rfl⟩
  | finite sign m e hm =>
    exact .inr ⟨sign, m, e, hm, rfl, isDouble_of_unpack hunpack, unpackedNumber_finite sign hm⟩

/-! ### Positive doubles -/

section Mantissas

variable {m n : Nat} {d e : Int}

theorem mantissa_pow_pos (hm : 0 < m) (e : Int) : (0 : ℚ) < m * 2 ^ e :=
  mul_pos (by exact_mod_cast hm) (zpow_pos (by norm_num) e)

/-- A higher power of two is a multiple of a lower one. -/
theorem two_zpow_eq_mul (h : d ≤ e) : (2 : ℚ) ^ e = 2 ^ (e - d).toNat * 2 ^ d := by
  rw [← zpow_natCast, ← zpow_add₀ (by norm_num), Int.toNat_of_nonneg (by omega), sub_add_cancel]

/-- A double with a larger exponent is larger. -/
theorem IsDouble.lt_of_exponent_lt (hm : IsDouble m d) (hn : IsDouble n e) (h : d < e) :
    (m : ℚ) * 2 ^ d < n * 2 ^ e := by
  have hfull : 2 ^ 52 ≤ n := hn.full.resolve_right fun hleast => by
    have := hm.le_exponent
    omega
  have hn52 : (2 : ℚ) ^ 52 ≤ n := by exact_mod_cast hfull
  have hm53 : (m : ℚ) < 2 ^ 53 := by exact_mod_cast hm.mantissa_lt
  calc (m : ℚ) * 2 ^ d < 2 ^ 53 * 2 ^ d := mul_lt_mul_of_pos_right hm53 (zpow_pos (by norm_num) d)
    _ = 2 ^ 52 * 2 ^ (d + 1) := by
      rw [zpow_add_one₀ (by norm_num)]
      ring
    _ ≤ 2 ^ 52 * 2 ^ e := by
      gcongr
      · norm_num
      · omega
    _ ≤ n * 2 ^ e := mul_le_mul_of_nonneg_right hn52 (zpow_pos (by norm_num) e).le

/-- Positive doubles are ordered by their exponents, and then by their mantissas. -/
theorem IsDouble.lt_iff (hm : IsDouble m d) (hn : IsDouble n e) :
    (m : ℚ) * 2 ^ d < n * 2 ^ e ↔ d < e ∨ d = e ∧ m < n := by
  rcases lt_trichotomy d e with hlt | rfl | hgt
  · exact iff_of_true (hm.lt_of_exponent_lt hn hlt) (.inl hlt)
  · rw [mul_lt_mul_iff_left₀ (zpow_pos (by norm_num) d), Nat.cast_lt]
    simp
  · have hlt := hn.lt_of_exponent_lt hm hgt
    refine iff_of_false hlt.le.not_gt ?_
    omega

/-- The double after a positive one is at least a step larger. -/
theorem IsDouble.add_step_le (hm : IsDouble m d) (hn : IsDouble n e)
    (h : (m : ℚ) * 2 ^ d < n * 2 ^ e) : d ≤ e ∧ (m : ℚ) * 2 ^ d + 2 ^ d ≤ n * 2 ^ e := by
  have hle : d ≤ e := by
    rcases (hm.lt_iff hn).1 h with hlt | ⟨rfl, -⟩
    · exact hlt.le
    · exact le_rfl
  refine ⟨hle, ?_⟩
  -- In steps of the smaller one both are natural numbers.
  have hsteps : (n : ℚ) * 2 ^ e = (n * 2 ^ (e - d).toNat : ℕ) * 2 ^ d := by
    rw [two_zpow_eq_mul hle]
    push_cast
    ring
  rw [hsteps] at h ⊢
  have hlt : m < n * 2 ^ (e - d).toNat := by
    exact_mod_cast lt_of_mul_lt_mul_right h (zpow_pos (by norm_num) d).le
  calc (m : ℚ) * 2 ^ d + 2 ^ d = (m + 1 : ℕ) * 2 ^ d := by
        push_cast
        ring
    _ ≤ (n * 2 ^ (e - d).toNat : ℕ) * 2 ^ d := by
      gcongr
      exact hlt

end Mantissas

/-! ### Comparisons -/

/-- Mantissas count where exponents are the same, as in the comparison of the numbers. -/
theorem IsDouble.compare_eq {m n : Nat} {d e : Int} (hm : IsDouble m d) (hn : IsDouble n e) :
    (compare d e).then (compare m n) = compare ((m : ℚ) * 2 ^ d) (n * 2 ^ e) := by
  rcases lt_trichotomy ((m : ℚ) * 2 ^ d) (n * 2 ^ e) with hlt | heq | hgt
  · rw [compare_lt_iff_lt.2 hlt, Ordering.then_eq_lt, compare_lt_iff_lt, compare_eq_iff_eq,
      compare_lt_iff_lt]
    exact (hm.lt_iff hn).1 hlt
  · have hnot := mt (hm.lt_iff hn).2 heq.not_lt
    have hnot' := mt (hn.lt_iff hm).2 heq.not_gt
    obtain ⟨rfl, rfl⟩ : d = e ∧ m = n := by omega
    rw [compare_eq_iff_eq.2 heq, Ordering.then_eq_eq]
    simp
  · rw [compare_gt_iff_gt.2 hgt, Ordering.then_eq_gt, compare_gt_iff_gt, compare_eq_iff_eq,
      compare_gt_iff_gt]
    have hrev := (hn.lt_iff hm).1 hgt
    omega

/-- Unpacked finite doubles are compared as numbers. -/
theorem unpacked_compare_eq {u v : UnpackedFloat} (hu : u.isFinite = true) (hv : v.isFinite = true)
    (hdu : ∀ s m e hm, u = .finite s m e hm → IsDouble m e)
    (hdv : ∀ s m e hm, v = .finite s m e hm → IsDouble m e) :
    u.compare v = some (compare (unpackedNumber u) (unpackedNumber v)) := by
  cases u with
  | notANumber => cases hu
  | infinity s => cases hu
  | zero s =>
    cases v with
    | notANumber => cases hv
    | infinity s' => cases hv
    | zero s' => rfl
    | finite s' n e hn =>
      have hpos := mantissa_pow_pos hn e
      cases s' with
      | negative => exact congrArg some (compare_gt_iff_gt.2 (neg_lt_zero.2 hpos)).symm
      | positive => exact congrArg some (compare_lt_iff_lt.2 hpos).symm
  | finite s m d hm =>
    have hpos := mantissa_pow_pos hm d
    have hdouble := hdu _ _ _ _ rfl
    cases v with
    | notANumber => cases hv
    | infinity s' => cases hv
    | zero s' =>
      cases s with
      | negative => exact congrArg some (compare_lt_iff_lt.2 (neg_lt_zero.2 hpos)).symm
      | positive => exact congrArg some (compare_gt_iff_gt.2 hpos).symm
    | finite s' n e hn =>
      have hpos' := mantissa_pow_pos hn e
      have hdouble' := hdv _ _ _ _ rfl
      cases s with
      | negative =>
        cases s' with
        | negative =>
          -- below zero the order is turned around
          have hneg : ∀ a b : ℚ, (compare a b).swap = compare (-a) (-b) := fun a b => by
            rw [← Std.OrientedOrd.eq_swap, ← cmp_eq_compare, ← cmp_eq_compare]
            have hanti : StrictAnti (Neg.neg : ℚ → ℚ) := fun _ _ => neg_lt_neg
            exact (hanti.cmp_map_eq a b).symm
          exact congrArg some
            ((congrArg Ordering.swap (hdouble.compare_eq hdouble')).trans (hneg _ _))
        | positive =>
          exact congrArg some (compare_lt_iff_lt.2 ((neg_lt_zero.2 hpos).trans hpos')).symm
      | positive =>
        cases s' with
        | negative =>
          exact congrArg some (compare_gt_iff_gt.2 ((neg_lt_zero.2 hpos').trans hpos)).symm
        | positive => exact congrArg some (hdouble.compare_eq hdouble')

theorem compare_eq_compare_number (hx : x.isFinite = true) (hy : y.isFinite = true) :
    x.toModel.unpack.compare y.toModel.unpack = some (compare (number x) (number y)) :=
  unpacked_compare_eq hx hy (fun _ _ _ _ h => isDouble_of_unpack h) fun _ _ _ _ h =>
    isDouble_of_unpack h

theorem float_lt_iff_number (hx : x.isFinite = true) (hy : y.isFinite = true) :
    x < y ↔ number x < number y := by
  rw [float_lt_iff, compare_eq_compare_number hx hy, Option.some_inj, compare_lt_iff_lt]

/-- Nothing lies below itself. -/
theorem not_float_lt_self (x : Float) : ¬x < x := by
  by_cases hx : x.isFinite = true
  · rw [float_lt_iff_number hx hx]
    exact lt_irrefl _
  · have hx : ¬x.toModel.unpack.isFinite = true := hx
    rw [float_lt_iff]
    cases h : x.toModel.unpack with
    | notANumber => decide
    | infinity sign => cases sign <;> decide
    | zero sign => exact absurd (h ▸ rfl) hx
    | finite sign m e hm => exact absurd (h ▸ rfl) hx

theorem float_le_iff_number (hx : x.isFinite = true) (hy : y.isFinite = true) :
    x ≤ y ↔ number x ≤ number y := by
  have hle : x ≤ y ↔ (x.toModel.unpack.compare y.toModel.unpack).any (·.isLE) = true :=
    decide_eq_true_iff
  rw [hle, compare_eq_compare_number hx hy, Option.any_some, Std.LawfulBCmp.isLE_iff_le]

theorem float_beq_iff_number (hx : x.isFinite = true) (hy : y.isFinite = true) :
    (x == y) = true ↔ number x = number y := by
  have hbeq : (x == y) = (x.toModel.unpack.compare y.toModel.unpack == some .eq) := rfl
  rw [hbeq, compare_eq_compare_number hx hy, beq_iff_eq, Option.some_inj, compare_eq_iff_eq]

/-! ### Steps -/

/-- A positive double is given by mantissa and exponent. -/
theorem exists_unpack_of_number_pos (h : 0 < number x) :
    ∃ m e hm, x.toModel.unpack = .finite .positive m e hm ∧ IsDouble m e ∧
      number x = m * 2 ^ e := by
  unfold number at *
  cases hx : x.toModel.unpack with
  | notANumber =>
    rw [hx] at h
    cases h.ne rfl
  | infinity s =>
    rw [hx] at h
    cases h.ne rfl
  | zero s =>
    rw [hx] at h
    cases h.ne rfl
  | finite s m e hm =>
    cases s with
    | negative =>
      rw [hx] at h
      cases h.not_gt (neg_lt_zero.2 (mantissa_pow_pos hm e))
    | positive => exact ⟨m, e, hm, rfl, isDouble_of_unpack hx, rfl⟩

theorem isFinite_of_number_pos (h : 0 < number x) : x.isFinite = true := by
  obtain ⟨m, e, hm, hx, -, -⟩ := exists_unpack_of_number_pos h
  show x.toModel.unpack.isFinite = true
  rw [hx]
  rfl

/-- Between doubles that are less than two steps apart there is no other. -/
theorem number_add_le_of_between {m : Nat} {e : Int} (hdouble : IsDouble m e)
    (hx : number x = m * 2 ^ e) (hxy : number x < number y) (hyz : number y < number z) :
    number x + 2 * 2 ^ e ≤ number z := by
  have hpos : 0 < number x := hx ▸ mantissa_pow_pos hdouble.pos e
  obtain ⟨n, d, -, -, hn, hy⟩ := exists_unpack_of_number_pos (hpos.trans hxy)
  obtain ⟨k, c, -, -, hk, hz⟩ := exists_unpack_of_number_pos (hpos.trans (hxy.trans hyz))
  rw [hx, hy] at hxy
  rw [hy, hz] at hyz
  obtain ⟨hle, hfirst⟩ := hdouble.add_step_le hn hxy
  obtain ⟨-, hsecond⟩ := hn.add_step_le hk hyz
  have hstep : (2 : ℚ) ^ e ≤ 2 ^ d := zpow_le_zpow_right₀ (by norm_num) hle
  rw [hx, hz]
  linarith

end Marionette
