import Mathlib
import Marionette.Proofs.Decimal.Reading

/-!
# The shortest decimal rounds to its float

Numbers are taken as rationals.  A float covers the numbers that round to it: an interval around its
value, half a step to each side, whose ends belong to it if its mantissa is even.

- `Binary.value`, `Binary.low`, `Binary.high`, `Binary.Covers`: a float as a number, and the numbers
  that round to it.
- `Binary.covers_of_onGrid`: a decimal found on a grid is covered.
- `Binary.exists_onGrid`: a grid of a quarter step has one.
- `Binary.le_of_magnitude`: a number has no fewer digits before the point than its magnitude.
- `Binary.covers_shortest`: the shortest decimal of a float of at most 53 bits is covered.
-/

namespace Marionette

namespace Decimal

namespace Binary

/-- The number that a float stands for. -/
def value (b : Binary) : ℚ := b.mantissa * 2 ^ b.exponent

/-- The lower end of the numbers that round to a float. -/
def low (b : Binary) : ℚ := b.value - (if b.narrowBelow then 1 / 4 else 1 / 2) * 2 ^ b.exponent

/-- The upper end of the numbers that round to a float. -/
def high (b : Binary) : ℚ := b.value + 1 / 2 * 2 ^ b.exponent

/-- A number rounds to a float: it lies between the ends, of which ties go to an even mantissa. -/
def Covers (b : Binary) (q : ℚ) : Prop :=
  if b.mantissa % 2 = 0 then b.low ≤ q ∧ q ≤ b.high else b.low < q ∧ q < b.high

theorem Covers.le {b : Binary} {q : ℚ} (h : b.Covers q) : b.low ≤ q ∧ q ≤ b.high := by
  unfold Covers at h
  split at h
  · exact h
  · exact ⟨h.1.le, h.2.le⟩

theorem step_pos (b : Binary) : (0 : ℚ) < 2 ^ b.exponent := by positivity

/-- A quarter step below the value is not yet below the lower end. -/
theorem low_le (b : Binary) : b.low ≤ b.value - 1 / 4 * 2 ^ b.exponent := by
  have hstep := b.step_pos
  unfold low
  split <;> linarith

theorem value_lt_high (b : Binary) : b.value < b.high := by
  have hstep := b.step_pos
  unfold high
  linarith

theorem step_le_value {b : Binary} (hb : 0 < b.mantissa) : (2 : ℚ) ^ b.exponent ≤ b.value := by
  have hone : (1 : ℚ) ≤ b.mantissa := by exact_mod_cast hb
  exact le_mul_of_one_le_left b.step_pos.le hone

/-- Only positive numbers round to a positive float. -/
theorem Covers.pos {b : Binary} {q : ℚ} (hb : 0 < b.mantissa) (h : b.Covers q) : 0 < q := by
  have hstep := b.step_pos
  have hvalue := step_le_value hb
  have hlow : 0 < b.low := by
    unfold low
    split <;> linarith
  exact hlow.trans_le h.le.1

/-- The fractions of a float are its value and its ends over one denominator. -/
theorem exists_fraction {b : Binary} (hb : 0 < b.mantissa) :
    ∃ below value above den : Nat, b.fraction = (below, value, above, den) ∧
      den = 4 * 2 ^ (-b.exponent).toNat ∧
      (below : ℚ) = den * b.low ∧ (value : ℚ) = den * b.value ∧ (above : ℚ) = den * b.high := by
  -- a fourth of a step over a common denominator: numbers without a fraction for all four
  -- quantities
  obtain ⟨num, den, hpair, hden, hstep⟩ : ∃ num den : Nat,
      b.fraction = (4 * b.mantissa * num - (if b.narrowBelow then num else 2 * num),
        4 * b.mantissa * num, 4 * b.mantissa * num + 2 * num, den) ∧
      den = 4 * 2 ^ (-b.exponent).toNat ∧
      (num : ℚ) = den * (2 ^ b.exponent / 4) := by
    obtain ⟨m, e, narrow⟩ := b
    cases e with
    | ofNat e =>
      refine ⟨2 ^ e, 4, rfl, by simp, ?_⟩
      rw [Int.ofNat_eq_natCast, zpow_natCast]
      push_cast
      ring
    | negSucc e =>
      refine ⟨1, 4 * 2 ^ (e + 1), rfl, rfl, ?_⟩
      rw [zpow_negSucc]
      push_cast
      field_simp
  refine ⟨_, _, _, den, hpair, hden, ?_, ?_, ?_⟩
  -- the numerator below does not get negative
  · have hfits : (if b.narrowBelow then num else 2 * num) ≤ 4 * b.mantissa * num := by
      have hmul : num ≤ b.mantissa * num := Nat.le_mul_of_pos_left num hb
      split <;> nlinarith
    rw [Nat.cast_sub hfits]
    unfold low value
    split <;> push_cast <;> rw [hstep] <;> ring
  · unfold value
    push_cast
    rw [hstep]
    ring
  · unfold high value
    push_cast
    rw [hstep]
    ring

section Pick

variable {closed : Bool} {tie : Tie} {below value above unit : Nat}

/-- A multiple that is picked lies between the bounds. -/
theorem isBetween_of_pick {n : Nat} (h : pick closed tie below value above unit = some n) :
    isBetween closed below above (n * unit) = true := by
  unfold pick at h
  dsimp only at h
  split at h
  · rename_i hboth
    rw [Bool.and_eq_true, Bool.and_eq_true] at hboth
    cases h
    split
    · exact hboth.1.2
    · exact hboth.2
  · split at h
    · rename_i hlow
      rw [Bool.and_eq_true] at hlow
      cases h
      exact hlow.2
    · split at h
      · rename_i hhigh
        cases h
        exact hhigh
      · cases h

/-- The multiple below the value is picked at the latest. -/
theorem exists_pick (hunit : value / unit ≠ 0)
    (hlow : isBetween closed below above (value / unit * unit) = true) :
    ∃ n, pick closed tie below value above unit = some n := by
  unfold pick
  dsimp only
  rw [hlow, decide_eq_true hunit]
  split
  · exact ⟨_, rfl⟩
  · exact ⟨_, rfl⟩

theorem isBetween_of_lt {p : Nat} (hlow : below < p) (hhigh : p < above) :
    isBetween closed below above p = true := by
  unfold isBetween
  split
  · rw [decide_eq_true hlow.le, decide_eq_true hhigh.le]
    rfl
  · rw [decide_eq_true hlow, decide_eq_true hhigh]
    rfl

/-- Whether a number lies between the ends of a float can be told in any unit. -/
theorem covers_of_isBetween {b : Binary} {s q : ℚ} {p : Nat} (hs : 0 < s)
    (hbelow : (below : ℚ) = s * b.low) (habove : (above : ℚ) = s * b.high) (hp : (p : ℚ) = s * q)
    (h : isBetween (b.mantissa % 2 == 0) below above p = true) : b.Covers q := by
  unfold isBetween at h
  unfold Covers
  by_cases heven : b.mantissa % 2 = 0
  · rw [if_pos heven]
    rw [if_pos (beq_iff_eq.2 heven), Bool.and_eq_true, decide_eq_true_iff, decide_eq_true_iff,
      ← Nat.cast_le (α := ℚ), ← Nat.cast_le (α := ℚ), hp, hbelow, habove] at h
    exact ⟨le_of_mul_le_mul_left h.1 hs, le_of_mul_le_mul_left h.2 hs⟩
  · rw [if_neg heven]
    rw [if_neg (fun h => heven (beq_iff_eq.1 h)), Bool.and_eq_true, decide_eq_true_iff,
      decide_eq_true_iff, ← Nat.cast_lt (α := ℚ), ← Nat.cast_lt (α := ℚ), hp, hbelow, habove] at h
    exact ⟨lt_of_mul_lt_mul_left h.1 hs.le, lt_of_mul_lt_mul_left h.2 hs.le⟩

end Pick

/-- A grid is searched in natural numbers: everything is counted in one unit. -/
theorem exists_scaled {b : Binary} (hb : 0 < b.mantissa) (tie : Tie) (g : Int) :
    ∃ (below value above unit : Nat) (s : ℚ), 0 < s ∧
      b.onGrid tie g =
        (pick (b.mantissa % 2 == 0) tie below value above unit).map (fun n => ⟨n, g⟩) ∧
      (below : ℚ) = s * b.low ∧ (value : ℚ) = s * b.value ∧ (above : ℚ) = s * b.high ∧
      (unit : ℚ) = s * 10 ^ g := by
  obtain ⟨below, value, above, den, hfraction, hden, hbelow, hvalue, habove⟩ := exists_fraction hb
  have hpos : (0 : ℚ) < den := by
    rw [hden]
    positivity
  unfold onGrid
  rw [hfraction]
  -- a grid of whole powers scales the unit, and one of fractions the interval
  cases g with
  | ofNat e =>
    refine ⟨below * 1, value * 1, above * 1, den * 10 ^ e, den, hpos, rfl, ?_, ?_, ?_, ?_⟩
    · rw [Nat.mul_one, hbelow]
    · rw [Nat.mul_one, hvalue]
    · rw [Nat.mul_one, habove]
    · rw [Int.ofNat_eq_natCast, zpow_natCast]
      push_cast
      rfl
  | negSucc e =>
    refine ⟨below * 10 ^ (e + 1), value * 10 ^ (e + 1), above * 10 ^ (e + 1), den,
      den * 10 ^ (e + 1), by positivity, rfl, ?_, ?_, ?_, ?_⟩
    · push_cast
      rw [hbelow]
      ring
    · push_cast
      rw [hvalue]
      ring
    · push_cast
      rw [habove]
      ring
    · rw [zpow_negSucc]
      field_simp

/-- A decimal found on a grid rounds to the float. -/
theorem covers_of_onGrid {b : Binary} (hb : 0 < b.mantissa) {tie : Tie} {g : Int} {d : Decimal}
    (h : b.onGrid tie g = some d) : b.Covers d.value := by
  obtain ⟨below, value, above, unit, s, hs, hgrid, hbelow, -, habove, hunit⟩ :=
    exists_scaled hb tie g
  rw [hgrid, Option.map_eq_some_iff] at h
  obtain ⟨n, hn, rfl⟩ := h
  have hpoint : ((n * unit : Nat) : ℚ) = s * (n * 10 ^ g) := by
    push_cast
    rw [hunit]
    ring
  exact covers_of_isBetween hs hbelow habove hpoint (isBetween_of_pick hn)

/-- On a grid of less than a quarter step there is a decimal that rounds to the float. -/
theorem exists_onGrid {b : Binary} (hb : 0 < b.mantissa) (tie : Tie) {g : Int}
    (hg : (10 : ℚ) ^ g ≤ 1 / 4 * 2 ^ b.exponent) : ∃ d, b.onGrid tie g = some d := by
  obtain ⟨below, value, above, unit, s, hs, hgrid, hbelow, hvalue, habove, hunit⟩ :=
    exists_scaled hb tie g
  have hstep := b.step_pos
  have hten : (0 : ℚ) < 10 ^ g := by positivity
  have hunitpos : 0 < unit := by
    rw [← Nat.cast_pos (α := ℚ), hunit]
    positivity
  have hunitle : unit ≤ value := by
    rw [← Nat.cast_le (α := ℚ), hunit, hvalue]
    refine mul_le_mul_of_nonneg_left ?_ hs.le
    linarith [step_le_value hb]
  -- The multiple below the value is less than one unit away from it.
  have hle : value / unit * unit ≤ value := Nat.div_mul_le_self value unit
  have hnear : value < value / unit * unit + unit := by
    have hmod := Nat.div_add_mod' value unit
    have hlt := Nat.mod_lt value hunitpos
    omega
  have hquarter : below + unit ≤ value := by
    rw [← Nat.cast_le (α := ℚ), Nat.cast_add, hbelow, hunit, hvalue, ← mul_add]
    refine mul_le_mul_of_nonneg_left ?_ hs.le
    linarith [b.low_le]
  have hhigh : value < above := by
    rw [← Nat.cast_lt (α := ℚ), hvalue, habove]
    exact mul_lt_mul_of_pos_left b.value_lt_high hs
  obtain ⟨n, hn⟩ : ∃ n, pick (b.mantissa % 2 == 0) tie below value above unit = some n :=
    exists_pick (Nat.div_pos hunitle hunitpos).ne' (isBetween_of_lt (by omega) (by omega))
  refine ⟨⟨n, g⟩, ?_⟩
  rw [hgrid, hn]
  rfl

/-- A grid that fits is found at the latest where the grids end. -/
theorem covers_shortestFrom {b : Binary} (hb : 0 < b.mantissa) (tie : Tie) (fuel : Nat) (g : Int)
    (hg : (10 : ℚ) ^ (g - fuel) ≤ 1 / 4 * 2 ^ b.exponent) :
    b.Covers (b.shortestFrom tie fuel g).value := by
  induction fuel generalizing g with
  | zero =>
    rw [Nat.cast_zero, sub_zero] at hg
    obtain ⟨d, hd⟩ := exists_onGrid hb tie hg
    unfold shortestFrom
    rw [hd, Option.getD_some, value_stripZeros]
    exact covers_of_onGrid hb hd
  | succ fuel ih =>
    unfold shortestFrom
    cases hd : b.onGrid tie g with
    | some d =>
      show b.Covers (d.stripZeros 400).value
      rw [value_stripZeros]
      exact covers_of_onGrid hb hd
    | none =>
      show b.Covers (shortestFrom b tie fuel (g - 1)).value
      refine ih (g - 1) ?_
      have hsame : g - 1 - (fuel : Int) = g - ((fuel + 1 : Nat) : Int) := by
        push_cast
        ring
      rw [hsame]
      exact hg

/-! ### Magnitudes -/

/-- The search for the magnitude keeps a power of ten below the number. -/
theorem le_of_magnitudeFrom {num den : Nat} (hden : 0 < den) (fuel : Nat) (k : Int)
    (h : (10 : ℚ) ^ (k - 1) ≤ num / den) :
    (10 : ℚ) ^ (magnitudeFrom num den fuel k - 1) ≤ num / den := by
  induction fuel generalizing k with
  | zero => exact h
  | succ fuel ih =>
    have hpos : (0 : ℚ) < den := by exact_mod_cast hden
    have hnext (hk : (10 : ℚ) ^ k * den ≤ num) :
        (10 : ℚ) ^ (magnitudeFrom num den fuel (k + 1) - 1) ≤ num / den := by
      refine ih (k + 1) ?_
      rw [add_sub_cancel_right, le_div_iff₀ hpos]
      exact hk
    unfold magnitudeFrom
    cases k with
    | ofNat e =>
      dsimp only
      split
      · exact h
      · rename_i hfits
        have hle : 10 ^ e * den ≤ num := by simpa [mul_comm] using hfits
        refine hnext ?_
        rw [Int.ofNat_eq_natCast, zpow_natCast]
        exact_mod_cast hle
    | negSucc e =>
      dsimp only
      split
      · exact h
      · rename_i hfits
        have hle : den ≤ 10 ^ (e + 1) * num := by simpa [mul_comm] using hfits
        refine hnext ?_
        rw [zpow_negSucc, inv_mul_le_iff₀ (by positivity)]
        exact_mod_cast hle

/-- Powers of two and of ten compare as their exponents do: 4096 binary digits are as much as 1233
to 1234 decimal ones. -/
theorem ten_zpow_le {k l : Int} (hless : 4096 * k ≤ 1233 * l) (hmore : 4096 * k ≤ 1234 * l) :
    (10 : ℚ) ^ k ≤ 2 ^ l := by
  have hten (n : Nat) : ((10 : ℚ) ^ (n : Int)) ^ l = 10 ^ (n * l) := (zpow_mul _ _ _).symm
  have htwo : ((2 : ℚ) ^ (4096 : Int)) ^ l = (2 ^ l) ^ 4096 := by
    rw [← zpow_mul, mul_comm, zpow_mul]
    norm_cast
  have hroot : ((10 : ℚ) ^ k) ^ 4096 ≤ (2 ^ l) ^ 4096 := by
    have hpower : ((10 : ℚ) ^ k) ^ 4096 = 10 ^ (4096 * k) := by
      rw [mul_comm, zpow_mul]
      norm_cast
    rw [hpower, ← htwo]
    rcases le_total 0 l with hl | hl
    · have hbase : ((10 ^ 1233 : Nat) : ℚ) ≤ (2 ^ 4096 : Nat) := by
        exact_mod_cast (by decide +kernel : (10 : Nat) ^ 1233 ≤ 2 ^ 4096)
      calc (10 : ℚ) ^ (4096 * k) ≤ 10 ^ (((1233 : Nat) : Int) * l) :=
            zpow_le_zpow_right₀ (by norm_num) hless
        _ = (10 ^ ((1233 : Nat) : Int)) ^ l := (hten 1233).symm
        _ ≤ (2 ^ (4096 : Int)) ^ l := by
          refine zpow_le_zpow_left₀ hl (by positivity) ?_
          exact_mod_cast hbase
    · have hbase : ((2 ^ 4096 : Nat) : ℚ) ≤ (10 ^ 1234 : Nat) := by
        exact_mod_cast (by decide +kernel : (2 : Nat) ^ 4096 ≤ 10 ^ 1234)
      calc (10 : ℚ) ^ (4096 * k) ≤ 10 ^ (((1234 : Nat) : Int) * l) :=
            zpow_le_zpow_right₀ (by norm_num) hmore
        _ = (10 ^ ((1234 : Nat) : Int)) ^ l := (hten 1234).symm
        _ ≤ (2 ^ (4096 : Int)) ^ l := by
          obtain ⟨n, rfl⟩ := Int.exists_eq_neg_ofNat hl
          rw [zpow_neg, zpow_neg, zpow_natCast, zpow_natCast]
          refine inv_anti₀ (by positivity) (pow_le_pow_left₀ (by positivity) ?_ n)
          exact_mod_cast hbase
  exact (pow_le_pow_iff_left₀ (by positivity) (by positivity) (by decide)).1 hroot

/-- A number is at least as large as its binary length says. -/
theorem two_zpow_le {num den : Nat} (hnum : num ≠ 0) (hden : 0 < den) :
    (2 : ℚ) ^ ((num.log2 : Int) - den.log2 - 1) ≤ num / den := by
  have hpos : (0 : ℚ) < den := by exact_mod_cast hden
  have hlow : (2 : ℚ) ^ (num.log2 : Int) ≤ num := by
    rw [zpow_natCast]
    exact_mod_cast Nat.log2_self_le hnum
  have hhigh : (den : ℚ) ≤ 2 ^ ((den.log2 : Int) + 1) := by
    have hlt : den < 2 ^ (den.log2 + 1) := (Nat.log2_lt hden.ne').1 (Nat.lt_succ_self _)
    exact_mod_cast hlt.le
  rw [sub_sub, zpow_sub₀ (by norm_num)]
  exact div_le_div₀ (by positivity) hlow hpos hhigh

/-- A number has no fewer digits before the point than its magnitude. -/
theorem le_of_magnitude {num den : Nat} (hnum : num ≠ 0) (hden : 0 < den) (hlen : den.log2 ≤ 8000) :
    (10 : ℚ) ^ (magnitude num den - 1) ≤ num / den := by
  refine le_of_magnitudeFrom hden 8 _ (le_trans ?_ (two_zpow_le hnum hden))
  unfold magnitudeGuess
  exact ten_zpow_le (by omega) (by omega)

/-- The shortest decimal of a float of at most 53 bits rounds to the float. -/
theorem covers_shortest {b : Binary} (tie : Tie) (hb : 0 < b.mantissa) (hbits : b.mantissa < 2 ^ 53)
    (hexponent : -7000 ≤ b.exponent) : b.Covers (b.shortest tie).value := by
  obtain ⟨below, value, above, den, hfraction, hden, -, hvalue, -⟩ := exists_fraction hb
  have hpos : (0 : ℚ) < den := by
    rw [hden]
    positivity
  have hnum : value ≠ 0 := by
    rintro rfl
    have hzero : b.value = 0 := by simpa [hpos.ne'] using hvalue
    linarith [step_le_value hb, b.step_pos]
  have hlen : den.log2 ≤ 8000 := by
    have hpower : den = 2 ^ ((-b.exponent).toNat + 2) := by
      rw [hden, pow_add, mul_comm]
      rfl
    rw [hpower, Nat.log2_two_pow]
    omega
  have hmagnitude := le_of_magnitude hnum (by exact_mod_cast hpos) hlen
  rw [hvalue, mul_div_cancel_left₀ _ hpos.ne'] at hmagnitude
  unfold shortest
  rw [hfraction]
  refine covers_shortestFrom hb tie 17 _ ?_
  have hgrid : (10 : ℚ) ^ (magnitude value den - 1 - (17 : Nat)) =
      10 ^ (magnitude value den - 1) / 10 ^ 17 := by
    rw [zpow_sub₀ (by norm_num), zpow_natCast]
  have htop : b.value ≤ 2 ^ 53 * 2 ^ b.exponent := by
    have hle : (b.mantissa : ℚ) ≤ 2 ^ 53 := by exact_mod_cast hbits.le
    exact mul_le_mul_of_nonneg_right hle b.step_pos.le
  rw [hgrid, div_le_iff₀ (by positivity)]
  linarith [b.step_pos]

end Binary

end Decimal

end Marionette
