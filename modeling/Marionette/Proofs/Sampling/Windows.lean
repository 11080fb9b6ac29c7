import Mathlib
import Marionette.Proofs.Floats.Nearest
import Marionette.Sampling

/-!
# Windows of ticks

A step is marked at the tick in whose window its key lies.  The window of a tick ends at the time of
the tick and starts a tick length before it.  Times are rounded: the start is not always the time of
the tick before, but no double lies between the two.

- `windowStart`: where the window of a tick starts.
- `isRounded_tickTime`: the time of a tick is a twentieth of it, rounded; `tickTime_lt_add`: a small
  offset leads to a later time.
- `Touches`: no double lies between two; `touches_windowStart`: the start of a window and the time
  of the tick before touch each other.
- `StepReached`, `hasStepArrival_iff`: what the test for steps looks for.
- `hasStepArrival_window_iff`: away from starts that are off, the windows of two ticks meet at
  the time of the first.
-/

namespace Marionette

variable {k : Nat}

/-- Where the window of a tick starts. -/
def windowStart (k : Nat) : Float :=
  tickTime k - tickSeconds

/-! ### Numbers of times -/

theorem number_twenty : number 20.0 = 20 := by
  have hbits : (20.0 : Float).toModel.toBits = 0x4034000000000000 := by decide +kernel
  have hnumber : number 20.0 = (0x14000000000000 : ℕ) * 2 ^ (-48 : ℤ) := number_of_toBits _ hbits
  rw [hnumber]
  norm_num

/-- The length of a tick is rounded up. -/
theorem number_tickSeconds : number tickSeconds = 1 / 20 + 2 / 5 * 2 ^ (-57 : ℤ) := by
  have hbits : tickSeconds.toModel.toBits = 0x3FA999999999999A := by decide +kernel
  have hnumber : number tickSeconds = (0x1999999999999A : ℕ) * 2 ^ (-57 : ℤ) :=
    number_of_toBits _ hbits
  rw [hnumber]
  norm_num

/-- The time of a tick is a twentieth of it, rounded. -/
theorem isRounded_tickTime (hk : 0 < k) (hlt : k < 2 ^ 53) {scale : Int}
    (hstep : HasStep ((k : ℚ) / 20) scale) : IsRounded (tickTime k) (k / 20) scale := by
  have hnumber := number_toFloat hk hlt
  have hpos : 0 < number k.toFloat := hnumber ▸ Nat.cast_pos.2 hk
  have htwenty : 0 < number 20.0 := by
    rw [number_twenty]
    norm_num
  have hquotient : number k.toFloat / number 20.0 = k / 20 := by rw [hnumber, number_twenty]
  have hrounded := isRounded_div hpos htwenty (hquotient.symm ▸ hstep)
  rwa [hquotient] at hrounded

/-- An offset is not lost when it is added to the time of a tick. -/
theorem tickTime_lt_add {k : Nat} (hk : k < 2 ^ 31) {o : Float} (hlow : 1 / 2 ^ 25 ≤ number o)
    (hhigh : number o ≤ 1) : tickTime k < tickTime k + o := by
  have ho : 0 < number o := lt_of_lt_of_le (by norm_num) hlow
  rcases Nat.eq_zero_or_pos k with rfl | hpos
  -- at tick 0 the sum is the offset itself
  · have hzero : tickTime 0 = 0 := by decide +kernel
    have hnumber : number 0 = 0 := number_of_toBits 0 (by decide +kernel)
    rw [hzero, zero_add_of_number_pos ho,
      float_lt_iff_number (by decide +kernel) (isFinite_of_number_pos ho), hnumber]
    exact ho
  · have hlast : (k : ℚ) < 2 ^ 31 := by exact_mod_cast hk
    have hfirst : (1 : ℚ) ≤ k := by exact_mod_cast hpos
    -- both the time and the sum are within half a step of their exact values, and the steps are
    -- small against the offset
    obtain ⟨scale, hstep, hscale⟩ := exists_hasStep (q := (k : ℚ) / 20)
      (by linarith) (by linarith)
    have htick := isRounded_tickTime hpos (by omega) hstep
    obtain ⟨-, hnear⟩ := abs_le.1 htick.near
    have hpos := htick.pos
    obtain ⟨scale', hstep', hscale'⟩ := exists_hasStep (q := number (tickTime k) + number o)
      (by linarith) (by linarith)
    have hsum := isRounded_add htick.pos ho hstep'
    obtain ⟨hnear', -⟩ := abs_le.1 hsum.near
    rw [float_lt_iff_number (isFinite_of_number_pos htick.pos) (isFinite_of_number_pos hsum.pos)]
    linarith

/-! ### Powers of two -/

/-- Numbers between two powers of two have one step. -/
theorem hasStep_of_bounds {q : ℚ} {j : Int} (hfirst : -10 ≤ j) (hlast : j ≤ 60)
    (hlow : 2 ^ j / 4 ≤ q) (hhigh : q < 2 ^ j / 2) : HasStep q (j - 54) := by
  refine ⟨by omega, by omega, ?_, ?_⟩
  · rw [show j - 54 + 52 = j - 2 by ring, zpow_sub₀ (by norm_num)]
    norm_num
    exact hlow
  · rw [show j - 54 + 53 = j - 1 by ring, zpow_sub₀ (by norm_num)]
    norm_num
    exact hhigh

theorem step_eq (j : Nat) : (2 : ℚ) ^ ((j : Int) - 54) = 2 ^ j / 2 ^ 54 := by
  rw [zpow_sub₀ (by norm_num), zpow_natCast]
  norm_num

/-- A power of two is not rounded. -/
theorem number_tickTime_of_eq {j : Nat} (hj : j ≤ 40) (hk : k = 5 * 2 ^ j) :
    number (tickTime k) = k / 20 := by
  have hpow : (0 : ℚ) < 2 ^ j := by positivity
  have hpos : 0 < k := hk ▸ Nat.mul_pos (by decide) (Nat.two_pow_pos j)
  have hlt : k < 2 ^ 53 := by
    rw [hk]
    calc 5 * 2 ^ j ≤ 5 * 2 ^ 40 := Nat.mul_le_mul_left 5 (Nat.pow_le_pow_right (by decide) hj)
      _ < 2 ^ 53 := by decide
  have hquarter : (k : ℚ) / 20 = 2 ^ j / 4 := by
    rw [hk]
    push_cast
    ring
  have hstep : HasStep ((k : ℚ) / 20) (j - 54) :=
    hasStep_of_bounds (by omega) (by omega) (by rw [hquarter, zpow_natCast])
      (by rw [hquarter, zpow_natCast]; linarith)
  refine (isRounded_tickTime hpos hlt hstep).number_eq (n := 2 ^ 52) ?_
  rw [step_eq, hquarter]
  push_cast
  ring

/-- Ticks of which the time lies between two powers of two. -/
structure InBinade (k j : Nat) : Prop where
  low : 5 * 2 ^ j ≤ k
  high : k < 5 * 2 ^ (j + 1)
  le_last : j ≤ 29

namespace InBinade

variable {j : Nat}

theorem pos (h : InBinade k j) : 0 < k :=
  (Nat.mul_pos (by decide) (Nat.two_pow_pos j)).trans_le h.low

/-- The bounds of the tick, and of the power of two. -/
theorem bounds (h : InBinade k j) :
    (5 : ℚ) * 2 ^ j ≤ k ∧ (k : ℚ) + 1 ≤ 10 * 2 ^ j ∧ (1 : ℚ) ≤ 2 ^ j ∧ (2 : ℚ) ^ j ≤ 536870912 := by
  have hlast : (2 : ℚ) ^ j ≤ 2 ^ 29 := pow_le_pow_right₀ (by norm_num) h.le_last
  have hhigh : ((k + 1 : ℕ) : ℚ) ≤ (5 * 2 ^ (j + 1) : ℕ) := Nat.cast_le.2 h.high
  push_cast at hhigh
  rw [pow_succ] at hhigh
  norm_num at hlast
  exact ⟨by exact_mod_cast h.low, by linarith, one_le_pow₀ (by norm_num), hlast⟩

theorem lt (h : InBinade k j) : k < 2 ^ 53 := by
  obtain ⟨-, hhigh, -, hlast⟩ := h.bounds
  have hlt : (k : ℚ) < (9007199254740992 : ℕ) := by
    push_cast
    linarith
  exact Nat.cast_lt.1 hlt

/-- The time of the tick has the step of the power of two below it. -/
theorem isRounded (h : InBinade k j) : IsRounded (tickTime k) (k / 20) (j - 54) := by
  obtain ⟨hlow, hhigh, -, -⟩ := h.bounds
  have hlast := h.le_last
  refine isRounded_tickTime h.pos h.lt (hasStep_of_bounds (by omega) (by omega) ?_ ?_)
  · rw [zpow_natCast]
    linarith
  · rw [zpow_natCast]
    linarith

theorem near (h : InBinade k j) :
    |number (tickTime k) - k / 20| ≤ 2 ^ j / 36028797018963968 := by
  have hnear := h.isRounded.near
  rw [step_eq] at hnear
  norm_num at hnear
  linarith

end InBinade

/-! ### Starts of windows -/

/-- No double lies between two finite ones. -/
structure Touches (x z : Float) : Prop where
  left : x.isFinite = true
  right : z.isFinite = true
  up : ∀ y, ¬(number x < number y ∧ number y < number z)
  down : ∀ y, ¬(number z < number y ∧ number y < number x)

theorem Touches.refl {x : Float} (h : x.isFinite = true) : Touches x x :=
  ⟨h, h, fun _ hy => lt_asymm hy.1 hy.2, fun _ hy => lt_asymm hy.1 hy.2⟩

theorem Touches.symm {x z : Float} (h : Touches x z) : Touches z x :=
  ⟨h.right, h.left, h.down, h.up⟩

/-- Doubles of which the mantissas follow each other touch each other. -/
theorem touches_of_number_eq {x z : Float} {m : Nat} {e : Int} (hm : IsDouble m e)
    (hx : number x = m * 2 ^ e) (hz : number z = (m + 1 : ℕ) * 2 ^ e) : Touches x z := by
  have hpos : (0 : ℚ) < 2 ^ e := zpow_pos (by norm_num) e
  have hxpos : 0 < number x := hx ▸ mantissa_pow_pos hm.pos e
  have hzpos : 0 < number z := hz ▸ mantissa_pow_pos m.succ_pos e
  have hstep : number z = number x + 2 ^ e := by
    rw [hx, hz]
    push_cast
    ring
  refine ⟨isFinite_of_number_pos hxpos, isFinite_of_number_pos hzpos, fun y => ?_, fun y => ?_⟩
  · rintro ⟨hxy, hyz⟩
    have htwo := number_add_le_of_between hm hx hxy hyz
    linarith
  · rintro ⟨hzy, hyx⟩
    linarith

/-- No double lies less than two steps above another with one between them. -/
theorem IsRounded.not_between {x y z : Float} {q : ℚ} {scale : Int} (h : IsRounded x q scale)
    (hgap : number z < number x + 2 * 2 ^ scale) :
    ¬(number x < number y ∧ number y < number z) := by
  rintro ⟨hxy, hyz⟩
  obtain ⟨m, e, hdouble, hx, hle⟩ := h.exists_eq
  have htwo := number_add_le_of_between hdouble hx hxy hyz
  have hstep : (2 : ℚ) ^ scale ≤ 2 ^ e := zpow_le_zpow_right₀ (by norm_num) hle
  linarith

/-- Rounded numbers that are less than two steps apart have no double between them. -/
theorem touches_of_near {x z : Float} {p q : ℚ} {scale scale' : Int} (hx : IsRounded x p scale)
    (hz : IsRounded z q scale') (hle : scale ≤ scale')
    (hgap : |number x - number z| < 2 * 2 ^ scale) : Touches x z := by
  obtain ⟨hdown, hup⟩ := abs_lt.1 hgap
  have hstep : (2 : ℚ) ^ scale ≤ 2 ^ scale' := zpow_le_zpow_right₀ (by norm_num) hle
  exact ⟨isFinite_of_number_pos hx.pos, isFinite_of_number_pos hz.pos,
    fun _ => hx.not_between (by linarith), fun _ => hz.not_between (by linarith)⟩

section Starts

variable {j : Nat}

/-- The start of a window is a difference, rounded. -/
theorem isRounded_windowStart {i : Int} (hfirst : -10 ≤ i) (hlast : i ≤ 60)
    (hlow : 2 ^ i / 4 ≤ number (tickTime k) - number tickSeconds)
    (hhigh : number (tickTime k) - number tickSeconds < 2 ^ i / 2) :
    IsRounded (windowStart k) (number (tickTime k) - number tickSeconds) (i - 54) := by
  have hpos : (0 : ℚ) < 2 ^ i := zpow_pos (by norm_num) i
  refine isRounded_sub ?_ (by linarith) (hasStep_of_bounds hfirst hlast hlow hhigh)
  rw [number_tickSeconds]
  positivity

/-- Where start and tick lie between the same powers of two, the errors make up less than two
steps. -/
theorem InBinade.touches_of_start (h : InBinade k j)
    (hnext : |number (tickTime (k + 1)) - (k + 1) / 20| ≤ 2 ^ j / 36028797018963968)
    (hlow : 2 ^ j / 4 ≤ number (tickTime (k + 1)) - number tickSeconds)
    (hhigh : number (tickTime (k + 1)) - number tickSeconds < 2 ^ j / 2) :
    Touches (windowStart (k + 1)) (tickTime k) := by
  have hlast := h.le_last
  obtain ⟨-, -, hone, -⟩ := h.bounds
  have hstart := isRounded_windowStart (k := k + 1) (i := j) (by omega) (by omega)
    (by rwa [zpow_natCast]) (by rwa [zpow_natCast])
  have hstartNear := abs_le.1 hstart.near
  have hnear := abs_le.1 h.near
  have hnextNear := abs_le.1 hnext
  refine touches_of_near hstart h.isRounded le_rfl (abs_lt.2 ?_)
  rw [number_tickSeconds, step_eq] at *
  norm_num at hstartNear hnear hnextNear ⊢
  constructor <;> linarith

/-- If the time of the tick before is a power of two, the start may fall below it, where steps are
half as long. -/
theorem InBinade.touches_of_first (h : InBinade k j) (hnext : InBinade (k + 1) j)
    (hfirst : k = 5 * 2 ^ j)
    (hbelow : number (tickTime (k + 1)) - number tickSeconds < 2 ^ j / 4) :
    Touches (windowStart (k + 1)) (tickTime k) := by
  have hlast := h.le_last
  obtain ⟨-, -, hone, -⟩ := h.bounds
  have hexact := number_tickTime_of_eq (by omega) hfirst
  have hfirst' : (k : ℚ) = 5 * 2 ^ j := by exact_mod_cast hfirst
  have hnextNear := abs_le.1 hnext.near
  -- below the power of two a step is half as long
  have hhalf : (2 : ℚ) ^ ((j : Int) - 1 - 54) = 2 ^ j / 36028797018963968 := by
    rw [sub_sub, zpow_sub₀ (by norm_num), zpow_natCast]
    norm_num
  have htick := number_tickSeconds
  push_cast at hnextNear
  norm_num at htick hnextNear
  have hstart := isRounded_windowStart (k := k + 1) (i := (j : Int) - 1) (by omega) (by omega)
    (by rw [zpow_sub_one₀ (by norm_num), zpow_natCast]; linarith)
    (by rw [zpow_sub_one₀ (by norm_num), zpow_natCast]; linarith)
  have hstartNear := abs_le.1 hstart.near
  refine touches_of_near hstart h.isRounded (by omega) (abs_lt.2 ?_)
  rw [hhalf] at hstartNear ⊢
  constructor <;> linarith

/-- No double lies between the start of a window and the tick before, from tick five on. -/
theorem InBinade.touches (h : InBinade k j) : Touches (windowStart (k + 1)) (tickTime k) := by
  obtain ⟨hlow, hhigh, hone, hlast⟩ := h.bounds
  have htick := number_tickSeconds
  norm_num at htick
  rcases Nat.lt_or_ge (k + 1) (5 * 2 ^ (j + 1)) with hinside | hend
  -- no power of two lies between the two ticks, so that one step counts for both
  · have hnext : InBinade (k + 1) j := ⟨h.low.trans k.le_succ, hinside, h.le_last⟩
    obtain ⟨-, hhigh', -, -⟩ := hnext.bounds
    have hnear := hnext.near
    push_cast at hhigh' hnear
    obtain ⟨hdown, hup⟩ := abs_le.1 hnear
    rcases lt_or_ge (number (tickTime (k + 1)) - number tickSeconds) (2 ^ j / 4) with
      hbelow | habove
    -- a start below the binade leaves only its first tick
    · have hfirst : k = 5 * 2 ^ j := by
        have hclose : (k : ℚ) < (5 * 2 ^ j + 1 : ℕ) := by
          push_cast
          linarith
        have hlt := Nat.cast_lt.1 hclose
        have hle := h.low
        omega
      exact h.touches_of_first hnext hfirst hbelow
    · exact h.touches_of_start hnear habove (by linarith)
  · -- The time of the tick is a power of two and exact.
    have hnext : k + 1 = 5 * 2 ^ (j + 1) := Nat.le_antisymm h.high hend
    have hexact := number_tickTime_of_eq (by have := h.le_last; omega) hnext
    have hnext' : (k : ℚ) + 1 = 10 * 2 ^ j := by
      have hcast : ((k + 1 : Nat) : ℚ) = (5 * 2 ^ (j + 1) : Nat) := congrArg Nat.cast hnext
      push_cast at hcast
      rw [pow_succ] at hcast
      linarith
    push_cast at hexact
    refine h.touches_of_start ?_ (by linarith) (by linarith)
    rw [hexact, sub_self, abs_zero]
    positivity

/-- The start of the window of a tick is the time of the tick before, or one of the doubles beside
it. -/
theorem touches_windowStart (hlt : k + 1 < 2 ^ 32) :
    Touches (windowStart (k + 1)) (tickTime k) := by
  rcases Nat.lt_or_ge k 5 with hsmall | hlarge
  -- the first five ticks by calculation: the start hits the tick, or misses it by one double
  · interval_cases k
    · rw [show windowStart (0 + 1) = tickTime 0 by decide +kernel]
      exact .refl (by decide +kernel)
    · rw [show windowStart (1 + 1) = tickTime 1 by decide +kernel]
      exact .refl (by decide +kernel)
    · have hstart : number (windowStart (2 + 1)) = (0x19999999999999 : ℕ) * 2 ^ (-56 : ℤ) :=
        number_of_toBits 0x3FB9999999999999 (by decide +kernel)
      have hprev : number (tickTime 2) = (0x19999999999999 + 1 : ℕ) * 2 ^ (-56 : ℤ) :=
        number_of_toBits 0x3FB999999999999A (by decide +kernel)
      exact touches_of_number_eq ⟨by decide, by decide, by decide, .inl (by decide)⟩ hstart hprev
    · have hstart : number (windowStart (3 + 1)) = (0x13333333333333 + 1 : ℕ) * 2 ^ (-55 : ℤ) :=
        number_of_toBits 0x3FC3333333333334 (by decide +kernel)
      have hprev : number (tickTime 3) = (0x13333333333333 : ℕ) * 2 ^ (-55 : ℤ) :=
        number_of_toBits 0x3FC3333333333333 (by decide +kernel)
      exact (touches_of_number_eq ⟨by decide, by decide, by decide, .inl (by decide)⟩ hprev
        hstart).symm
    · rw [show windowStart (4 + 1) = tickTime 4 by decide +kernel]
      exact .refl (by decide +kernel)
  -- the later ones lie in some binade
  · obtain ⟨j, hj⟩ : ∃ j, j = (k / 5).log2 := ⟨_, rfl⟩
    have hne : k / 5 ≠ 0 := by omega
    have hlow := Nat.log2_self_le hne
    have hhigh := Nat.lt_log2_self (n := k / 5)
    rw [← hj] at hlow hhigh
    have hle : j ≤ 29 := by
      rw [hj]
      exact Nat.le_of_lt_succ ((Nat.log2_lt hne).2 (by omega))
    refine InBinade.touches (j := j) ⟨?_, ?_, hle⟩
    · omega
    · omega

end Starts

/-! ### Keys in windows -/

/-- Of two doubles that touch each other the larger one is the only one that lies after just one of
them. -/
theorem Touches.lt_iff {x y z : Float} (h : Touches x z) (hy : y.isFinite = true)
    (hclear : (y == max x z) = false) : x < y ↔ z < y := by
  have hne : number y ≠ number (max x z) := by
    intro heq
    have hfinite : (max x z).isFinite = true := by
      show (if x ≤ z then z else x).isFinite = true
      split_ifs
      · exact h.right
      · exact h.left
    rw [(float_beq_iff_number hy hfinite).2 heq] at hclear
    cases hclear
  -- nothing lies between the two, so that the larger one is the only time to tell them apart
  have hmax : number (max x z) = max (number x) (number z) := by
    show number (if x ≤ z then z else x) = _
    split_ifs with hle
    · exact (max_eq_right ((float_le_iff_number h.left h.right).1 hle)).symm
    · exact (max_eq_left (not_le.1 (mt (float_le_iff_number h.left h.right).2 hle)).le).symm
  rw [hmax] at hne
  rw [float_lt_iff_number h.left hy, float_lt_iff_number h.right hy]
  constructor
  · intro hlt
    by_contra hnot
    rcases (not_lt.1 hnot).lt_or_eq with hbelow | heq
    -- a time below the larger one and above the smaller one would lie between them
    · exact h.up y ⟨hlt, hbelow⟩
    · exact hne (by rw [heq, max_eq_right (heq ▸ hlt).le])
  · intro hlt
    by_contra hnot
    rcases (not_lt.1 hnot).lt_or_eq with hbelow | heq
    · exact h.down y ⟨hlt, hbelow⟩
    · exact hne (by rw [heq, max_eq_left (heq ▸ hlt).le])

namespace Channel

/-- A key that is reached through a step: a neighbour at an earlier time jumps to it. -/
def StepReached (keys : Array TransformKey) (key : TransformKey) : Prop :=
  ∃ left, (left, key) ∈ neighbours keys ∧ left.interpolation = .step ∧ left.time < key.time

theorem StepReached.mem {keys : Array TransformKey} {key : TransformKey}
    (h : StepReached keys key) : key ∈ keys := by
  obtain ⟨left, hmem, -, -⟩ := h
  exact Array.mem_toList_iff.1 (List.mem_of_mem_drop (List.of_mem_zip hmem).2)

/-- What the test for steps looks for. -/
theorem hasStepArrival_iff {keys : Array TransformKey} {lo hi : Float} :
    hasStepArrival keys lo hi = true ↔
      ∃ key, StepReached keys key ∧ lo < key.time ∧ key.time ≤ hi := by
  unfold hasStepArrival StepReached
  rw [List.any_eq_true]
  constructor
  · rintro ⟨⟨left, key⟩, hmem, h⟩
    simp only [Bool.and_eq_true, decide_eq_true_eq] at h
    exact ⟨key, ⟨left, hmem, h.1.1.1, h.1.1.2⟩, h.1.2, h.2⟩
  · rintro ⟨key, ⟨left, hmem, hstep, hbefore⟩, hlo, hhi⟩
    refine ⟨(left, key), hmem, ?_⟩
    simp only [Bool.and_eq_true, decide_eq_true_eq]
    exact ⟨⟨⟨hstep, hbefore⟩, hlo⟩, hhi⟩

/-- A step is marked at the tick before which it was not reached yet, and at no other, unless its
key lies just on the boundary of two windows that do not meet at the time of the first. -/
theorem hasStepArrival_window_iff {keys : Array TransformKey}
    (hfinite : ∀ key ∈ keys, key.time.isFinite = true) {k : Nat} (hlt : k + 1 < 2 ^ 32)
    (hclear : tickTime (k + 1) - tickSeconds = tickTime k ∨ ∀ key, StepReached keys key →
      (key.time == max (tickTime (k + 1) - tickSeconds) (tickTime k)) = false) :
    (hasStepArrival keys (tickTime (k + 1) - tickSeconds) (tickTime (k + 1)) = true ↔
        ∃ key, StepReached keys key ∧ tickTime k < key.time ∧ key.time ≤ tickTime (k + 1)) ∧
      ∀ key, StepReached keys key → tickTime (k + 1) - tickSeconds < key.time →
        ¬key.time ≤ tickTime k := by
  have hsame : ∀ key, StepReached keys key →
      (tickTime (k + 1) - tickSeconds < key.time ↔ tickTime k < key.time) := by
    -- the start of the window and the time of the tick before cut the steps in the same way
    intro key hkey
    rcases hclear with heq | hclear
    · rw [heq]
    · exact (touches_windowStart hlt).lt_iff (hfinite key hkey.mem) (hclear key hkey)
  constructor
  · rw [hasStepArrival_iff]
    constructor
    · rintro ⟨key, hkey, hlo, hhi⟩
      exact ⟨key, hkey, (hsame key hkey).1 hlo, hhi⟩
    · rintro ⟨key, hkey, hlo, hhi⟩
      exact ⟨key, hkey, (hsame key hkey).2 hlo, hhi⟩
  · intro key hkey hlo hle
    have hafter := (hsame key hkey).1 hlo
    have htick := (touches_windowStart hlt).right
    have hfin := hfinite key hkey.mem
    rw [float_lt_iff_number htick hfin] at hafter
    rw [float_le_iff_number hfin htick] at hle
    exact hle.not_gt hafter

/-- A key at a tenth of a second is reached through a step: it is marked at tick two and again at
tick three. -/
def tenth : Array TransformKey :=
  #[{ time := 0, value := .zero, interpolation := .step }, { time := 0.1, value := .one }]

theorem hasStepArrival_tenth_twice :
    (tenth.toList.Pairwise fun left right => left.time ≤ right.time) ∧
      (∀ key ∈ tenth, key.time.isFinite = true) ∧
      hasStepArrival tenth (tickTime 2 - tickSeconds) (tickTime 2) = true ∧
      ¬(hasStepArrival tenth (tickTime 3 - tickSeconds) (tickTime 3) = true ↔
        ∃ key, StepReached tenth key ∧ tickTime 2 < key.time ∧ key.time ≤ tickTime 3) := by
  refine ⟨?_, ?_, by decide +kernel, ?_⟩
  · rw [tenth, List.pairwise_pair]
    decide +kernel
  · simp only [tenth, List.mem_toArray, List.forall_mem_cons]
    exact ⟨by decide +kernel, by decide +kernel, fun _ h => nomatch h⟩
  · intro h
    have hmarked : hasStepArrival tenth (tickTime 3 - tickSeconds) (tickTime 3) = true := by
      decide +kernel
    obtain ⟨key, ⟨left, hmem, -, -⟩, hlater, -⟩ := h.1 hmarked
    cases List.mem_singleton.1 hmem
    exact absurd hlater (by decide +kernel)

/-- A key a little later is marked at tick three only. -/
def afterTenth : Array TransformKey :=
  #[{ time := 0, value := .zero, interpolation := .step }, { time := 0.12, value := .one }]

theorem hasStepArrival_afterTenth :
    (∀ key ∈ afterTenth, key.time.isFinite = true) ∧ 2 + 1 < 2 ^ 32 ∧
      (∀ key, StepReached afterTenth key →
        (key.time == max (tickTime (2 + 1) - tickSeconds) (tickTime 2)) = false) ∧
      (hasStepArrival afterTenth (tickTime (2 + 1) - tickSeconds) (tickTime (2 + 1)) = true ↔
        ∃ key, StepReached afterTenth key ∧ tickTime 2 < key.time ∧ key.time ≤ tickTime (2 + 1)) ∧
      ∀ key, StepReached afterTenth key → tickTime (2 + 1) - tickSeconds < key.time →
        ¬key.time ≤ tickTime 2 := by
  have hfinite : ∀ key ∈ afterTenth, key.time.isFinite = true := by
    simp only [afterTenth, List.mem_toArray, List.forall_mem_cons]
    exact ⟨by decide +kernel, by decide +kernel, fun _ h => nomatch h⟩
  have hclear : ∀ key, StepReached afterTenth key →
      (key.time == max (tickTime (2 + 1) - tickSeconds) (tickTime 2)) = false := by
    rintro key ⟨left, hmem, -, -⟩
    cases List.mem_singleton.1 hmem
    decide +kernel
  exact ⟨hfinite, by decide, hclear,
    hasStepArrival_window_iff hfinite (by decide) (.inr hclear)⟩

end Channel

end Marionette
