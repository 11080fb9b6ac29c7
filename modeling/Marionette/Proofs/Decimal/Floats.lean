import Mathlib
import Marionette.Proofs.Decimal.Shortest

/-!
# Floats are told apart by their texts

The floats of a format have a bounded mantissa, and a full one above the least exponent.  No number
rounds to two of them, so the shortest decimals of two floats are the same only for the same float.

- `Binary.IsRegular`, `Binary.IsRegular.eq_of_covers`: the floats of a format, and that no number
  rounds to two of them.
- `Size.IsFinite`, `Size.isFinite_ofFields`, `Size.ofFields_inj`: the sizes that a format encodes.
- `sizeText_inj`: signs and sizes are told apart by their texts.
- `doubleText_inj`, `singleText_inj`: the same for the two float types.
- `IsNumeral`, `isNumeral_doubleText`, `isNumeral_singleText`, `isNumeral_int`: texts of numbers
  hold signs, digits and points only.
-/

namespace Marionette

namespace Decimal

/-- A positive float of a format with `bits` bits of fraction and a least exponent. -/
structure Binary.IsRegular (bits : Nat) (least : Int) (b : Binary) : Prop where
  /-- The mantissa is positive. -/
  pos : 0 < b.mantissa
  /-- The mantissa has one bit more than the fraction. -/
  lt : b.mantissa < 2 ^ (bits + 1)
  /-- The exponent is not below the least one. -/
  least_le : least ≤ b.exponent
  /-- Above the least exponent the mantissa is full. -/
  full : least < b.exponent → 2 ^ bits ≤ b.mantissa
  /-- The step below a power of two is half a step, where it is not the least one. -/
  narrow : b.narrowBelow = true ↔ b.mantissa = 2 ^ bits ∧ least < b.exponent

namespace Binary

variable {bits : Nat} {least : Int} {b c : Binary} {q : ℚ}

/-- The upper end belongs to a float with an even mantissa only. -/
theorem Covers.even_of_high (h : b.Covers q) (hq : b.high ≤ q) : b.mantissa % 2 = 0 := by
  by_contra hodd
  unfold Covers at h
  rw [if_neg hodd] at h
  exact absurd h.2 hq.not_gt

/-- The lower end belongs to a float with an even mantissa only. -/
theorem Covers.even_of_low (h : b.Covers q) (hq : q ≤ b.low) : b.mantissa % 2 = 0 := by
  by_contra hodd
  unfold Covers at h
  rw [if_neg hodd] at h
  exact absurd h.1 hq.not_gt

namespace IsRegular

/-- A float ends where the next larger one with the same exponent begins, and one of them is odd. -/
theorem high_le_low_of_mantissa_lt (hb : b.IsRegular bits least) (hc : c.IsRegular bits least)
    (hexponent : b.exponent = c.exponent) (hlt : b.mantissa < c.mantissa) :
    b.high ≤ c.low ∧ (b.high = c.low → b.mantissa + 1 = c.mantissa) := by
  have hstep := c.step_pos
  have hwide : ¬ c.narrowBelow = true := by
    rw [hc.narrow]
    rintro ⟨hfirst, hexp⟩
    have hfull := hb.full (hexponent ▸ hexp)
    omega
  have hmantissa : (b.mantissa : ℚ) + 1 ≤ c.mantissa := by exact_mod_cast hlt
  unfold high low value
  rw [if_neg hwide, hexponent]
  constructor
  · nlinarith
  · intro heq
    have hsum : ((b.mantissa : ℚ) + 1) * 2 ^ c.exponent = c.mantissa * 2 ^ c.exponent := by linarith
    exact_mod_cast mul_right_cancel₀ hstep.ne' hsum

/-- A float ends where those with larger exponents begin or before, and is odd if it ends there. -/
theorem high_le_low_of_exponent_lt (hb : b.IsRegular bits least) (hc : c.IsRegular bits least)
    (hexponent : b.exponent < c.exponent) :
    b.high ≤ c.low ∧ (b.high = c.low → b.mantissa % 2 = 1) := by
  -- Everything is counted in half a step of the larger float.
  have hhalf : (0 : ℚ) < 2 ^ (c.exponent - 1) := by positivity
  have hwhole : (2 : ℚ) ^ c.exponent = 2 * 2 ^ (c.exponent - 1) := by
    rw [← zpow_one_add₀ (by norm_num), add_sub_cancel]
  have hhigh : b.high ≤ (b.mantissa + 1 / 2) * 2 ^ (c.exponent - 1) := by
    have hstep : (2 : ℚ) ^ b.exponent ≤ 2 ^ (c.exponent - 1) :=
      zpow_le_zpow_right₀ (by norm_num) (by omega)
    unfold high value
    rw [← add_mul]
    exact mul_le_mul_of_nonneg_left hstep (by positivity)
  have hlow : ((2 ^ (bits + 1) : Nat) - 1 / 2 : ℚ) * 2 ^ (c.exponent - 1) ≤ c.low := by
    have habove : least < c.exponent := hb.least_le.trans_lt hexponent
    have hfull := hc.full habove
    unfold low value
    rw [hwhole]
    by_cases hnarrow : c.narrowBelow = true
    · rw [if_pos hnarrow, (hc.narrow.1 hnarrow).1]
      push_cast
      rw [pow_succ]
      linarith
    · have hne : c.mantissa ≠ 2 ^ bits := fun h => hnarrow (hc.narrow.2 ⟨h, habove⟩)
      have hmantissa : ((2 ^ bits : Nat) : ℚ) + 1 ≤ c.mantissa := by
        exact_mod_cast Nat.lt_of_le_of_ne hfull hne.symm
      rw [if_neg hnarrow]
      push_cast at hmantissa ⊢
      rw [pow_succ]
      nlinarith
  have hmantissa : (b.mantissa : ℚ) + 1 ≤ (2 ^ (bits + 1) : Nat) := by exact_mod_cast hb.lt
  constructor
  · refine hhigh.trans (le_trans ?_ hlow)
    exact mul_le_mul_of_nonneg_right (by linarith) hhalf.le
  · intro heq
    have hends : ((2 ^ (bits + 1) : Nat) - 1 / 2 : ℚ) ≤ b.mantissa + 1 / 2 :=
      le_of_mul_le_mul_right (hlow.trans (heq.symm.trans_le hhigh)) hhalf
    have hlast : ((2 ^ (bits + 1) : Nat) : ℚ) ≤ ((b.mantissa + 1 : Nat) : ℚ) := by
      push_cast at hends ⊢
      linarith
    have hlast : 2 ^ (bits + 1) ≤ b.mantissa + 1 := by exact_mod_cast hlast
    have hsame : b.mantissa + 1 = 2 * 2 ^ bits := by
      rw [← pow_succ']
      exact le_antisymm hb.lt hlast
    omega

/-- No number rounds to two floats of which one ends before the other begins. -/
theorem not_covers_of_high_le (hends : b.high ≤ c.low)
    (hodd : b.high = c.low → ¬ (b.mantissa % 2 = 0 ∧ c.mantissa % 2 = 0)) (hb : b.Covers q) :
    ¬ c.Covers q := by
  intro hc
  have hbq := hb.le.2
  have hcq := hc.le.1
  refine hodd (le_antisymm hends (hcq.trans hbq)) ⟨?_, ?_⟩
  · exact hb.even_of_high (hends.trans hcq)
  · exact hc.even_of_low (hbq.trans hends)

/-- No number rounds to two floats of a format, of which one comes before the other. -/
theorem not_covers_of_lt (hb : b.IsRegular bits least) (hc : c.IsRegular bits least)
    (hlt : b.exponent < c.exponent ∨ b.exponent = c.exponent ∧ b.mantissa < c.mantissa)
    (hcovers : b.Covers q) : ¬ c.Covers q := by
  obtain hexponent | ⟨hexponent, hmantissa⟩ := hlt
  · obtain ⟨hends, hodd⟩ := hb.high_le_low_of_exponent_lt hc hexponent
    refine not_covers_of_high_le hends ?_ hcovers
    rintro heq ⟨heven, -⟩
    have hmod := hodd heq
    omega
  · obtain ⟨hends, hnext⟩ := hb.high_le_low_of_mantissa_lt hc hexponent hmantissa
    refine not_covers_of_high_le hends ?_ hcovers
    rintro heq ⟨heven, heven'⟩
    have hsucc := hnext heq
    omega

/-- A number rounds to one float of a format only. -/
theorem eq_of_covers (hb : b.IsRegular bits least) (hc : c.IsRegular bits least)
    (hbq : b.Covers q) (hcq : c.Covers q) : b = c := by
  have hle : ¬ (b.exponent < c.exponent ∨ b.exponent = c.exponent ∧ b.mantissa < c.mantissa) :=
    fun hlt => hb.not_covers_of_lt hc hlt hbq hcq
  have hge : ¬ (c.exponent < b.exponent ∨ c.exponent = b.exponent ∧ c.mantissa < b.mantissa) :=
    fun hlt => hc.not_covers_of_lt hb hlt hcq hbq
  have hexponent : b.exponent = c.exponent := by omega
  have hmantissa : b.mantissa = c.mantissa := by omega
  have hnarrow : b.narrowBelow = c.narrowBelow := by
    rw [Bool.eq_iff_iff, hb.narrow, hc.narrow, hexponent, hmantissa]
  cases b
  cases c
  cases hexponent
  cases hmantissa
  cases hnarrow
  rfl

end IsRegular

end Binary

/-- The sizes of a format that are finite: zero and its positive floats. -/
inductive Size.IsFinite (bits : Nat) (least : Int) : Size → Prop where
  /-- Zero. -/
  | zero : IsFinite bits least .zero
  /-- A positive float. -/
  | positive {b : Binary} (h : b.IsRegular bits least) : IsFinite bits least (.positive b)

namespace Size

variable {bits width field fraction field' fraction' : Nat} {least : Int}

/-- The least exponent of the floats with exponent fields of `width` bits. -/
def leastExponent (width bits : Nat) : Int := 2 - (2 ^ (width - 1) : Nat) - bits

/-- What the fields of a finite float encode. -/
theorem ofFields_eq (hfield : field ≠ 2 ^ width - 1) :
    ofFields width bits field fraction =
      if field = 0 then
        if fraction = 0 then .zero else .positive ⟨fraction, leastExponent width bits, false⟩
      else .positive
        ⟨2 ^ bits + fraction, leastExponent width bits + field - 1, fraction = 0 ∧ 1 < field⟩ := by
  have hleast : 1 - (((2 ^ (width - 1) : Nat) : Int) - 1) - bits = leastExponent width bits := by
    unfold leastExponent
    omega
  have hexponent : (field : Int) - (((2 ^ (width - 1) : Nat) : Int) - 1) - bits =
      leastExponent width bits + field - 1 := by
    unfold leastExponent
    omega
  rw [← hexponent, ← hleast]
  unfold ofFields
  exact if_neg hfield

/-- Fields encode a finite size, unless the exponent is the one for what is not finite. -/
theorem isFinite_ofFields (hfield : field ≠ 2 ^ width - 1) (hfraction : fraction < 2 ^ bits) :
    (ofFields width bits field fraction).IsFinite bits (leastExponent width bits) := by
  have hdouble : 2 ^ (bits + 1) = 2 * 2 ^ bits := pow_succ' 2 bits
  rw [ofFields_eq hfield]
  by_cases hzero : field = 0
  · rw [if_pos hzero]
    by_cases hnone : fraction = 0
    · rw [if_pos hnone]
      exact .zero
    · rw [if_neg hnone]
      refine .positive ⟨?_, ?_, ?_, ?_, ?_⟩ <;> dsimp only
      · omega
      · omega
      · omega
      · omega
      · constructor
        · intro hnarrow
          cases hnarrow
        · rintro ⟨hfull, -⟩
          omega
  · rw [if_neg hzero]
    refine .positive ⟨?_, ?_, ?_, ?_, ?_⟩ <;> dsimp only
    · omega
    · omega
    · omega
    · omega
    · rw [decide_eq_true_iff]
      omega

/-- Different fields encode different sizes. -/
theorem ofFields_inj (hfield : field ≠ 2 ^ width - 1) (hfield' : field' ≠ 2 ^ width - 1)
    (hfraction : fraction < 2 ^ bits) (hfraction' : fraction' < 2 ^ bits)
    (h : ofFields width bits field fraction = ofFields width bits field' fraction') :
    field = field' ∧ fraction = fraction' := by
  rw [ofFields_eq hfield, ofFields_eq hfield'] at h
  -- A full mantissa is told apart from one without its first bit, and neither is zero.
  by_cases hzero : field = 0 <;> by_cases hzero' : field' = 0
  · rw [if_pos hzero, if_pos hzero'] at h
    by_cases hnone : fraction = 0 <;> by_cases hnone' : fraction' = 0
    · omega
    · rw [if_pos hnone, if_neg hnone'] at h
      cases h
    · rw [if_neg hnone, if_pos hnone'] at h
      cases h
    · rw [if_neg hnone, if_neg hnone', Size.positive.injEq, Binary.mk.injEq] at h
      omega
  · rw [if_pos hzero, if_neg hzero'] at h
    by_cases hnone : fraction = 0
    · rw [if_pos hnone] at h
      cases h
    · rw [if_neg hnone, Size.positive.injEq, Binary.mk.injEq] at h
      omega
  · rw [if_neg hzero, if_pos hzero'] at h
    by_cases hnone' : fraction' = 0
    · rw [if_pos hnone'] at h
      cases h
    · rw [if_neg hnone', Size.positive.injEq, Binary.mk.injEq] at h
      omega
  · rw [if_neg hzero, if_neg hzero', Size.positive.injEq, Binary.mk.injEq] at h
    omega

end Size

/-! ### Texts of sizes -/

/-- A number that a size stands for, as far as its text says. -/
def Size.Covers : Size → ℚ → Prop
  | .zero, q => q = 0
  | .positive b, q => b.Covers q
  | .infinite, _ | .nan, _ => False

/-- A number is covered by one finite size of a format only. -/
theorem Size.IsFinite.eq_of_covers {bits : Nat} {least : Int} {s t : Size} {q : ℚ}
    (hs : s.IsFinite bits least) (ht : t.IsFinite bits least) (hsq : s.Covers q)
    (htq : t.Covers q) :
    s = t := by
  cases hs with
  | zero =>
    cases ht with
    | zero => rfl
    | positive hc => exact absurd hsq (htq.pos hc.pos).ne'
  | positive hb =>
    cases ht with
    | zero => exact absurd htq (hsq.pos hb.pos).ne'
    | positive hc => rw [hb.eq_of_covers hc hsq htq]

/-- The text of a finite size is a sign and a positional text of a number that it covers. -/
theorem exists_sizeText {bits : Nat} {least : Int} {size : Size} (negative : Bool)
    (h : size.IsFinite bits least) (hbits : bits ≤ 52) (hleast : -7000 ≤ least) :
    ∃ c cs, (sizeText negative size).toList = (if negative then ['-'] else []) ++ c :: cs ∧
      c.isDigit = true ∧ (∀ x ∈ c :: cs, IsPositional x) ∧ size.Covers (reading (c :: cs)) := by
  have hsign (body : List Char) : (String.ofList (if negative then '-' :: body else body)).toList =
      (if negative then ['-'] else []) ++ body := by
    rw [String.toList_ofList]
    cases negative <;> rfl
  cases h with
  | zero =>
    refine ⟨'0', [], hsign ['0'], by decide, List.forall_mem_singleton.2 (.inl (by decide)), ?_⟩
    show reading ['0'] = 0
    rw [reading_whole (List.forall_mem_singleton.2 (by decide))]
    rfl
  | @positive b hb =>
    obtain ⟨c, cs, hplain, hc⟩ := (b.shortest .up).exists_cons_plain
    have hall := (b.shortest .up).isPositional_plain
    have hreading := (b.shortest .up).reading_plain
    rw [hplain] at hall hreading
    refine ⟨c, cs, ?_, hc, hall, ?_⟩
    · rw [← hplain]
      exact hsign _
    · show b.Covers (reading (c :: cs))
      rw [hreading]
      refine Binary.covers_shortest .up hb.pos (hb.lt.trans_le ?_) (hleast.trans hb.least_le)
      exact Nat.pow_le_pow_right (by decide) (by omega)

/-- Signs and sizes are told apart by their texts. -/
theorem sizeText_inj {bits : Nat} {least : Int} {s t : Size} {negative negative' : Bool}
    (hbits : bits ≤ 52) (hleast : -7000 ≤ least) (hs : s.IsFinite bits least)
    (ht : t.IsFinite bits least) (h : sizeText negative s = sizeText negative' t) :
    negative = negative' ∧ s = t := by
  obtain ⟨c, cs, hc, hdigit, -, hcovers⟩ := exists_sizeText negative hs hbits hleast
  obtain ⟨c', cs', hc', hdigit', -, hcovers'⟩ := exists_sizeText negative' ht hbits hleast
  rw [h, hc'] at hc
  cases negative <;> cases negative'
  · obtain ⟨rfl, rfl⟩ := List.cons.inj (show c' :: cs' = c :: cs from hc)
    exact ⟨rfl, hs.eq_of_covers ht hcovers hcovers'⟩
  · obtain ⟨rfl, -⟩ := List.cons.inj (show '-' :: c' :: cs' = c :: cs from hc)
    exact absurd hdigit (by decide)
  · obtain ⟨rfl, -⟩ := List.cons.inj (show c' :: cs' = '-' :: c :: cs from hc)
    exact absurd hdigit' (by decide)
  · obtain ⟨-, rfl, rfl⟩ := (show '-' = '-' ∧ c' = c ∧ cs' = cs by simpa using hc)
    exact ⟨rfl, hs.eq_of_covers ht hcovers hcovers'⟩

/-! ### Numerals -/

/-- The characters of numbers. -/
def isNumeric (c : Char) : Bool := c.isDigit || c == '.' || c == '-'

/-- A text of such characters that starts with a digit or a sign. -/
def IsNumeral (cs : List Char) : Prop :=
  (∃ c rest, cs = c :: rest ∧ (c.isDigit = true ∨ c = '-')) ∧ ∀ c ∈ cs, isNumeric c = true

theorem IsPositional.isNumeric {c : Char} (h : IsPositional c) : isNumeric c = true := by
  unfold Decimal.isNumeric
  obtain h | rfl := h
  · rw [h]
    rfl
  · decide

/-- Digits make a numeral, with a sign before them or without. -/
theorem isNumeral_signed (negative : Bool) {c : Char} {cs : List Char} (hc : c.isDigit = true)
    (hall : ∀ x ∈ c :: cs, IsPositional x) :
    IsNumeral ((if negative then ['-'] else []) ++ c :: cs) := by
  have hnumeric : ∀ x ∈ c :: cs, isNumeric x = true := fun x hx => (hall x hx).isNumeric
  cases negative with
  | false => exact ⟨⟨c, cs, rfl, .inl hc⟩, hnumeric⟩
  | true => exact ⟨⟨'-', c :: cs, rfl, .inr rfl⟩, List.forall_mem_cons.2 ⟨by decide, hnumeric⟩⟩

/-- The text of a finite size is a numeral. -/
theorem isNumeral_sizeText {bits : Nat} {least : Int} {size : Size} (negative : Bool)
    (h : size.IsFinite bits least) (hbits : bits ≤ 52) (hleast : -7000 ≤ least) :
    IsNumeral (sizeText negative size).toList := by
  obtain ⟨c, cs, htext, hc, hall, -⟩ := exists_sizeText negative h hbits hleast
  rw [htext]
  exact isNumeral_signed negative hc hall

/-- The text of a whole number is a numeral. -/
theorem isNumeral_int (n : Int) : IsNumeral (toString n).toList := by
  have hdigits (k : Nat) : ∃ c cs, k.repr.toList = c :: cs ∧ c.isDigit = true ∧
      ∀ x ∈ c :: cs, IsPositional x := by
    have hall : ∀ c ∈ k.repr.toList, c.isDigit = true := by
      intro c hc
      rw [Nat.repr, String.toList_ofList] at hc
      exact isDigit_of_mem_digitText hc
    have hne : k.repr.toList ≠ [] := by
      rw [Nat.repr, String.toList_ofList]
      exact Nat.toDigits_ne_nil
    obtain ⟨c, cs, hcs⟩ := List.exists_cons_of_ne_nil hne
    rw [hcs] at hall
    exact ⟨c, cs, hcs, hall c List.mem_cons_self, fun x hx => .inl (hall x hx)⟩
  cases n with
  | ofNat n =>
    obtain ⟨c, cs, htext, hc, hall⟩ := hdigits n
    show IsNumeral n.repr.toList
    rw [htext]
    exact isNumeral_signed false hc hall
  | negSucc n =>
    obtain ⟨c, cs, htext, hc, hall⟩ := hdigits (n + 1)
    show IsNumeral ("-" ++ (n + 1).repr).toList
    rw [String.toList_append, htext]
    exact isNumeral_signed true hc hall

/-! ### The two float types -/

section Formats

open Float.Model (Format)
open Float.Model.UnpackedFloat (unpack unpackExponent)

/-- The last exponent is the one of what is not finite. -/
theorem isFinite_unpack_eq_false {spec : Format} {b : BitVec spec.numBits}
    (h : unpackExponent b = -BitVec.ofNat spec.exponentBits 1) :
    (unpack spec b).isFinite = false := by
  unfold unpack
  dsimp only
  rw [if_pos h]
  split <;> rfl

/-- The exponent of a finite double is not the last one. -/
theorem exponent_ne_of_isFinite {x : Float} (h : x.isFinite = true) :
    x.toBits.toNat / 4503599627370496 % 2048 ≠ 2 ^ 11 - 1 := by
  intro hfield
  have hlast : @unpackExponent .binary64 x.toModel.toBits.toBitVec = -1#11 := by
    apply BitVec.eq_of_toNat_eq
    unfold unpackExponent
    rw [BitVec.toNat_cast, BitVec.extractLsb_toNat, Nat.shiftRight_eq_div_pow]
    exact hfield
  have hinfinite : x.isFinite = false := isFinite_unpack_eq_false hlast
  rw [h] at hinfinite
  cases hinfinite

/-- The exponent of a finite float of single precision is not the last one. -/
theorem exponent_ne_of_isFinite_single {x : Float32} (h : x.isFinite = true) :
    x.toBits.toNat / 8388608 % 256 ≠ 2 ^ 8 - 1 := by
  intro hfield
  have hlast : @unpackExponent .binary32 x.toModel.toBits.toBitVec = -1#8 := by
    apply BitVec.eq_of_toNat_eq
    unfold unpackExponent
    rw [BitVec.toNat_cast, BitVec.extractLsb_toNat, Nat.shiftRight_eq_div_pow]
    exact hfield
  have hinfinite : x.isFinite = false := isFinite_unpack_eq_false hlast
  rw [h] at hinfinite
  cases hinfinite

end Formats

/-- The size of a finite double. -/
theorem isFinite_doubleParts {x : Float} (h : x.isFinite = true) :
    (doubleParts x).2.IsFinite 52 (-1074) :=
  Size.isFinite_ofFields (exponent_ne_of_isFinite h) (Nat.mod_lt _ (by decide))

/-- The size of a finite float of single precision. -/
theorem isFinite_singleParts {x : Float32} (h : x.isFinite = true) :
    (singleParts x).2.IsFinite 23 (-149) :=
  Size.isFinite_ofFields (exponent_ne_of_isFinite_single h) (Nat.mod_lt _ (by decide))

/-- The text of a finite double is a numeral. -/
theorem isNumeral_doubleText {x : Float} (h : x.isFinite = true) :
    IsNumeral (doubleText x).toList :=
  isNumeral_sizeText _ (isFinite_doubleParts h) (by decide) (by decide)

/-- The text of a finite float of single precision is a numeral. -/
theorem isNumeral_singleText {x : Float32} (h : x.isFinite = true) :
    IsNumeral (singleText x).toList :=
  isNumeral_sizeText _ (isFinite_singleParts h) (by decide) (by decide)

/-- Finite doubles are told apart by their texts. -/
theorem doubleText_inj {x y : Float} (hx : x.isFinite = true) (hy : y.isFinite = true)
    (h : doubleText x = doubleText y) : x = y := by
  obtain ⟨hsign, hsize⟩ := sizeText_inj (by decide) (by decide) (isFinite_doubleParts hx)
    (isFinite_doubleParts hy) h
  obtain ⟨hfield, hfraction⟩ := Size.ofFields_inj (exponent_ne_of_isFinite hx)
    (exponent_ne_of_isFinite hy) (Nat.mod_lt _ (by decide)) (Nat.mod_lt _ (by decide)) hsize
  have hsign : x.toBits.toNat / 9223372036854775808 = 1 ↔
      y.toBits.toNat / 9223372036854775808 = 1 :=
    (beq_iff_eq.symm.trans (Bool.eq_iff_iff.1 hsign)).trans beq_iff_eq
  have hxbits := x.toBits.toNat_lt
  have hybits := y.toBits.toNat_lt
  refine Float.toBits_inj.1 (UInt64.toNat_inj.1 ?_)
  omega

/-- Finite floats of single precision are told apart by their texts. -/
theorem singleText_inj {x y : Float32} (hx : x.isFinite = true) (hy : y.isFinite = true)
    (h : singleText x = singleText y) : x = y := by
  obtain ⟨hsign, hsize⟩ := sizeText_inj (by decide) (by decide) (isFinite_singleParts hx)
    (isFinite_singleParts hy) h
  obtain ⟨hfield, hfraction⟩ := Size.ofFields_inj (exponent_ne_of_isFinite_single hx)
    (exponent_ne_of_isFinite_single hy) (Nat.mod_lt _ (by decide)) (Nat.mod_lt _ (by decide)) hsize
  have hsign : x.toBits.toNat / 2147483648 = 1 ↔ y.toBits.toNat / 2147483648 = 1 :=
    (beq_iff_eq.symm.trans (Bool.eq_iff_iff.1 hsign)).trans beq_iff_eq
  have hxbits := x.toBits.toNat_lt
  have hybits := y.toBits.toNat_lt
  refine Float32.toBits_inj.1 (UInt32.toNat_inj.1 ?_)
  omega

end Decimal

end Marionette
