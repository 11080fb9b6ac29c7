import Mathlib
import Marionette.Decimal.Layout

/-!
# Reading decimals back

- `Decimal.value`: the number that a decimal stands for; moving zeros into the exponent keeps it.
- `Decimal.reading`: the number that a positional text stands for.
- `Decimal.reading_plain`: the positional text of a decimal is read back as its number.
- `Decimal.isPositional_plain`: such a text holds digits and points only, and starts with a digit.
-/

namespace Marionette

namespace Decimal

/-- The number that a decimal stands for. -/
def value (d : Decimal) : ℚ := d.digits * 10 ^ d.exponent

/-- Moving the zeros at the end of the digits into the exponent keeps the number. -/
theorem value_stripZeros (fuel : Nat) (d : Decimal) : (d.stripZeros fuel).value = d.value := by
  induction fuel generalizing d with
  | zero => rfl
  | succ fuel ih =>
    unfold stripZeros
    split
    · rename_i h
      have hdigits : d.digits = d.digits / 10 * 10 := by omega
      have hvalue : (⟨d.digits / 10, d.exponent + 1⟩ : Decimal).value = d.value := by
        unfold value
        rw [zpow_add_one₀ (by norm_num)]
        nth_rewrite 2 [hdigits]
        push_cast
        ring
      exact (ih _).trans hvalue
    · rfl

/-- The number that a positional text stands for: all its digits, of which those behind the point
are counted as places. -/
def reading (cs : List Char) : ℚ :=
  (Nat.ofDigitChars 10 (cs.filter (· != '.')) 0 : ℚ) / 10 ^ ((cs.dropWhile (· != '.')).length - 1)

/-- A character that is a digit or a point. -/
def IsPositional (c : Char) : Prop := c.isDigit = true ∨ c = '.'

theorem isDigit_of_mem_digitText {n : Nat} {c : Char} (h : c ∈ digitText n) : c.isDigit = true :=
  Nat.isDigit_of_mem_toDigits (by decide) (by decide) h

/-- Digits hold no point. -/
theorem ne_point_of_isDigit {c : Char} (h : c.isDigit = true) : (c != '.') = true := by
  rw [bne_iff_ne]
  rintro rfl
  exact absurd h (by decide)

theorem ne_point_of_mem_digitText {n : Nat} : ∀ c ∈ digitText n, (c != '.') = true :=
  fun _ h => ne_point_of_isDigit (isDigit_of_mem_digitText h)

theorem ne_point_of_mem_zeros {n : Nat} : ∀ c ∈ List.replicate n '0', (c != '.') = true := by
  intro c h
  rw [List.eq_of_mem_replicate h]
  decide

/-- A text without a point is a whole number. -/
theorem reading_whole {cs : List Char} (h : ∀ c ∈ cs, (c != '.') = true) :
    reading cs = Nat.ofDigitChars 10 cs 0 := by
  have hdrop : cs.dropWhile (· != '.') = [] := List.dropWhile_eq_nil_iff.2 h
  rw [reading, List.filter_eq_self.2 h, hdrop]
  simp

/-- The digits behind the point of a text are places. -/
theorem reading_point {cs ds : List Char} (hc : ∀ c ∈ cs, (c != '.') = true)
    (hd : ∀ c ∈ ds, (c != '.') = true) :
    reading (cs ++ '.' :: ds) = Nat.ofDigitChars 10 (cs ++ ds) 0 / 10 ^ ds.length := by
  have hdrop : (cs ++ '.' :: ds).dropWhile (· != '.') = '.' :: ds := by
    rw [List.dropWhile_append, List.dropWhile_eq_nil_iff.2 hc]
    rfl
  have hfilter : (cs ++ '.' :: ds).filter (· != '.') = cs ++ ds := by
    rw [List.filter_append, List.filter_cons_of_neg (by decide), List.filter_eq_self.2 hc,
      List.filter_eq_self.2 hd]
  rw [reading, hdrop, hfilter, List.length_cons, Nat.add_sub_cancel]

theorem ofDigitChars_digitText (n : Nat) : Nat.ofDigitChars 10 (digitText n) 0 = n :=
  Nat.ofDigitChars_ten_toDigits

/-- The positional text of a decimal is read back as its number. -/
theorem reading_plain (d : Decimal) : reading d.plain = d.value := by
  obtain ⟨n, e⟩ := d
  unfold plain value
  cases e with
  | ofNat e =>
    dsimp only
    -- a number of whole units has no point
    rw [reading_whole (List.forall_mem_append.2 ⟨ne_point_of_mem_digitText, ne_point_of_mem_zeros⟩),
      Nat.ofDigitChars_append, ofDigitChars_digitText, Nat.ofDigitChars_replicate_zero]
    push_cast
    rw [Int.ofNat_eq_natCast, zpow_natCast, mul_comm]
  | negSucc e =>
    have hvalue : ((n : Nat) : ℚ) * 10 ^ Int.negSucc e = n / 10 ^ (e + 1) := by
      rw [zpow_negSucc, div_eq_mul_inv]
    dsimp only
    rw [hvalue]
    split
    · rename_i hlt
      -- the point lies within the digits
      rw [List.append_assoc, List.singleton_append,
        reading_point (fun c hc => ne_point_of_mem_digitText c (List.mem_of_mem_take hc))
          (fun c hc => ne_point_of_mem_digitText c (List.mem_of_mem_drop hc)),
        List.take_append_drop, ofDigitChars_digitText, List.length_drop]
      congr 2
      omega
    · rename_i hge
      -- the digits are filled up with zeros behind the point
      have hplaces : ∀ c ∈ List.replicate (e + 1 - (digitText n).length) '0' ++ digitText n,
          (c != '.') = true :=
        List.forall_mem_append.2 ⟨ne_point_of_mem_zeros, ne_point_of_mem_digitText⟩
      have htext : ['0', '.'] ++ List.replicate (e + 1 - (digitText n).length) '0' ++ digitText n =
          ['0'] ++ '.' :: (List.replicate (e + 1 - (digitText n).length) '0' ++ digitText n) := by
        simp
      rw [htext, reading_point (List.forall_mem_singleton.2 (by decide)) hplaces,
        Nat.ofDigitChars_append, Nat.ofDigitChars_append, List.length_append, List.length_replicate]
      have hzero : Nat.ofDigitChars 10 ['0'] 0 = 0 := by decide
      rw [hzero, Nat.ofDigitChars_replicate_zero, Nat.mul_zero, ofDigitChars_digitText]
      congr 2
      omega

/-- A positional text holds digits and points only. -/
theorem isPositional_plain (d : Decimal) : ∀ c ∈ d.plain, IsPositional c := by
  have hdigits : ∀ c ∈ digitText d.digits, IsPositional c :=
    fun _ hc => .inl (isDigit_of_mem_digitText hc)
  have hzeros : ∀ n, ∀ c ∈ List.replicate n '0', IsPositional c := by
    intro n c hc
    rw [List.eq_of_mem_replicate hc]
    exact .inl (by decide)
  have hzero : ∀ c ∈ ['0', '.'], IsPositional c :=
    List.forall_mem_cons.2 ⟨.inl (by decide), List.forall_mem_singleton.2 (.inr rfl)⟩
  unfold plain
  dsimp only
  split
  · exact List.forall_mem_append.2 ⟨hdigits, hzeros _⟩
  · split
    · refine List.forall_mem_append.2 ⟨List.forall_mem_append.2 ⟨?_, ?_⟩, ?_⟩
      · exact fun c hc => hdigits c (List.mem_of_mem_take hc)
      · exact List.forall_mem_singleton.2 (.inr rfl)
      · exact fun c hc => hdigits c (List.mem_of_mem_drop hc)
    · exact List.forall_mem_append.2 ⟨List.forall_mem_append.2 ⟨hzero, hzeros _⟩, hdigits⟩

/-- A positional text starts with a digit. -/
theorem exists_cons_plain (d : Decimal) : ∃ c cs, d.plain = c :: cs ∧ c.isDigit = true := by
  obtain ⟨c, cs, hcs⟩ : ∃ c cs, digitText d.digits = c :: cs :=
    List.exists_cons_of_ne_nil Nat.toDigits_ne_nil
  have hc : c.isDigit = true := isDigit_of_mem_digitText (n := d.digits) (hcs ▸ List.mem_cons_self)
  unfold plain
  dsimp only
  rw [hcs]
  split
  · exact ⟨c, _, rfl, hc⟩
  · split
    · rename_i e _ hlt
      obtain ⟨k, hk⟩ : ∃ k, (c :: cs).length - (e + 1) = k + 1 :=
        ⟨(c :: cs).length - (e + 1) - 1, by omega⟩
      rw [hk]
      exact ⟨c, _, rfl, hc⟩
    · exact ⟨'0', _, rfl, by decide⟩

end Decimal

end Marionette
