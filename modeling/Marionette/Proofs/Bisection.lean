import Mathlib
import Marionette.Bisection

/-!
# Bisection of ordered lists

- `narrow_eq`: halving a range finds the last place of a first stretch.
- `lt_lowerBound_iff`: the bound is the end of the first stretch.
- `narrow_getElem`: in a list in strict order halving finds the place of an element.
-/

namespace Marionette.Bisection

/-- Where a test holds up to some place of a range and not behind it, halving the range finds that
place.  The first place is never tested. -/
theorem narrow_eq {test : Nat → Bool} {size base last : Nat}
    (htest : ∀ i, base < i → i < base + size → (test i = true ↔ i ≤ last)) (hlow : base ≤ last)
    (hhigh : last < base + size) : narrow test size base = last := by
  induction size, base using narrow.induct test with
  | case1 size base hsize =>
    rw [narrow, if_pos hsize]
    omega
  | case2 size base hsize half ih =>
    rw [narrow, if_neg hsize]
    show narrow test (size - half) _ = last
    have hhalf := htest (base + half) (by omega) (by omega)
    by_cases hup : base + half ≤ last
    · rw [if_pos (hhalf.2 hup)]
      rw [dif_pos (hhalf.2 hup)] at ih
      exact ih (fun i hbase hi => htest i (by omega) (by omega)) hup (by omega)
    · rw [if_neg (mt hhalf.1 hup)]
      rw [dif_neg (mt hhalf.1 hup)] at ih
      exact ih (fun i hbase hi => htest i hbase (by omega)) hlow (by omega)

/-- A test that holds on so many places, and on none after them, has them before its bound. -/
theorem lowerBound_eq {test : Nat → Bool} {n count : Nat} (hle : count ≤ n)
    (htest : ∀ i < n, test i = true ↔ i < count) : lowerBound test n = count := by
  by_cases hzero : n = 0
  · rw [lowerBound, if_pos hzero]
    omega
  · have hplace : narrow test n 0 = count - 1 :=
      narrow_eq (fun i _ hi => by rw [htest i (by omega)]; omega) (Nat.zero_le _) (by omega)
    have hlast := htest (count - 1) (by omega)
    rw [lowerBound, if_neg hzero, hplace]
    dsimp only
    by_cases hnone : count = 0
    · rw [if_neg (mt hlast.1 (by omega))]
      omega
    · rw [if_pos (hlast.2 (by omega))]
      omega

/-- Where a test that holds on a place holds on all places before it, too, the places on which it
holds are the ones before its bound. -/
theorem lt_lowerBound_iff {test : Nat → Bool} {n : Nat}
    (hdown : ∀ i j, i ≤ j → j < n → test j = true → test i = true) :
    lowerBound test n ≤ n ∧ ∀ i < n, (i < lowerBound test n ↔ test i = true) := by
  have hends : ∃ i, i = n ∨ test i = false := ⟨n, .inl rfl⟩
  have hfirst := Nat.find_spec hends
  have hleast : ∀ i < Nat.find hends, test i = true := fun i hi =>
    Bool.of_not_eq_false fun hfalse => Nat.find_min hends hi (.inr hfalse)
  have hle : Nat.find hends ≤ n := Nat.find_min' hends (.inl rfl)
  have htest : ∀ i < n, test i = true ↔ i < Nat.find hends := by
    intro i hi
    refine ⟨fun hholds => ?_, hleast i⟩
    by_contra hafter
    rcases hfirst with hend | hfalse
    · omega
    · rw [hdown _ i (by omega) hi hholds] at hfalse
      cases hfalse
  rw [lowerBound_eq hle htest]
  exact ⟨hle, fun i hi => (htest i hi).symm⟩

/-- In a list in strict order the place of an element is found by a test for what is
not above it. -/
theorem narrow_getElem {α κ : Type} [LinearOrder κ] {xs : List α} {key : α → κ}
    (h : xs.Pairwise fun x y => key x < key y) {last : Nat} (hlast : last < xs.length)
    {test : Nat → Bool}
    (htest : ∀ (i : Nat) (hi : i < xs.length), test i = true ↔ key xs[i] ≤ key xs[last]) :
    narrow test xs.length 0 = last := by
  refine narrow_eq (fun i _ hi => ?_) (Nat.zero_le _) (by omega)
  rw [Nat.zero_add] at hi
  rw [htest i hi]
  constructor
  · intro hle
    by_contra hlt
    exact hle.not_gt (List.pairwise_iff_getElem.1 h last i hlast hi (by omega))
  · intro hle
    rcases Nat.lt_or_eq_of_le hle with hbefore | rfl
    · exact (List.pairwise_iff_getElem.1 h i last hi hlast hbefore).le
    · exact le_rfl

end Marionette.Bisection
