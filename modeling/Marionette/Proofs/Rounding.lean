import Mathlib
import Marionette.Pose

/-!
# Equality of rounded numbers

Doubles are compared as numbers, for which both zeros are the same and a value that is no number
differs from itself.  A rounded number is never minus zero, so rounded numbers that compare equal
have the same bits.

- `roundTo_ne_neg_zero`, `roundTo_eq_of_beq`: a rounded number is never minus zero, and equal
  rounded numbers are the same.
- `Mat4.rounded`: a matrix with rounded entries; `Mat4.rounded_eq_of_beq` compares two of them.
- `Pose.matrix_of_ofMatrix?`: the matrix of a pose is rounded.
-/

namespace Marionette

/-- A rounded number is never minus zero. -/
theorem roundTo_ne_neg_zero (scale v : Float) : roundTo scale v ≠ -0 := by
  unfold roundTo
  by_cases hzero : (nearest (v * scale) / scale == 0) = true
  · dsimp only
    rw [if_pos hzero]
    decide
  · dsimp only
    rw [if_neg hzero]
    intro hneg
    rw [hneg] at hzero
    exact hzero (by decide)

/-- Equal rounded numbers are the same. -/
theorem roundTo_eq_of_beq {scale v w : Float} (h : (roundTo scale v == roundTo scale w) = true) :
    roundTo scale v = roundTo scale w := by
  obtain ⟨-, -, hsame | ⟨-, hw⟩ | ⟨hv, -⟩⟩ := Float.beq_iff_ne_nan_and_eq.1 h
  · exact hsame
  · exact absurd hw (roundTo_ne_neg_zero scale w)
  · exact absurd hv (roundTo_ne_neg_zero scale v)

/-- A matrix with rounded entries. -/
def Mat4.rounded (precision : Float) (m : Mat4) : Mat4 :=
  m.map (roundTo precision)

/-- Equal rounded matrices are the same. -/
theorem Mat4.rounded_eq_of_beq {precision : Float} {m n : Mat4}
    (h : (rounded precision m == rounded precision n) = true) :
    rounded precision m = rounded precision n := by
  rw [Vector.beq_eq_decide] at h
  have hentries := of_decide_eq_true h
  apply Vector.ext
  intro i hi
  have hentry := hentries i hi
  unfold rounded at hentry ⊢
  rw [Vector.getElem_map, Vector.getElem_map] at hentry ⊢
  exact roundTo_eq_of_beq hentry

/-- The matrix of a pose is rounded. -/
theorem Pose.matrix_of_ofMatrix? {m : Mat4} {marker : Marker} {precision : Float} {pose : Pose}
    (h : ofMatrix? m marker precision = some pose) : pose.matrix = m.rounded precision := by
  unfold ofMatrix? at h
  split at h
  · cases h
  · cases h
    rfl

end Marionette
