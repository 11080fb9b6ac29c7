/-!
# Bisection

Looks for the end of the places on which a test holds.  When the test holds on a first stretch and
nowhere after it, the answer is the length of that stretch; otherwise it is an end that halving the
range arrives at.

- `Bisection.narrow`: halves a range until one place is left.
- `Bisection.lowerBound`: the end of the first stretch of `0, …, n - 1`.
-/

namespace Marionette.Bisection

/-- Halves the `size` places from `base` on until one is left: the upper half if the test holds on
its first place, and otherwise what is below that place. -/
def narrow (test : Nat → Bool) (size base : Nat) : Nat :=
  if size ≤ 1 then base
  else
    let half := size / 2
    narrow test (size - half) (if test (base + half) then base + half else base)
termination_by size
decreasing_by omega

/-- The first of the places `0, …, n - 1` on which the test fails, or `n`, for a test that holds on
a first stretch of the places. -/
def lowerBound (test : Nat → Bool) (n : Nat) : Nat :=
  if n = 0 then 0
  else
    let place := narrow test n 0
    if test place then place + 1 else place

end Marionette.Bisection
