/-!
# Shortest decimals

A finite binary float stands for every real number that rounds to it.  Its shortest decimal is a
decimal of that interval with the fewest digits and, among those, the one nearest to the float.

- `Binary`: a positive float as `mantissa * 2 ^ exponent`, with the facts that decide which reals
  round to it.
- `Decimal`: a number `digits * 10 ^ exponent`.
- `Binary.shortest`: the shortest decimal, found grid by grid in exact arithmetic.
-/

namespace Marionette

/-- The number `digits * 10 ^ exponent`. -/
structure Decimal where
  /-- All significant digits, read as one number. -/
  digits : Nat
  /-- Power of ten that the digits are counted in. -/
  exponent : Int
deriving DecidableEq, Repr

namespace Decimal

/-- How to choose between two decimals that are equally near to a float. -/
inductive Tie where
  /-- The larger one. -/
  | up
  /-- The one whose last digit is even. -/
  | even
deriving DecidableEq, Repr

/-- Moves the zeros at the end of the digits into the exponent, at most `fuel` of them. -/
def stripZeros : Nat → Decimal → Decimal
  | 0, d => d
  | fuel + 1, d =>
    if d.digits ≠ 0 ∧ d.digits % 10 = 0 then stripZeros fuel ⟨d.digits / 10, d.exponent + 1⟩ else d

/-- A positive float: `mantissa * 2 ^ exponent`. -/
structure Binary where
  /-- The significand as an integer. -/
  mantissa : Nat
  /-- Power of two that the significand is counted in. -/
  exponent : Int
  /-- The next smaller float is only half a step away, as below a power of two. -/
  narrowBelow : Bool
deriving Repr

namespace Binary

/-- The number as a fraction, with both half-steps over the same denominator:
`(below, value, above, denominator)`, where the reals between `below` and `above` round to it. -/
def fraction (b : Binary) : Nat × Nat × Nat × Nat :=
  -- a fourth of a step, since half-steps below a power of two are that long
  let (num, den) := match b.exponent with
    | .ofNat e => (Nat.pow 2 e, 4)
    | .negSucc e => (1, 4 * Nat.pow 2 (e + 1))
  let value := 4 * b.mantissa * num
  let down := if b.narrowBelow then num else 2 * num
  (value - down, value, value + 2 * num, den)

/-- The smallest `k` from `start` on, within `fuel` steps, with `num / den < 10 ^ k`. -/
def magnitudeFrom (num den : Nat) : Nat → Int → Int
  | 0, k => k
  | fuel + 1, k =>
    let fits : Bool := match k with
      | .ofNat e => num < den * Nat.pow 10 e
      | .negSucc e => num * Nat.pow 10 (e + 1) < den
    if fits then k else magnitudeFrom num den fuel (k + 1)

/-- A power of ten below a positive fraction, not far from it: read off the binary lengths. -/
def magnitudeGuess (num den : Nat) : Int :=
  ((num.log2 : Int) - (den.log2 : Int) - 1) * 1233 / 4096 - 1

/-- The number of digits before the point: the smallest `k` with `num / den < 10 ^ k`. -/
def magnitude (num den : Nat) : Int :=
  magnitudeFrom num den 8 (magnitudeGuess num den)

/-- A number lies between two bounds, which may belong to the interval or not. -/
def isBetween (closed : Bool) (below above p : Nat) : Bool :=
  if closed then below ≤ p && p ≤ above else below < p && p < above

/-- The multiple of `unit` that is nearest to `value` among those between two bounds, if there is
one.  The multiples next to the value are the only candidates. -/
def pick (closed : Bool) (tie : Tie) (below value above unit : Nat) : Option Nat :=
  let low := value / unit
  let high := low + 1
  let lowInside := low ≠ 0 && isBetween closed below above (low * unit)
  let highInside := isBetween closed below above (high * unit)
  let down := value - low * unit
  let up := high * unit - value
  if lowInside && highInside then
    let takeLow := down < up || (down == up && tie == .even && low % 2 == 0)
    some (if takeLow then low else high)
  else if lowInside then some low
  else if highInside then some high
  else none

/-- The decimal of the grid `10 ^ g` that is nearest to the float among those that round to it,
if there is one. -/
def onGrid (b : Binary) (tie : Tie) (g : Int) : Option Decimal :=
  let (below, value, above, den) := b.fraction
  -- Scale everything so that the grid points are the multiples of `unit`.
  let (scale, unit) := match g with
    | .ofNat e => (1, den * Nat.pow 10 e)
    | .negSucc e => (Nat.pow 10 (e + 1), den)
  -- a number halfway rounds to the even mantissa, so that it belongs to that one's interval
  let closed := b.mantissa % 2 == 0
  (pick closed tie (below * scale) (value * scale) (above * scale) unit).map fun n => ⟨n, g⟩

/-- Tries `fuel` grids, each ten times finer than the one before. -/
def shortestFrom (b : Binary) (tie : Tie) : Nat → Int → Decimal
  | 0, g => ((b.onGrid tie g).getD ⟨0, 0⟩).stripZeros 400
  | fuel + 1, g =>
    match b.onGrid tie g with
    | some d => d.stripZeros 400
    | none => shortestFrom b tie fuel (g - 1)

/-- The decimal with the fewest digits that rounds to a positive float, and the nearest of those.
Seventeen digits are enough for every float. -/
def shortest (b : Binary) (tie : Tie) : Decimal :=
  let (_, value, _, den) := b.fraction
  shortestFrom b tie 17 (magnitude value den - 1)

end Binary

end Decimal

end Marionette
