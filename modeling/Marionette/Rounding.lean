/-!
# Rounding

- `nearest`: the whole number nearest to a number, as a double; `nearestInt`: as an integer.
- `toSingle`: the nearest number in single precision.
- `sine`, `cosine`: exact at zero.
-/

namespace Marionette

/-- The whole number nearest to a number, a half going away from zero.  From two to the power of 52
on there are only whole numbers. -/
def nearest (x : Float) : Float :=
  let below := x.abs.toUInt64.toFloat
  let r := if x.abs - below ≥ 0.5 then below + 1 else below
  if x.abs < 4503599627370496 then if x < 0 then -r else r else x

/-- The whole number nearest to a number, counted in 64 bits: a number beyond them gives the last
one of that side, and what is no number gives zero. -/
def nearestInt (x : Float) : Int :=
  let size := (nearest x).abs.toUInt64.toNat
  if x < 0 then -(min size 9223372036854775808 : Nat) else (min size 9223372036854775807 : Nat)

/-- The number of single precision nearest to a double, of two the one with an even last digit; what
is too large becomes infinite. -/
def toSingle (x : Float) : Float32 :=
  .ofModel (.pack (match x.toModel.unpack with
    | .finite sign mantissa exponent _ => .round .binary32 sign mantissa exponent
    | other => other))

/-- The sine of an angle in radians. -/
def sine (x : Float) : Float := if x == 0 then x else x.sin

/-- The cosine of an angle in radians. -/
def cosine (x : Float) : Float := if x == 0 then 1 else x.cos

end Marionette
