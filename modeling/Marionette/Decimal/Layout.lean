import Marionette.Decimal.Shortest

/-!
# Floats as text

Every float is shown by its shortest decimal, so the text reads back as the same float.

- `Size`: what the bits of a float say beside the sign: not a number, infinite, zero, or positive.
- `plain`: positional text without an exponent and without a point after a whole number.
- `scientific`: positional text with a point while the exponent is small, and otherwise one digit
  before the point and an exponent that always has a sign.
- `doubleText`, `singleText`: the positional text of the two float types.
- `numberText`: the text of a double as a number inside a document.
-/

namespace Marionette

namespace Decimal

/-- What the bits of a float say about its size; the sign stands beside it. -/
inductive Size where
  /-- Not a number. -/
  | nan
  /-- Infinite. -/
  | infinite
  /-- Zero. -/
  | zero
  /-- A positive size. -/
  | positive (size : Binary)

/-- The size encoded by an exponent field of `width` bits with the given bias and a fraction of
`fractionBits` bits. -/
def Size.ofFields (width fractionBits : Nat) (field fraction : Nat) : Size :=
  let bias : Int := (Nat.pow 2 (width - 1) : Nat) - 1
  if field = Nat.pow 2 width - 1 then (if fraction = 0 then .infinite else .nan)
  else if field = 0 then
    if fraction = 0 then .zero else .positive ⟨fraction, 1 - bias - fractionBits, false⟩
  else
    let mantissa := Nat.pow 2 fractionBits + fraction
    .positive ⟨mantissa, field - bias - fractionBits, fraction = 0 ∧ 1 < field⟩

/-- Digits as text. -/
def digitText (n : Nat) : List Char :=
  Nat.toDigits 10 n

/-- Positional text of a decimal, without an exponent: whole numbers have no point. -/
def plain (d : Decimal) : List Char :=
  let ds := digitText d.digits
  match d.exponent with
  | .ofNat e => ds ++ List.replicate e '0'
  | .negSucc e =>
    let places := e + 1
    if places < ds.length then
      ds.take (ds.length - places) ++ ['.'] ++ ds.drop (ds.length - places)
    else ['0', '.'] ++ List.replicate (places - ds.length) '0' ++ ds

/-- An exponent behind its mark: always with a sign, and without leading zeros. -/
def exponentText (e : Int) : List Char :=
  ['e', if e < 0 then '-' else '+'] ++ digitText e.natAbs

/-- Text of a decimal as a number of a document: with a point and at least one digit after it while
the number has at most sixteen digits before the point and at most four zeros after it; otherwise
with one digit before the point, no point after a single digit, and an exponent with its sign. -/
def scientific (d : Decimal) : List Char :=
  let ds := digitText d.digits
  let point := d.exponent + ds.length
  if 0 ≤ d.exponent ∧ point ≤ 16 then
    ds ++ List.replicate d.exponent.toNat '0' ++ ['.', '0']
  else if -5 < point ∧ point ≤ 16 then plain d
  else
    match ds with
    | [digit] => digit :: exponentText (point - 1)
    | digit :: rest => digit :: '.' :: rest ++ exponentText (point - 1)
    | [] => []

/-- Sign of a double, true for negative, and the size beside it: one bit, then 11 bits of exponent
and 52 bits of fraction. -/
def doubleParts (x : Float) : Bool × Size :=
  let bits := x.toBits.toNat
  (bits / 9223372036854775808 == 1,
    .ofFields 11 52 (bits / 4503599627370496 % 2048) (bits % 4503599627370496))

/-- Sign of a single-precision float, true for negative, and the size beside it: one bit, then 8
bits of exponent and 23 bits of fraction. -/
def singleParts (x : Float32) : Bool × Size :=
  let bits := x.toBits.toNat
  (bits / 2147483648 == 1, .ofFields 8 23 (bits / 8388608 % 256) (bits % 8388608))

/-- Positional text of a float with the given sign and size.  A tie between two shortest decimals
goes to the larger size. -/
def sizeText (negative : Bool) (size : Size) : String :=
  let signed (cs : List Char) := String.ofList (if negative then '-' :: cs else cs)
  match size with
  | .nan => "NaN"
  | .infinite => signed ['i', 'n', 'f']
  | .zero => signed ['0']
  | .positive b => signed (b.shortest .up).plain

/-- Positional text of a double. -/
def doubleText (x : Float) : String :=
  sizeText (doubleParts x).1 (doubleParts x).2

/-- Positional text of a single-precision float. -/
def singleText (x : Float32) : String :=
  sizeText (singleParts x).1 (singleParts x).2

/-- Text of a double as a number of a document, where a number always has a point or an exponent.
A tie between two shortest decimals goes to the even last digit, and a double that is not finite
has no number text. -/
def numberText (x : Float) : String :=
  let (negative, size) := doubleParts x
  let signed (cs : List Char) := String.ofList (if negative then '-' :: cs else cs)
  match size with
  | .nan | .infinite => "null"
  | .zero => signed ['0', '.', '0']
  | .positive b => signed (b.shortest .even).scientific

end Decimal

end Marionette
