import Marionette.Json.Basic

/-!
# Reading documents

The strict grammar: no comments, no trailing commas, no leading zeros, no control characters
inside texts, no lone surrogates, nothing after the value, and at most `maxDepth` levels of
nesting.

- `Json.read?`: the value of a text, or nothing if the text is no document.
- `Json.readNumeral?`, `Json.readText?`, `Json.readValue`: the parts of the grammar.
-/

namespace Marionette

namespace Json

/-- Lists and objects may be nested this deep. -/
def maxDepth : Nat := 127

/-- White space of the grammar. -/
def isSpace (c : Char) : Bool :=
  c == ' ' || c == '\n' || c == '\t' || c == '\r'

/-- Drops white space. -/
def skipSpace (cs : List Char) : List Char :=
  cs.dropWhile isSpace

/-- Digits at the front, and the rest. -/
def spanDigits (cs : List Char) : List Char × List Char :=
  (cs.takeWhile Char.isDigit, cs.dropWhile Char.isDigit)

/-- The number that digits stand for. -/
def digitsValue (ds : List Char) : Nat :=
  ds.foldl (fun n c => 10 * n + (c.toNat - '0'.toNat)) 0

/-- The largest power of ten that is worth computing: beyond it every number is zero or too
large. -/
def exponentLimit : Nat := 100000

/-- The double nearest to `digits * 10 ^ exponent`, or nothing if it is too large.  Zero digits
make zero whatever the exponent. -/
def decimalValue? (negative : Bool) (digits : Nat) (exponent : Int) : Option Json :=
  let sign (x : Float) := Json.float (if negative then -x else x)
  if digits = 0 then some (sign 0.0)
  else if exponent < -(exponentLimit : Int) then some (sign 0.0)
  else if exponent > exponentLimit then none
  else
    let x := match exponent with
      | .ofNat e => Float.ofScientific digits false e
      | .negSucc e => Float.ofScientific digits true (e + 1)
    if x.isFinite then some (sign x) else none

/-- A number written without point and exponent.  Minus zero and numbers beyond 64 bits are no
integers. -/
def wholeValue? (negative : Bool) (digits : Nat) : Option Json :=
  if negative then
    if digits = 0 ∨ digits > 9223372036854775808 then decimalValue? true digits 0
    else some (.int (-digits))
  else if digits ≥ 18446744073709551616 then decimalValue? false digits 0
  else some (.int digits)

/-- The digits after a point, if there is one; a point needs at least one digit. -/
def readFraction? : List Char → Option (Option (List Char) × List Char)
  | '.' :: cs =>
    match spanDigits cs with
    | ([], _) => none
    | (ds, rest) => some (some ds, rest)
  | cs => some (none, cs)

/-- The exponent, if there is one; it needs at least one digit. -/
def readExponent? : List Char → Option (Option Int × List Char)
  | c :: cs =>
    if c = 'e' ∨ c = 'E' then
      let (negative, cs) := match cs with
        | '+' :: cs => (false, cs)
        | '-' :: cs => (true, cs)
        | cs => (false, cs)
      match spanDigits cs with
      | ([], _) => none
      | (ds, rest) =>
        some (some (if negative then -(digitsValue ds : Int) else digitsValue ds), rest)
    else some (none, c :: cs)
  | [] => some (none, [])

/-- A number as it is written. -/
structure Numeral where
  /-- There is a minus sign. -/
  negative : Bool
  /-- The digits before the point. -/
  whole : List Char
  /-- The digits after the point, if there is one. -/
  fraction : Option (List Char)
  /-- The exponent, if there is one. -/
  exponent : Option Int

/-- The number that a numeral stands for, or nothing if it is too large. -/
def Numeral.value? (n : Numeral) : Option Json :=
  match n.fraction, n.exponent with
  | none, none => wholeValue? n.negative (digitsValue n.whole)
  | _, _ =>
    let fraction := n.fraction.getD []
    decimalValue? n.negative (digitsValue (n.whole ++ fraction))
      (n.exponent.getD 0 - fraction.length)

/-- A numeral and the rest of the text. -/
def readNumeral? (cs : List Char) : Option (Numeral × List Char) := do
  let (negative, cs) := match cs with
    | '-' :: cs => (true, cs)
    | cs => (false, cs)
  let (whole, cs) := spanDigits cs
  if whole.isEmpty ∨ (whole.head? = some '0' ∧ 1 < whole.length) then none
  let (fraction, cs) ← readFraction? cs
  let (exponent, cs) ← readExponent? cs
  return (⟨negative, whole, fraction, exponent⟩, cs)

/-- A number and the rest of the text. -/
def readNumber? (cs : List Char) : Option (Json × List Char) := do
  let (numeral, cs) ← readNumeral? cs
  return (← numeral.value?, cs)

/-- The value of one hexadecimal digit. -/
def hexValue? (c : Char) : Option Nat :=
  if '0' ≤ c ∧ c ≤ '9' then some (c.toNat - '0'.toNat)
  else if 'a' ≤ c ∧ c ≤ 'f' then some (c.toNat - 'a'.toNat + 10)
  else if 'A' ≤ c ∧ c ≤ 'F' then some (c.toNat - 'A'.toNat + 10)
  else none

/-- Four hexadecimal digits and the rest of the text. -/
def readUnit? : List Char → Option (Nat × List Char)
  | a :: b :: c :: d :: rest => do
    return (((← hexValue? a) * 16 + (← hexValue? b)) * 256 + (← hexValue? c) * 16 + (← hexValue? d),
      rest)
  | _ => none

/-- The character after `\u`: one unit, or a high and a low surrogate. -/
def readEscapedUnit? (cs : List Char) : Option (Char × List Char) := do
  let (unit, rest) ← readUnit? cs
  if 0xDC00 ≤ unit ∧ unit ≤ 0xDFFF then none
  else if 0xD800 ≤ unit ∧ unit ≤ 0xDBFF then
    match rest with
    | '\\' :: 'u' :: rest =>
      let (low, rest) ← readUnit? rest
      if 0xDC00 ≤ low ∧ low ≤ 0xDFFF then
        return (Char.ofNat (0x10000 + (unit - 0xD800) * 0x400 + (low - 0xDC00)), rest)
      else none
    | _ => none
  else return (Char.ofNat unit, rest)

/-- The character after a backslash. -/
def readEscape? : List Char → Option (Char × List Char)
  | '"' :: cs => some ('"', cs)
  | '\\' :: cs => some ('\\', cs)
  | '/' :: cs => some ('/', cs)
  | 'b' :: cs => some ('\x08', cs)
  | 'f' :: cs => some ('\x0c', cs)
  | 'n' :: cs => some ('\n', cs)
  | 'r' :: cs => some ('\r', cs)
  | 't' :: cs => some ('\t', cs)
  | 'u' :: cs => readEscapedUnit? cs
  | _ => none

/-- The rest of a text after its opening quote, and what follows the closing one.  Every step
takes a character, so the length of the input is fuel enough. -/
def readText? : Nat → List Char → List Char → Option (String × List Char)
  | 0, _, _ => none
  | _ + 1, _, [] => none
  | fuel + 1, acc, c :: cs =>
    if c = '"' then some (String.ofList acc.reverse, cs)
    else if c = '\\' then
      match readEscape? cs with
      | some (e, rest) => readText? fuel (e :: acc) rest
      | none => none
    else if c.toNat < 0x20 then none
    else readText? fuel (c :: acc) cs

mutual

/-- A value and the rest of the text; `depth` levels of nesting are left. -/
def readValue : Nat → Nat → List Char → Option (Json × List Char)
  | 0, _, _ => none
  | fuel + 1, depth, cs =>
    match skipSpace cs with
    | 'n' :: 'u' :: 'l' :: 'l' :: rest => some (.null, rest)
    | 't' :: 'r' :: 'u' :: 'e' :: rest => some (.bool true, rest)
    | 'f' :: 'a' :: 'l' :: 's' :: 'e' :: rest => some (.bool false, rest)
    | '"' :: rest => (readText? (rest.length + 1) [] rest).map fun (s, rest) => (.str s, rest)
    | '[' :: rest =>
      match depth with
      | 0 => none
      | depth + 1 =>
        match skipSpace rest with
        | ']' :: rest => some (.arr [], rest)
        | rest => (readItems fuel depth [] rest).map fun (items, rest) => (.arr items, rest)
    | '\x7b' :: rest =>
      match depth with
      | 0 => none
      | depth + 1 =>
        match skipSpace rest with
        | '\x7d' :: rest => some (.obj [], rest)
        | rest => (readMembers fuel depth [] rest).map fun (ms, rest) => (.obj ms, rest)
    | cs => readNumber? cs

/-- The items of a list up to its closing bracket. -/
def readItems : Nat → Nat → List Json → List Char → Option (List Json × List Char)
  | 0, _, _, _ => none
  | fuel + 1, depth, acc, cs =>
    match readValue fuel depth cs with
    | none => none
    | some (item, rest) =>
      match skipSpace rest with
      | ',' :: rest => readItems fuel depth (item :: acc) rest
      | ']' :: rest => some ((item :: acc).reverse, rest)
      | _ => none

/-- The members of an object up to its closing brace. -/
def readMembers : Nat → Nat → List (String × Json) → List Char →
    Option (List (String × Json) × List Char)
  | 0, _, _, _ => none
  | fuel + 1, depth, acc, cs =>
    match skipSpace cs with
    | '"' :: rest =>
      match readText? (rest.length + 1) [] rest with
      | none => none
      | some (key, rest) =>
        match skipSpace rest with
        | ':' :: rest =>
          match readValue fuel depth rest with
          | none => none
          | some (value, rest) =>
            match skipSpace rest with
            | ',' :: rest => readMembers fuel depth ((key, value) :: acc) rest
            | '\x7d' :: rest => some (((key, value) :: acc).reverse, rest)
            | _ => none
        | _ => none
    | _ => none

end

/-- The value of a text, or nothing if the text is no document.  Every level and every item takes
a character, so twice the length of the text is fuel enough. -/
def read? (s : String) : Option Json :=
  let cs := s.toList
  match readValue (2 * cs.length + 2) maxDepth cs with
  | some (value, rest) => if (skipSpace rest).isEmpty then some value else none
  | none => none

end Json

end Marionette
