import Marionette.Json.Decode
import Marionette.Text.Quoted

/-!
# Identifiers of 128 bits

Nodes and variants are named by universally unique identifiers.

- `Uuid`: 128 bits, ordered as numbers.
- `Uuid.parse?`: reads the four written forms, in any case.
- `Uuid.text`: writes the hyphenated form in lower case.
-/

namespace Marionette

/-- A universally unique identifier. -/
structure Uuid where
  /-- All 128 bits, the first written digit highest. -/
  bits : BitVec 128
deriving DecidableEq, Repr, Hashable, Inhabited

namespace Uuid

instance : Ord Uuid where
  compare a b := compare a.bits.toNat b.bits.toNat

/-- The value of one hexadecimal digit. -/
def digit? (c : Char) : Option Nat :=
  if '0' ≤ c ∧ c ≤ '9' then some (c.toNat - '0'.toNat)
  else if 'a' ≤ c ∧ c ≤ 'f' then some (c.toNat - 'a'.toNat + 10)
  else if 'A' ≤ c ∧ c ≤ 'F' then some (c.toNat - 'A'.toNat + 10)
  else none

/-- Reads digits as one number. -/
def ofDigits? (cs : List Char) : Option Nat :=
  cs.foldlM (fun n c => (digit? c).map (16 * n + ·)) 0

/-- Reads 32 digits. -/
def ofSimple? (cs : List Char) : Option Uuid :=
  if cs.length = 32 then (ofDigits? cs).map fun n => ⟨BitVec.ofNat 128 n⟩ else none

/-- Drops the hyphens after the 8th, 12th, 16th and 20th digit. -/
def dropHyphens? (cs : List Char) : Option (List Char) :=
  let hyphens := [cs[8]?, cs[13]?, cs[18]?, cs[23]?]
  if hyphens.all (· == some '-') then
    some (cs.take 8 ++ (cs.drop 9).take 4 ++ (cs.drop 14).take 4 ++
      (cs.drop 19).take 4 ++ cs.drop 24)
  else none

/-- Reads 8, 4, 4, 4 and 12 digits with hyphens between them. -/
def ofHyphenated? (cs : List Char) : Option Uuid := do
  ofSimple? (← dropHyphens? cs)

/-- The name space in front of the long form. -/
def urnStart : List Char := "urn:uuid:".toList

/-- Reads one of the written forms: digits only, hyphenated, hyphenated in braces, or hyphenated
after the name space `urn:uuid:`, which may be in any case. -/
def parse? (s : String) : Option Uuid :=
  let cs := s.toList
  if cs.length = 32 then ofSimple? cs
  else if cs.length = 36 then ofHyphenated? cs
  else if cs.length = 38 ∧ cs.head? = some '\x7b' ∧ cs.getLast? = some '\x7d' then
    ofHyphenated? (cs.drop 1).dropLast
  else if cs.length = 45 ∧ (cs.take 9).map Char.toLower = urnStart then ofHyphenated? (cs.drop 9)
  else none

/-- All 32 digits, in lower case. -/
def digits (u : Uuid) : List Char :=
  let ds := Text.hexDigits u.bits.toNat
  List.replicate (32 - ds.length) '0' ++ ds

/-- The hyphenated form in lower case. -/
def text (u : Uuid) : String :=
  let ds := u.digits
  String.ofList (ds.take 8 ++ ['-'] ++ (ds.drop 8).take 4 ++ ['-'] ++
    (ds.drop 12).take 4 ++ ['-'] ++
    (ds.drop 16).take 4 ++ ['-'] ++ ds.drop 20)

/-- Reads an identifier from a document. -/
def decode : Decoder Uuid
  | .str s =>
    match parse? s with
    | some u => .ok u
    | none => .error (.mismatch "an identifier")
  | _ => .error (.mismatch "an identifier")

end Uuid

end Marionette
