import Marionette.Json.Basic
import Marionette.Rounding

/-!
# Typed views of documents

A decoder reads a typed value out of a document value, or says what is wrong with it.

- `DecodeFault`: what is wrong.
- `Decoder`: the type of decoders.
- `Decoder.bool`, `Decoder.text`, `Decoder.double`, `Decoder.single`, `Decoder.intIn`: scalars.
- `Decoder.option`, `Decoder.list`, `Decoder.fixed`, `Decoder.pair`, `Decoder.entries`: containers.
- `Decoder.choice`: one of several names.
- `Decoder.record`: fields by name or in order.
- `Json.theCase`, `Json.theRecordCase`: one of several cases with its contents.
- `Json.field`, `Json.fieldOr`, `Json.field?`: members that are required, have a default, or may be
  left out.  Members that nobody asks for are ignored.
-/

namespace Marionette

/-- Why a document value does not fit a type. -/
inductive DecodeFault where
  /-- A required member is not there. -/
  | missing (field : String)
  /-- A member occurs twice. -/
  | repeated (field : String)
  /-- A value of another form was expected. -/
  | mismatch (expected : String)
deriving DecidableEq, Repr

/-- The fault in words. -/
def DecodeFault.message : DecodeFault → String
  | .missing field => "missing field '" ++ field ++ "'"
  | .repeated field => "repeated field '" ++ field ++ "'"
  | .mismatch expected => "expected " ++ expected

/-- Reads a typed value out of a document value. -/
abbrev Decoder (α : Type) := Json → Except DecodeFault α

namespace Decoder

variable {α β : Type}

/-- A truth value. -/
def bool : Decoder Bool
  | .bool b => .ok b
  | _ => .error (.mismatch "a truth value")

/-- A text. -/
def text : Decoder String
  | .str s => .ok s
  | _ => .error (.mismatch "a text")

/-- A double from any number. -/
def double : Decoder Float
  | .int n => .ok (Float.ofInt n)
  | .float x => .ok x
  | _ => .error (.mismatch "a number")

/-- A single-precision float from any number: an integer is rounded once, any other number is
rounded to a double first. -/
def single : Decoder Float32
  | .int n => .ok (Float32.ofInt n)
  | .float x => .ok (toSingle x)
  | _ => .error (.mismatch "a number")

/-- An integer between two bounds, both included. -/
def intIn (lo hi : Int) : Decoder Int
  | .int n => if lo ≤ n ∧ n ≤ hi then .ok n else .error (.mismatch "an integer in range")
  | _ => .error (.mismatch "an integer")

/-- A signed byte. -/
def int8 : Decoder Int8 := fun j => (intIn (-128) 127 j).map Int8.ofInt

/-- A signed integer of 16 bits. -/
def int16 : Decoder Int16 := fun j => (intIn (-32768) 32767 j).map Int16.ofInt

/-- A signed integer of 32 bits. -/
def int32 : Decoder Int32 := fun j => (intIn (-2147483648) 2147483647 j).map Int32.ofInt

/-- A signed integer of 64 bits. -/
def int64 : Decoder Int64 := fun j =>
  (intIn (-9223372036854775808) 9223372036854775807 j).map Int64.ofInt

/-- A tick count or another natural number below `2 ^ 32`. -/
def nat32 : Decoder Nat := fun j => (intIn 0 4294967295 j).map Int.toNat

/-- A natural number below `2 ^ 64`. -/
def nat64 : Decoder Nat := fun j => (intIn 0 18446744073709551615 j).map Int.toNat

/-- Null. -/
def null : Decoder Unit
  | .null => .ok ()
  | _ => .error (.mismatch "null")

/-- A value or null. -/
def option (d : Decoder α) : Decoder (Option α)
  | .null => .ok none
  | j => (d j).map some

/-- A list. -/
def list (d : Decoder α) : Decoder (List α)
  | .arr items => items.mapM d
  | _ => .error (.mismatch "a list")

/-- A list of exactly `n` items. -/
def fixed (n : Nat) (d : Decoder α) : Decoder (List α) := fun j => do
  let items ← list d j
  if items.length = n then .ok items else .error (.mismatch "a list of another length")

/-- A list of exactly two items. -/
def pair (a : Decoder α) (b : Decoder β) : Decoder (α × β)
  | .arr [x, y] => do return (← a x, ← b y)
  | _ => .error (.mismatch "two items")

/-- The members of an object, in order. -/
def entries (d : Decoder α) : Decoder (List (String × α))
  | .obj members => members.mapM fun m => do return (m.1, ← d m.2)
  | _ => .error (.mismatch "an object")

/-- A name alone: a text, or an object whose only member has that name and holds null. -/
def name : Decoder String
  | .str s => .ok s
  | .obj [(s, .null)] => .ok s
  | _ => .error (.mismatch "a name")

/-- One of several names. -/
def choice (names : List (String × α)) : Decoder α := fun j => do
  let s ← name j
  match names.lookup s with
  | some a => .ok a
  | none => .error (.mismatch "one of the known names")

/-- A record: an object with the fields, or a list of their values in order.  The list has to hold
the first `needed` fields and may stop after any of them. -/
def record (fields : List String) (needed : Nat) (d : Decoder α) : Decoder α
  | .arr values =>
    if needed ≤ values.length ∧ values.length ≤ fields.length then d (.obj (fields.zip values))
    else .error (.mismatch "a record of another length")
  | j => d j

end Decoder

namespace Json

variable {α : Type}

/-- The members of an object. -/
def members : Decoder (List (String × Json))
  | .obj members => .ok members
  | _ => .error (.mismatch "an object")

/-- A member of an object, if it is there; it must not be there twice. -/
def get? (j : Json) (name : String) : Except DecodeFault (Option Json) := do
  let ms ← members j
  match ms.filter fun m => m.1 == name with
  | [] => .ok none
  | [m] => .ok (some m.2)
  | _ => .error (.repeated name)

/-- A member that has to be there. -/
def field (j : Json) (name : String) (d : Decoder α) : Except DecodeFault α := do
  match ← get? j name with
  | some value => d value
  | none => .error (.missing name)

/-- A member with a default for objects that leave it out. -/
def fieldOr (j : Json) (name : String) (d : Decoder α) (default : α) : Except DecodeFault α := do
  match ← get? j name with
  | some value => d value
  | none => .ok default

/-- A member that may be left out or null. -/
def field? (j : Json) (name : String) (d : Decoder α) : Except DecodeFault (Option α) :=
  fieldOr j name (Decoder.option d) none

/-- The only member of an object: the name of a case and its contents. -/
def theCase : Decoder (String × Json)
  | .obj [m] => .ok m
  | _ => .error (.mismatch "an object with one member")

/-- The name of a case and its contents, which are a record for the cases whose fields are given. -/
def theRecordCase (layouts : List (String × List String)) : Decoder (String × Json) := fun j => do
  let (name, contents) ← theCase j
  match layouts.lookup name with
  | some fields => return (name, ← Decoder.record fields fields.length .ok contents)
  | none => return (name, contents)

end Json

end Marionette
