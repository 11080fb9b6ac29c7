import Marionette.Datum.Basic
import Marionette.Json.Decode
import Marionette.Json.Reader

/-!
# Structured data in documents

A tagged value is written as an object with its tag under `type` and its contents under `data`, or
as a list of these two.  Lists read this way may hold values of several kinds.

- `Datum.decode`, `Compound.decode`: read a value and the entries of a compound.
-/

namespace Marionette

namespace Datum

/-- The names of the tags in documents. -/
def kindNames : List (String × Kind) :=
  [("byte", .byte), ("short", .short), ("int", .int), ("long", .long), ("float", .float),
    ("double", .double), ("string", .string), ("list", .list), ("compound", .compound),
    ("byte_array", .byteArray), ("int_array", .intArray)]

/-- Reads a tagged value that is nested less than `fuel` levels deep. -/
def decodeNested : Nat → Decoder Datum
  | 0, _ => .error (.mismatch "a value that is not nested too deeply")
  | fuel + 1, j => do
    let j ← Decoder.record ["type", "data"] 2 .ok j
    let kind ← Json.field j "type" (Decoder.choice kindNames)
    let data {α : Type} (d : Decoder α) := Json.field j "data" d
    match kind with
    | .byte => return .byte (← data Decoder.int8)
    | .short => return .short (← data Decoder.int16)
    | .int => return .int (← data Decoder.int32)
    | .long => return .long (← data Decoder.int64)
    | .float => return .float (← data Decoder.single)
    | .double => return .double (← data Decoder.double)
    | .string => return .string (← data Decoder.text)
    | .list => return .list (← data (Decoder.list (decodeNested fuel)))
    | .compound => return .compound (Compound.ofList (← data (Decoder.entries (decodeNested fuel))))
    | .byteArray => return .byteArray (← data (Decoder.list Decoder.int8))
    | .intArray => return .intArray (← data (Decoder.list Decoder.int32))

/-- Reads a tagged value.  A document is never nested deeper than `Json.maxDepth`. -/
def decode : Decoder Datum :=
  decodeNested (Json.maxDepth + 1)

end Datum

/-- Reads the entries of a compound; a repeated key keeps its first place and its last value. -/
def Compound.decode : Decoder Compound := fun j =>
  (Decoder.entries Datum.decode j).map Compound.ofList

end Marionette
