/-!
# Structured data

Entities carry trees of tagged values.  A list holds values of one kind, and a compound keeps its
keys in the order in which they were first inserted.

- `Datum`: a tagged value; `Datum.Kind`: its tag.
- `Compound`: the entries of a compound, with `insert`, `erase`, `get?` and `merge`.
- `Datum.push`: adds an item to a list of one kind.
- `Datum.Fault`: why a value cannot be built or written.
-/

namespace Marionette

/-- A tagged value. -/
inductive Datum where
  /-- A signed byte; truth values are bytes. -/
  | byte (v : Int8)
  /-- A signed integer of 16 bits. -/
  | short (v : Int16)
  /-- A signed integer of 32 bits. -/
  | int (v : Int32)
  /-- A signed integer of 64 bits. -/
  | long (v : Int64)
  /-- A single-precision float. -/
  | float (v : Float32)
  /-- A double-precision float. -/
  | double (v : Float)
  /-- A text. -/
  | string (s : String)
  /-- An ordered list. -/
  | list (items : List Datum)
  /-- Entries in the order of first insertion. -/
  | compound (entries : List (String × Datum))
  /-- A packed list of signed bytes. -/
  | byteArray (items : List Int8)
  /-- A packed list of signed integers of 32 bits. -/
  | intArray (items : List Int32)
deriving Inhabited

/-- The entries of a compound, in the order of first insertion. -/
abbrev Compound := List (String × Datum)

namespace Datum

/-- The tag of a value. -/
inductive Kind where
  | byte | short | int | long | float | double | string | list | compound | byteArray | intArray
deriving DecidableEq, Repr

/-- The name of a tag. -/
def Kind.name : Kind → String
  | .byte => "Byte"
  | .short => "Short"
  | .int => "Int"
  | .long => "Long"
  | .float => "Float"
  | .double => "Double"
  | .string => "String"
  | .list => "List"
  | .compound => "Compound"
  | .byteArray => "ByteArray"
  | .intArray => "IntArray"

/-- The tag of a value. -/
def kind : Datum → Kind
  | byte _ => .byte
  | short _ => .short
  | int _ => .int
  | long _ => .long
  | float _ => .float
  | double _ => .double
  | string _ => .string
  | list _ => .list
  | compound _ => .compound
  | byteArray _ => .byteArray
  | intArray _ => .intArray

/-- Why a value cannot be built or written. -/
inductive Fault where
  /-- An item of another kind was added to a list. -/
  | mixedKinds (expected got : Kind)
  /-- A single-precision float that is infinite or not a number. -/
  | nonFiniteFloat (v : Float32)
  /-- A double that is infinite or not a number. -/
  | nonFiniteDouble (v : Float)

/-- A truth value as a byte. -/
def bool (b : Bool) : Datum :=
  byte (if b then 1 else 0)

/-- A list of single-precision floats, such as a matrix. -/
def floats (xs : List Float32) : Datum :=
  list (xs.map float)

/-- A list of doubles. -/
def doubles (xs : List Float) : Datum :=
  list (xs.map double)

/-- A list of texts. -/
def strings (xs : List String) : Datum :=
  list (xs.map string)

/-- The integer of an integral value. -/
def integer? : Datum → Option Int
  | byte v => some v.toInt
  | short v => some v.toInt
  | int v => some v.toInt
  | long v => some v.toInt
  | _ => none

/-- The text of a text value. -/
def text? : Datum → Option String
  | string s => some s
  | _ => none

/-- The items of a list. -/
def items? : Datum → Option (List Datum)
  | list items => some items
  | _ => none

/-- The entries of a compound. -/
def entries? : Datum → Option Compound
  | compound entries => some entries
  | _ => none

/-- The kind that the items of a list share: that of its first item. -/
def itemKind? (items : List Datum) : Option Kind :=
  items.head?.map kind

/-- Adds an item at the end of a list, unless the list holds another kind. -/
def push (items : List Datum) (item : Datum) : Except Fault (List Datum) :=
  match itemKind? items with
  | none => .ok (items ++ [item])
  | some k => if k = item.kind then .ok (items ++ [item]) else .error (.mixedKinds k item.kind)

end Datum

namespace Compound

/-- The value of a key. -/
def get? (c : Compound) (key : String) : Option Datum :=
  (c.find? fun e => e.1 == key).map (·.2)

/-- The key has a value. -/
def contains (c : Compound) (key : String) : Bool :=
  (get? c key).isSome

/-- Sets the value of a key.  A key that is there keeps its place, and a new one comes last. -/
def insert : Compound → String → Datum → Compound
  | [], key, value => [(key, value)]
  | (k, v) :: rest, key, value =>
    if k = key then (k, value) :: rest else (k, v) :: insert rest key value

/-- Removes a key; the order of the others stays. -/
def erase (c : Compound) (key : String) : Compound :=
  c.filter fun e => e.1 != key

/-- Collects entries in order; a repeated key keeps its first place and its last value. -/
def ofList (entries : List (String × Datum)) : Compound :=
  entries.foldl (fun c e => insert c e.1 e.2) []

mutual

/-- What becomes of a value that is merged in where `old` stood: compounds are merged, and any
other pair of values is settled in favour of the new one. -/
def mergeValue (old : Option Datum) : Datum → Datum
  | .compound incoming =>
    match old with
    | some (.compound existing) => .compound (merge existing incoming)
    | _ => .compound incoming
  | value => value

/-- Merges entries into a compound, one after the other. -/
def merge (c : Compound) : List (String × Datum) → Compound
  | [] => c
  | (key, value) :: rest => merge (insert c key (mergeValue (get? c key) value)) rest

end

end Compound

end Marionette
