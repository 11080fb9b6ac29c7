import Marionette.Datum.Basic
import Marionette.Decimal.Layout

/-!
# Structured data as text

- `Datum.escapedText`, `Datum.keyText`: texts and keys.
- `Layout`: everything on one line, or containers over several lines.
- `Datum.render`, `Compound.render`: the text of a value, or the fault of a float that has none.
- `Datum.Fault.message`: a fault in words.
-/

namespace Marionette

namespace Datum

/-- A fault in words. -/
def Fault.message : Fault → String
  | .mixedKinds expected got =>
    "heterogeneous list: expected " ++ expected.name ++ ", got " ++ got.name
  | .nonFiniteFloat v => "non-finite float in structured data: " ++ Decimal.singleText v
  | .nonFiniteDouble v => "non-finite double in structured data: " ++ Decimal.doubleText v

/-- A character inside a quoted text. -/
def escapedChar (c : Char) : List Char :=
  if c = '\\' then ['\\', '\\']
  else if c = '"' then ['\\', '"']
  else if c = '\n' then ['\\', 'n']
  else [c]

/-- A text between double quotes. -/
def escapedText (s : String) : String :=
  String.ofList (['"'] ++ s.toList.flatMap escapedChar ++ ['"'])

/-- The characters of keys that need no quotes. -/
def isBareChar (c : Char) : Bool :=
  c.isAlphanum || c == '_' || c == '-' || c == '.' || c == '+'

/-- A key that needs no quotes. -/
def isBareKey (key : String) : Bool :=
  !key.isEmpty && key.toList.all isBareChar

/-- A key, quoted only where it has to be. -/
def keyText (key : String) : String :=
  if isBareKey key then key else escapedText key

/-- The text of a single-precision float; minus zero is written as zero. -/
def floatText (v : Float32) : Except Fault String :=
  if !v.isFinite then .error (.nonFiniteFloat v)
  else .ok (Decimal.singleText (if v == 0 then 0 else v) ++ "f")

/-- The text of a double; minus zero is written as zero. -/
def doubleText (v : Float) : Except Fault String :=
  if !v.isFinite then .error (.nonFiniteDouble v)
  else .ok (Decimal.doubleText (if v == 0 then 0 else v) ++ "d")

/-- How the parts of a value are laid out. -/
inductive Layout where
  /-- Everything on one line, without spaces. -/
  | compact
  /-- Entries of compounds, and items of lists of containers, on lines of their own. -/
  | indented
deriving DecidableEq, Repr

/-- A line break followed by the indentation of a level. -/
def lineBreak (level : Nat) : String :=
  String.ofList ('\n' :: List.replicate (2 * level) ' ')

/-- A compound or a list. -/
def isContainer : Datum → Bool
  | list _ | compound _ => true
  | _ => false

/-- A list whose items stand on lines of their own. -/
def isBroken (layout : Layout) (items : List Datum) : Bool :=
  layout = .indented && items.any isContainer

/-- Line break before a part at a level, if the parts stand on lines of their own. -/
def breakIf (broken : Bool) (level : Nat) : String :=
  if broken then lineBreak level else ""

mutual

/-- The text of a value whose first line starts at a level. -/
def renderAt (layout : Layout) (level : Nat) : Datum → Except Fault String
  | byte v => .ok (toString v.toInt ++ "b")
  | short v => .ok (toString v.toInt ++ "s")
  | int v => .ok (toString v.toInt)
  | long v => .ok (toString v.toInt ++ "L")
  | float v => floatText v
  | double v => doubleText v
  | string s => .ok (escapedText s)
  | list items => do
    let broken := isBroken layout items
    let body ← renderItems layout broken (level + 1) true items
    return "[" ++ body ++ breakIf broken level ++ "]"
  | compound [] => .ok "\x7b\x7d"
  | compound (e :: entries) => do
    let body ← renderEntries layout (level + 1) true (e :: entries)
    return "\x7b" ++ body ++ breakIf (layout = .indented) level ++ "\x7d"
  | byteArray items =>
    .ok ("[B;" ++ String.intercalate "," (items.map fun v => toString v.toInt ++ "b") ++ "]")
  | intArray items =>
    .ok ("[I;" ++ String.intercalate "," (items.map fun v => toString v.toInt) ++ "]")

/-- The items of a list; every item but the first follows a comma. -/
def renderItems (layout : Layout) (broken : Bool) (level : Nat) (first : Bool) :
    List Datum → Except Fault String
  | [] => .ok ""
  | item :: items => do
    let text ← renderAt layout level item
    let rest ← renderItems layout broken level false items
    return (if first then "" else ",") ++ breakIf broken level ++ text ++ rest

/-- The entries of a compound; every entry but the first follows a comma. -/
def renderEntries (layout : Layout) (level : Nat) (first : Bool) :
    List (String × Datum) → Except Fault String
  | [] => .ok ""
  | (key, value) :: entries => do
    let text ← renderAt layout level value
    let rest ← renderEntries layout level false entries
    let broken := layout = .indented
    return (if first then "" else ",") ++ breakIf broken level ++ keyText key ++
      (if broken then ": " else ":") ++ text ++ rest

end

/-- The text of a value. -/
def render (layout : Layout) (value : Datum) : Except Fault String :=
  renderAt layout 0 value

end Datum

/-- The text of a compound. -/
def Compound.render (layout : Datum.Layout) (c : Compound) : Except Datum.Fault String :=
  Datum.renderAt layout 0 (.compound c)

end Marionette
