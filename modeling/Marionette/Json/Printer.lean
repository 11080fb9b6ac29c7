import Marionette.Decimal.Layout
import Marionette.Json.Basic
import Marionette.Text.Quoted

/-!
# Writing documents

- `Json.escapeChar`, `Json.escapedText`: texts between double quotes.
- `Json.compact`: a value on one line.
- `Json.pretty`: a value with one item or member on a line, indented by two spaces a level; an
  empty list or object stays on one line.
- `Json.ofDoubles`, `Json.ofSingles`: floats in one text.
- `Json.floatsAsTexts`: a value in which floats have become texts, so that none of them is rounded
  by a reader.
-/

namespace Marionette

namespace Json

/-- A character inside a text.  Quotes, backslashes and control characters are escaped, the latter
by the short form where there is one. -/
def escapeChar (c : Char) : List Char :=
  if c = '"' then ['\\', '"']
  else if c = '\\' then ['\\', '\\']
  else if c = '\x08' then ['\\', 'b']
  else if c = '\x0c' then ['\\', 'f']
  else if c = '\n' then ['\\', 'n']
  else if c = '\r' then ['\\', 'r']
  else if c = '\t' then ['\\', 't']
  else if c.toNat < 0x20 then
    let hex := Text.hexDigits c.toNat
    ['\\', 'u'] ++ List.replicate (4 - hex.length) '0' ++ hex
  else [c]

/-- A text between double quotes. -/
def escapedText (s : String) : String :=
  String.ofList (['"'] ++ s.toList.flatMap escapeChar ++ ['"'])

/-- A line break followed by the indentation of a level. -/
def lineBreak (level : Nat) : String :=
  String.ofList ('\n' :: List.replicate (2 * level) ' ')

mutual

/-- A value over several lines, whose first line starts at the given level. -/
def prettyAt (level : Nat) : Json → String
  | .null => "null"
  | .bool b => if b then "true" else "false"
  | .int n => toString n
  | .float x => Decimal.numberText x
  | .str s => escapedText s
  | .arr [] => "[]"
  | .arr (item :: items) =>
    "[" ++ lineBreak (level + 1) ++ prettyAt (level + 1) item ++
      prettyItems (level + 1) items ++ lineBreak level ++ "]"
  | .obj [] => "\x7b\x7d"
  | .obj ((key, value) :: members) =>
    "\x7b" ++ lineBreak (level + 1) ++ escapedText key ++ ": " ++ prettyAt (level + 1) value ++
      prettyMembers (level + 1) members ++ lineBreak level ++ "\x7d"

/-- The items of a list after the first. -/
def prettyItems (level : Nat) : List Json → String
  | [] => ""
  | item :: items => "," ++ lineBreak level ++ prettyAt level item ++ prettyItems level items

/-- The members of an object after the first. -/
def prettyMembers (level : Nat) : List (String × Json) → String
  | [] => ""
  | (key, value) :: members =>
    "," ++ lineBreak level ++ escapedText key ++ ": " ++ prettyAt level value ++
      prettyMembers level members

end

/-- A value over several lines. -/
def pretty (value : Json) : String :=
  prettyAt 0 value

mutual

/-- Adds a value to a text, on one line and without spaces. -/
def addCompact (text : String) : Json → String
  | .null => text ++ "null"
  | .bool b => text ++ if b then "true" else "false"
  | .int n => text ++ toString n
  | .float x => text ++ Decimal.numberText x
  | .str s => text ++ escapedText s
  | .arr [] => text ++ "[]"
  | .arr (item :: items) => addCompactItems (addCompact (text ++ "[") item) items ++ "]"
  | .obj [] => text ++ "\x7b\x7d"
  | .obj ((key, value) :: members) =>
    addCompactMembers (addCompact (text ++ "\x7b" ++ escapedText key ++ ":") value) members ++
    "\x7d"

/-- Adds the items of a list after the first. -/
def addCompactItems (text : String) : List Json → String
  | [] => text
  | item :: items => addCompactItems (addCompact (text ++ ",") item) items

/-- Adds the members of an object after the first. -/
def addCompactMembers (text : String) : List (String × Json) → String
  | [] => text
  | (key, value) :: members =>
    addCompactMembers (addCompact (text ++ "," ++ escapedText key ++ ":") value) members

end

/-- A value on one line, without spaces. -/
def compact (value : Json) : String :=
  addCompact "" value

/-- Doubles in one text: the positional text of each, with blanks between them. -/
def ofDoubles (xs : List Float) : Json :=
  .str (String.intercalate " " (xs.map Decimal.doubleText))

/-- Single-precision floats in one text: the positional text of each, with blanks between them. -/
def ofSingles (xs : List Float32) : Json :=
  .str (String.intercalate " " (xs.map Decimal.singleText))

mutual

/-- A value in which the positional text of each float takes its place. -/
def floatsAsTexts : Json → Json
  | .float x => .str (Decimal.doubleText x)
  | .arr items => .arr (floatsAsTextsItems items)
  | .obj members => .obj (floatsAsTextsMembers members)
  | other => other

/-- The items of a list, with texts in place of floats. -/
def floatsAsTextsItems : List Json → List Json
  | [] => []
  | item :: rest => floatsAsTexts item :: floatsAsTextsItems rest

/-- The members of an object, with texts in place of floats. -/
def floatsAsTextsMembers : List (String × Json) → List (String × Json)
  | [] => []
  | (key, value) :: rest => (key, floatsAsTexts value) :: floatsAsTextsMembers rest

end

end Json

end Marionette
