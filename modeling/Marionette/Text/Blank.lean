/-!
# Blank characters and lines

What counts as blank around a name or a command, and how a block of text falls into lines.

- `isBlank`: the characters with the property `White_Space`.
- `trim`: a text without the blanks at its two ends.
- `lines`: the lines of a text; the last line feed ends a line and opens none.
-/

namespace Marionette.Text

/-- The characters with the property `White_Space`. -/
def isBlank (c : Char) : Bool :=
  let n := c.toNat
  (0x09 ≤ n && n ≤ 0x0D) || n == 0x20 || n == 0x85 || n == 0xA0 || n == 0x1680 ||
    (0x2000 ≤ n && n ≤ 0x200A) || n == 0x2028 || n == 0x2029 || n == 0x202F || n == 0x205F ||
    n == 0x3000

/-- The characters that are left once the blanks at both ends are dropped. -/
def trimChars (cs : List Char) : List Char :=
  ((cs.dropWhile isBlank).reverse.dropWhile isBlank).reverse

/-- A text without the blanks at its two ends. -/
def trim (s : String) : String :=
  String.ofList (trimChars s.toList)

/-- Splits at every occurrence of a separator; there is one piece more than separators. -/
def splitChars (sep : Char) : List Char → List (List Char)
  | [] => [[]]
  | c :: rest =>
    if c = sep then [] :: splitChars sep rest
    else match splitChars sep rest with
      | [] => [[c]]
      | piece :: pieces => (c :: piece) :: pieces

/-- Drops one carriage return at the end of a line. -/
def dropReturn (line : List Char) : List Char :=
  if line.getLast? = some '\r' then line.dropLast else line

/-- The lines of a text: a line feed ends a line, one carriage return before it goes with it, and
what follows the last line feed is a line only if it is not empty. -/
def lines (s : String) : List String :=
  let pieces := splitChars '\n' s.toList
  let ended := pieces.dropLast.map fun line => String.ofList (dropReturn line)
  match pieces.getLast? with
  | none | some [] => ended
  | some rest => ended ++ [String.ofList rest]

end Marionette.Text
