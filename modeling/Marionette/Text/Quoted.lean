import Marionette.Text.GraphemeExtend
import Marionette.Text.Unprintable

/-!
# Texts shown inside messages

A message that quotes a piece of input shows it on one line and with every character visible.

- `hexDigits`: a number in base sixteen, lower case, without leading zeros.
- `isHidden`: characters that cannot be seen by themselves.
- `quoted`: the text between double quotes; quotes, backslashes, line ends, tabs and the null
  character have short escapes, and any other character that cannot be seen by itself is written
  by its code point.
-/

namespace Marionette.Text

/-- A number in base sixteen, with lower-case digits and no leading zero. -/
def hexDigits (n : Nat) : List Char :=
  Nat.toDigits 16 n

/-- The halfwidth sound marks of katakana.  They extend a grapheme, but take a place
of their own. -/
def isSoundMark (c : Char) : Bool :=
  c = '\uff9e' || c = '\uff9f'

/-- The letters that fill the place of a missing Hangul letter and show nothing. -/
def isFiller (c : Char) : Bool :=
  c = '\u115f' || c = '\u1160' || c = '\u3164' || c = '\uffa0'

/-- A character that cannot be seen by itself. -/
def isHidden (c : Char) : Bool :=
  (extendsGrapheme c && !isSoundMark c) || isFiller c || isUnprintable c

/-- The form in which one character is shown. -/
def quotedChar (c : Char) : List Char :=
  if c = '"' then ['\\', '"']
  else if c = '\\' then ['\\', '\\']
  else if c = '\n' then ['\\', 'n']
  else if c = '\r' then ['\\', 'r']
  else if c = '\t' then ['\\', 't']
  else if c = '\x00' then ['\\', '0']
  else if isHidden c then
    ['\\', 'u', '\x7b'] ++ hexDigits c.toNat ++ ['\x7d']
  else [c]

/-- A text between double quotes, with every character visible. -/
def quoted (s : String) : String :=
  String.ofList (['"'] ++ s.toList.flatMap quotedChar ++ ['"'])

end Marionette.Text
