import Marionette.Json.Decode
import Marionette.Json.Reader

/-!
# Reading records from texts

A text that holds a record is read for the fields of the record only.  The other members of the
object are skipped: they have to follow the grammar, but they may be nested to any depth, and it
does not matter whether their numbers are too large or whether their texts hold lone surrogates.

- `Json.skipValue?`: what follows a value.
- `Json.readRecord?`: the fields of a record.
- `Decoder.ofRecordText`: a typed record from a text.
-/

namespace Marionette

namespace Json

/-- The rest of a text after the part of an escape that stands behind its backslash. -/
def skipEscape? : List Char → Option (List Char)
  | 'u' :: cs => (readUnit? cs).map (·.2)
  | cs => (readEscape? cs).map (·.2)

/-- What follows a text whose opening quote has been read.  Every step takes a character, so the
length of the input is fuel enough. -/
def skipText? : Nat → List Char → Option (List Char)
  | 0, _ => none
  | _ + 1, [] => none
  | fuel + 1, c :: cs =>
    if c = '"' then some cs
    else if c = '\\' then
      match skipEscape? cs with
      | some rest => skipText? fuel rest
      | none => none
    else if c.toNat < 0x20 then none
    else skipText? fuel cs

/-- What follows a value that is neither a list nor an object. -/
def skipScalar? : List Char → Option (List Char)
  | 'n' :: 'u' :: 'l' :: 'l' :: rest => some rest
  | 't' :: 'r' :: 'u' :: 'e' :: rest => some rest
  | 'f' :: 'a' :: 'l' :: 's' :: 'e' :: rest => some rest
  | '"' :: rest => skipText? (rest.length + 1) rest
  | cs => (readNumeral? cs).map (·.2)

/-- What a text goes on with. -/
inductive Ahead where
  /-- A value. -/
  | value
  /-- A member of an object. -/
  | member
  /-- What stands after a value: a comma or a closing bracket. -/
  | link
deriving DecidableEq, Repr

/-- What follows the outermost value.  For each list or object that is open, innermost first,
`inner` tells whether it is an object.  Every step takes a character, so the length of the input is
fuel enough. -/
def skipFrom : Nat → List Bool → Ahead → List Char → Option (List Char)
  | 0, _, _, _ => none
  | fuel + 1, inner, .value, cs =>
    match skipSpace cs with
    | '[' :: rest =>
      match skipSpace rest with
      | ']' :: rest => skipFrom fuel inner .link rest
      | rest => skipFrom fuel (false :: inner) .value rest
    | '\x7b' :: rest =>
      match skipSpace rest with
      | '\x7d' :: rest => skipFrom fuel inner .link rest
      | rest => skipFrom fuel (true :: inner) .member rest
    | cs =>
      match skipScalar? cs with
      | some rest => skipFrom fuel inner .link rest
      | none => none
  | fuel + 1, inner, .member, cs =>
    match skipSpace cs with
    | '"' :: rest =>
      match (skipText? (rest.length + 1) rest).map skipSpace with
      | some (':' :: rest) => skipFrom fuel inner .value rest
      | _ => none
    | _ => none
  | _ + 1, [], .link, cs => some cs
  | fuel + 1, isObject :: inner, .link, cs =>
    match skipSpace cs with
    | ',' :: rest => skipFrom fuel (isObject :: inner) (if isObject then .member else .value) rest
    | '\x7d' :: rest => if isObject then skipFrom fuel inner .link rest else none
    | ']' :: rest => if isObject then none else skipFrom fuel inner .link rest
    | _ => none

/-- What follows a value. -/
def skipValue? (cs : List Char) : Option (List Char) :=
  skipFrom (cs.length + 1) [] .value cs

/-- The value of a member if its name is among the fields of a record; otherwise it is skipped. -/
def readField? (fields : List String) (key : String) (cs : List Char) :
    Option (List (String × Json) × List Char) :=
  if key ∈ fields then
    (readValue (2 * cs.length + 2) (maxDepth - 1) cs).map fun (value, rest) =>
      ([(key, value)], rest)
  else (skipValue? cs).map fun rest => ([], rest)

/-- The fields of a record up to the closing brace of its object.  Every step takes a character, so
the length of the input is fuel enough. -/
def readFields (fields : List String) : Nat → List (String × Json) → List Char →
    Option (List (String × Json) × List Char)
  | 0, _, _ => none
  | fuel + 1, acc, cs =>
    match skipSpace cs with
    | '"' :: rest =>
      match (readText? (rest.length + 1) [] rest).map fun (key, rest) => (key, skipSpace rest) with
      | some (key, ':' :: rest) =>
        match (readField? fields key rest).map fun (ms, rest) => (acc ++ ms, skipSpace rest) with
        | some (acc, ',' :: rest) => readFields fields fuel acc rest
        | some (acc, '\x7d' :: rest) => some (acc, rest)
        | _ => none
      | _ => none
    | _ => none

/-- The value of a text that holds a record, without the members that are none of its fields. -/
def readRecord? (fields : List String) (s : String) : Option Json :=
  match skipSpace s.toList with
  | '\x7b' :: rest =>
    let members := match skipSpace rest with
      | '\x7d' :: rest => some ([], rest)
      | rest => readFields fields (rest.length + 1) [] rest
    match members with
    | some (ms, rest) => if (skipSpace rest).isEmpty then some (.obj ms) else none
    | none => none
  | _ => read? s

end Json

/-- Reads a record from a text. -/
def Decoder.ofRecordText {α : Type} (fields : List String) (needed : Nat) (d : Decoder α)
    (s : String) : Except DecodeFault α :=
  match Json.readRecord? fields s with
  | some j => Decoder.record fields needed d j
  | none => .error (.mismatch "a document")

end Marionette
