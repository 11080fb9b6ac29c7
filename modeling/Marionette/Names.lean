import Marionette.Text.Blank

/-!
# Safe names

Names chosen by people become parts of paths, objectives and tags, so they are reduced to a small
alphabet and kept apart by numbers.

- `pathSafe`: lower-case names over `[a-z0-9_.-]` that do not start with a dot.
- `storageSafe`: lower-case names over `[a-z0-9_]`.
- `NameAllocator`: the names handed out so far; `allocate` hands out one that is new.
-/

namespace Marionette

/-- Lower-case form of a character, as far as it reaches into ASCII.  Beside the capital letters
of ASCII only the Kelvin sign and the dotted capital I have such a form; any other character stands
for itself, because a safe name replaces it in either case. -/
def lowered (c : Char) : List Char :=
  if c = '\u212A' then ['k']
  else if c = '\u0130' then ['i', '\u0307']
  else [c.toLower]

/-- Characters of an objective or a tag. -/
def isStorageChar (c : Char) : Bool :=
  c.isLower || c.isDigit || c == '_'

/-- Characters of a path segment. -/
def isPathChar (c : Char) : Bool :=
  isStorageChar c || c == '.' || c == '-'

/-- Lower-case text without blanks around it in which every character that is not kept becomes an
underscore; nothing becomes `unnamed`. -/
def sanitize (keep : Char → Bool) (name : String) : List Char :=
  match ((Text.trimChars name.toList).flatMap lowered).map fun c => if keep c then c else '_' with
  | [] => "unnamed".toList
  | cs => cs

/-- A name usable inside objectives and tags. -/
def storageSafe (name : String) : String :=
  String.ofList (sanitize isStorageChar name)

/-- A name usable as one segment of a path: no dots at the start, so it never climbs out of the
directory it is joined onto. -/
def pathSafe (name : String) : String :=
  let cs := sanitize isPathChar name
  String.ofList ((cs.takeWhile (· == '.')).map (fun _ => '_') ++ cs.dropWhile (· == '.'))

/-- The names handed out so far. -/
structure NameAllocator where
  /-- Every name handed out, the latest first. -/
  taken : List String := []

namespace NameAllocator

/-- A name with a number after it. -/
def numbered (base : String) (n : Nat) : String :=
  base ++ "_" ++ toString n

/-- The first number from `n` on, within `fuel` steps, whose numbered name is free. -/
def firstFree (taken : List String) (base : String) : Nat → Nat → Nat
  | 0, n => n
  | fuel + 1, n => if numbered base n ∈ taken then firstFree taken base fuel (n + 1) else n

/-- Hands out a name: the base itself if it is free, and otherwise the base with the least free
number from two on.  The second part says whether the name differs from the base. -/
def allocate (a : NameAllocator) (base : String) : (String × Bool) × NameAllocator :=
  if base ∈ a.taken then
    let name := numbered base (firstFree a.taken base a.taken.length 2)
    ((name, true), ⟨name :: a.taken⟩)
  else ((base, false), ⟨base :: a.taken⟩)

end NameAllocator

end Marionette
