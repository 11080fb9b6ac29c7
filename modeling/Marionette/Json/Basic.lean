/-!
# Document values

- `Json`: a value of a document.  Whole numbers and other numbers are kept apart, because an
  integer field takes the former only, and the members of an object keep the order of the text.
- `Json.member?`: the value of a key.
- `Json.sorted`: the generic form of a value, in which the keys of every object are distinct and
  in increasing order.
-/

namespace Marionette

/-- A value of a document. -/
inductive Json where
  /-- The null value. -/
  | null
  /-- A truth value. -/
  | bool (b : Bool)
  /-- A number written without point and exponent that fits in 64 bits. -/
  | int (n : Int)
  /-- Any other number. -/
  | float (x : Float)
  /-- A text. -/
  | str (s : String)
  /-- A list of values. -/
  | arr (items : List Json)
  /-- Members in the order of the text; a key may occur more than once. -/
  | obj (members : List (String × Json))
deriving Inhabited

namespace Json

/-- The value of the first member with a key. -/
def member? (key : String) (members : List (String × Json)) : Option Json :=
  (members.find? fun m => m.1 == key).map (·.2)

/-- Puts a member into a list whose keys are increasing; an equal key gets the new value. -/
def insertMember (key : String) (value : Json) : List (String × Json) → List (String × Json)
  | [] => [(key, value)]
  | (k, v) :: rest =>
    if key < k then (key, value) :: (k, v) :: rest
    else if key = k then (key, value) :: rest
    else (k, v) :: insertMember key value rest

mutual

/-- The generic form of a value: the keys of every object are distinct and increasing, and a
repeated key keeps its last value. -/
def sorted : Json → Json
  | .arr items => .arr (sortedItems items)
  | .obj members => .obj (sortedMembers [] members)
  | other => other

/-- The generic forms of the items of a list. -/
def sortedItems : List Json → List Json
  | [] => []
  | item :: rest => sorted item :: sortedItems rest

/-- Adds the generic forms of members to a list with increasing keys. -/
def sortedMembers (acc : List (String × Json)) : List (String × Json) → List (String × Json)
  | [] => acc
  | (key, value) :: rest => sortedMembers (insertMember key (sorted value) acc) rest

end

end Json

end Marionette
