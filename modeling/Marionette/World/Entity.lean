import Marionette.Command.Basic

/-!
# Entities

- `EntityPlan`: what a summoned entity will be, with its passengers; `EntityPlan.ofData` reads it
  from data.
- `Entity`: an entity of a world.
- `Entity.matches`: whether a selector picks an entity.
-/

namespace Marionette

/-- What a summoned entity will be. -/
inductive EntityPlan where
  /-- Its type, tags and data, and what rides it. -/
  | mk (entityType : String) (tags : List String) (data : Compound) (passengers : List EntityPlan)

/-- Adds a tag to tags in increasing order. -/
def insertTag (tag : String) : List String → List String
  | [] => [tag]
  | t :: rest => if tag < t then tag :: t :: rest else if tag = t then t :: rest
    else t :: insertTag tag rest

/-- Tags of entity data, in increasing order.  Items that are no texts do not count. -/
def tagsOf (data : Compound) : List String :=
  match Compound.get? data "Tags" with
  | some (.list items) => (items.filterMap Datum.text?).foldl (fun tags t => insertTag t tags) []
  | _ => []

/-- Entity data without its type, its tags and its passengers. -/
def ownData (data : Compound) : Compound :=
  ((data.erase "Tags").erase "Passengers").erase "id"

namespace EntityPlan

mutual

/-- What rides an entity, from its data. -/
def passengersOf : List (String × Datum) → List EntityPlan
  | [] => []
  | (key, value) :: rest => if key = "Passengers" then ofItems value else passengersOf rest

/-- The entities of a list of entity data. -/
def ofItems : Datum → List EntityPlan
  | .list items => ofEach items
  | _ => []

/-- The entities of entity data.  Items that are no compounds or have no type do not count. -/
def ofEach : List Datum → List EntityPlan
  | [] => []
  | .compound data :: rest =>
    match (Compound.get? data "id").bind Datum.text? with
    | some entityType =>
      mk entityType (tagsOf data) (ownData data) (passengersOf data) :: ofEach rest
    | none => ofEach rest
  | _ :: rest => ofEach rest

end

/-- The plan of a summoned entity. -/
def ofData (entityType : String) (data : Compound) : EntityPlan :=
  mk entityType (tagsOf data) (ownData data) (passengersOf data)

end EntityPlan

/-- An entity of a world.  Entities are named by their place in the order of creation. -/
structure Entity where
  /-- Its number. -/
  id : Nat
  /-- Its type. -/
  entityType : String
  /-- Its tags, in increasing order. -/
  tags : List String := []
  /-- Its data, without type, tags and passengers. -/
  data : Compound := []
  /-- What it rides. -/
  vehicle : Option Nat := none
  /-- What rides it. -/
  passengers : List Nat := []
  /-- It has not been removed. -/
  alive : Bool := true
  /-- Offset, yaw and pitch of the last teleport. -/
  teleport : Option (Vec3 × Float × Float) := none
deriving Inhabited

namespace Entity

/-- It has a tag. -/
def hasTag (e : Entity) (tag : String) : Bool := tag ∈ e.tags

/-- An integer of its data. -/
def integer? (e : Entity) (key : String) : Option Int :=
  (Compound.get? e.data key).bind Datum.integer?

/-- The floats of its transformation; nothing if an item is no float. -/
def transformation? (e : Entity) : Option (List Float32) := do
  let items ← (← Compound.get? e.data "transformation").items?
  items.mapM fun
    | .float v => some v
    | _ => none

/-- A selector picks it: it is alive and passes the filters, whatever the selector starts from. -/
def «matches» (e : Entity) (s : Selector) : Bool :=
  e.alive && (s.entityType.all fun t => t == e.entityType) &&
    s.tags.all fun t => e.hasTag t.1 != t.2

end Entity

end Marionette
