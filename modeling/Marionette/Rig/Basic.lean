import Marionette.Animation.Document
import Marionette.Error
import Marionette.Names

/-!
# Rigs

A rig is a forest of nodes and a list of variants.

- `NodeKind`: what a node shows; `NodeKind.isMatrix`, `NodeKind.hasEntity`, `NodeKind.entityType`.
- `RigNode`, `BindPose`, `Variant`: the parts of a rig as an author gives them.
- `Rig`: nodes with parents first, each with its place, its parent's place and its safe name.
- `Rig.build`: orders the nodes and names them, or says why they are no forest.
-/

namespace Marionette

/-- What a node shows. -/
inductive NodeKind where
  /-- A part of a model, whose item depends on the variant. -/
  | bone (item : Option String)
  /-- A point at which commands run; a tracked one has an entity that follows the animation. -/
  | locator (tracked : Bool)
  /-- A point to look from. -/
  | camera
  /-- A text. -/
  | textDisplay (text : String)
  /-- An item that never changes. -/
  | itemDisplay (item : String)
  /-- A block that never changes. -/
  | blockDisplay (block : String)
deriving DecidableEq, Repr, Inhabited

namespace NodeKind

/-- The name of a kind. -/
def name : NodeKind → String
  | bone _ => "bone"
  | locator _ => "locator"
  | camera => "camera"
  | textDisplay _ => "text_display"
  | itemDisplay _ => "item_display"
  | blockDisplay _ => "block_display"

/-- The names of all kinds. -/
def names : List String :=
  ["bone", "locator", "camera", "text_display", "item_display", "block_display"]

/-- The pose is written as a whole matrix.  The other nodes are moved to a place and turned by two
angles. -/
def isMatrix : NodeKind → Bool
  | locator _ | camera => false
  | _ => true

/-- The node has an entity that rides the root. -/
def hasEntity : NodeKind → Bool
  | locator tracked => tracked
  | _ => true

/-- The type of that entity.  A locator or a camera shows nothing. -/
def entityType : NodeKind → String
  | bone _ | itemDisplay _ | locator _ | camera => "minecraft:item_display"
  | blockDisplay _ => "minecraft:block_display"
  | textDisplay _ => "minecraft:text_display"

/-- Reads the fields of a kind. -/
def decodeFields (kind : String) : Decoder NodeKind := fun j => do
  match kind with
  | "bone" => return bone (← Json.field? j "item" Decoder.text)
  | "locator" => return locator (← Json.fieldOr j "tracked" Decoder.bool false)
  | "camera" => return camera
  | "text_display" => return textDisplay (← Json.fieldOr j "text" Decoder.text "")
  | "item_display" => return itemDisplay (← Json.field j "item" Decoder.text)
  | "block_display" => return blockDisplay (← Json.field j "block" Decoder.text)
  | _ => .error (.mismatch "a kind of node")

/-- The field that a kind has in documents and whether it is needed. -/
def layouts : List (String × List String × Nat) :=
  [("bone", ["item"], 0), ("locator", ["tracked"], 0), ("camera", [], 0),
    ("text_display", ["text"], 0), ("item_display", ["item"], 1), ("block_display", ["block"], 1)]

/-- Reads a kind by itself: an object with the name of the kind under `type` beside the fields, or a
list of these. -/
def decode : Decoder NodeKind
  | .arr (.str kind :: values) =>
    match layouts.lookup kind with
    | some (fields, needed) => Decoder.record fields needed (decodeFields kind) (.arr values)
    | none => .error (.mismatch "a kind of node")
  | j => do decodeFields (← Json.field j "type" Decoder.text) j

/-- Reads the name of the kind of a node; it may also be given by its place among the names. -/
def decodeName : Decoder String
  | .str kind => .ok kind
  | .int (.ofNat place) =>
    match names[place]? with
    | some kind => .ok kind
    | none => .error (.mismatch "a kind of node")
  | _ => .error (.mismatch "a kind of node")

/-- The fields of a kind. -/
def fields : NodeKind → List (String × Json)
  | bone item => [("item", .ofOption .str item)]
  | locator tracked => [("tracked", .bool tracked)]
  | camera => []
  | textDisplay text => [("text", .str text)]
  | itemDisplay item => [("item", .str item)]
  | blockDisplay block => [("block", .str block)]

end NodeKind

/-- The pose of a node at rest, relative to its parent. -/
structure BindPose where
  /-- Pivot. -/
  origin : Vec3 := .zero
  /-- Three angles in degrees. -/
  rotation : Vec3 := .zero
  /-- Three scale factors. -/
  scale : Vec3 := .one
deriving Repr, Inhabited

namespace BindPose

/-- Reads a pose at rest. -/
def decode : Decoder BindPose := Decoder.record ["origin", "rotation", "scale"] 0 fun j => do
  return {
    origin := ← Json.fieldOr j "origin" Vec3.decode .zero
    rotation := ← Json.fieldOr j "rotation" Vec3.decode .zero
    scale := ← Json.fieldOr j "scale" Vec3.decode .one }

/-- Writes a pose at rest. -/
def encode (b : BindPose) : Json :=
  .obj [("origin", b.origin.encode), ("rotation", b.rotation.encode), ("scale", b.scale.encode)]

end BindPose

/-- A node as its author gives it. -/
structure RigNode where
  /-- Identifier. -/
  uuid : Uuid
  /-- Name as the author wrote it. -/
  name : String
  /-- The node that it hangs on. -/
  parent : Option Uuid := none
  /-- What it shows. -/
  kind : NodeKind
  /-- Pose at rest. -/
  bind : BindPose := {}
deriving Repr, Inhabited

namespace RigNode

/-- Reads a node; the fields of its kind stand beside the others. -/
def decode : Decoder RigNode := fun j => do
  return {
    uuid := ← Json.field j "uuid" Uuid.decode
    name := ← Json.field j "name" Decoder.text
    parent := ← Json.field? j "parent" Uuid.decode
    kind := ← NodeKind.decodeFields (← Json.field j "type" NodeKind.decodeName) j
    bind := ← Json.fieldOr j "bind" BindPose.decode {} }

/-- Writes a node. -/
def encode (n : RigNode) : Json :=
  .obj ([("uuid", .str n.uuid.text), ("name", .str n.name),
    ("parent", .ofOption (fun p => .str p.text) n.parent), ("type", .str n.kind.name)] ++
    n.kind.fields ++ [("bind", n.bind.encode)])

end RigNode

/-- A set of models that the bones of a rig can show. -/
structure Variant where
  /-- Identifier. -/
  uuid : Uuid
  /-- Name as the author wrote it. -/
  name : String
  /-- Shown by a new instance. -/
  isDefault : Bool := false
  /-- The model of each bone that has one of its own, in the author's order. -/
  models : List (Uuid × String) := []
deriving Repr, Inhabited

/-- Sets the value of a key in an ordered list of entries: a key that is there keeps its place, and
a new one comes last. -/
def insertEntry {α β : Type} [DecidableEq α] (key : α) (value : β) : List (α × β) → List (α × β)
  | [] => [(key, value)]
  | (k, v) :: rest => if k = key then (k, value) :: rest else (k, v) :: insertEntry key value rest

/-- Reads entries whose keys are identifiers. -/
def Decoder.byUuid {α : Type} (d : Decoder α) : Decoder (List (Uuid × α)) := fun j => do
  let entries ← Decoder.entries d j
  entries.foldlM (fun acc e => do return insertEntry (← Uuid.decode (.str e.1)) e.2 acc) []

namespace Variant

/-- The model of a bone. -/
def model? (v : Variant) (bone : Uuid) : Option String :=
  (v.models.find? fun m => m.1 == bone).map (·.2)

/-- Reads a variant. -/
def decode : Decoder Variant :=
  Decoder.record ["uuid", "name", "is_default", "models"] 2 fun j => do
  return {
    uuid := ← Json.field j "uuid" Uuid.decode
    name := ← Json.field j "name" Decoder.text
    isDefault := ← Json.fieldOr j "is_default" Decoder.bool false
    models := ← Json.fieldOr j "models" (Decoder.byUuid Decoder.text) [] }

/-- Writes a variant. -/
def encode (v : Variant) : Json :=
  .obj [("uuid", .str v.uuid.text), ("name", .str v.name), ("is_default", .bool v.isDefault),
    ("models", .obj (v.models.map fun m => (m.1.text, .str m.2)))]

end Variant

/-- A node in its place within a rig. -/
structure Slot where
  /-- The node. -/
  node : RigNode
  /-- Its safe name, which no other node of the rig has. -/
  storageName : String
  /-- The place of its parent. -/
  parent : Option Nat
deriving Inhabited

/-- A rig whose nodes form a forest; every node comes after its parent. -/
structure Rig where
  /-- Name as the author wrote it. -/
  name : String
  /-- The nodes with their places, parents first. -/
  slots : Array Slot
  /-- The variants with their safe names, in the author's order. -/
  variants : List (Variant × String)
deriving Inhabited

namespace Rig

/-- The number of nodes. -/
def size (r : Rig) : Nat := r.slots.size

/-- The place of a node. -/
def indexOf? (r : Rig) (uuid : Uuid) : Option Nat :=
  r.slots.findIdx? fun s => s.node.uuid == uuid

/-- The slot of a node. -/
def slot? (r : Rig) (uuid : Uuid) : Option Slot :=
  r.slots.find? fun s => s.node.uuid == uuid

/-- The place of a variant. -/
def variantIndex? (r : Rig) (uuid : Uuid) : Option Nat :=
  r.variants.findIdx? fun v => v.1.uuid == uuid

/-- A variant and its safe name. -/
def variant? (r : Rig) (uuid : Uuid) : Option (Variant × String) :=
  r.variants.find? fun v => v.1.uuid == uuid

/-- The first node whose identifier occurs before it. -/
def firstRepeated (seen : List Uuid) : List RigNode → Option Uuid
  | [] => none
  | n :: rest => if n.uuid ∈ seen then some n.uuid else firstRepeated (n.uuid :: seen) rest

/-- The nodes that hang on a node. -/
def childrenOf (nodes : List RigNode) (parent : Uuid) : List RigNode :=
  nodes.filter fun n => n.parent == some parent

/-- Visits nodes depth first: each node of the agenda, followed by what hangs on it, before the
next.  At most `fuel` nodes are visited. -/
def preorder (nodes : List RigNode) : Nat → List RigNode → List RigNode
  | 0, _ => []
  | _, [] => []
  | fuel + 1, n :: agenda => n :: preorder nodes fuel (childrenOf nodes n.uuid ++ agenda)

/-- The nodes that hang on nothing, each followed by what hangs on it. -/
def ordered (nodes : List RigNode) : List RigNode :=
  preorder nodes nodes.length (nodes.filter (·.parent.isNone))

/-- Hands out safe names in order. -/
def allocateNames (a : NameAllocator) : List String → List String
  | [] => []
  | name :: rest =>
    let (allocated, a) := a.allocate (storageSafe name)
    allocated.1 :: allocateNames a rest

/-- Builds a rig.  Identifiers have to be distinct, parents have to be nodes of the rig, and every
node has to hang on a node without a parent; otherwise the first node that cannot be reached is
reported. -/
def build (name : String) (nodes : List RigNode) (variants : List Variant) :
    Except BakeError Rig := do
  if let some uuid := firstRepeated [] nodes then .error (.duplicateNode uuid)
  let known (uuid : Uuid) : Bool := nodes.any fun n => n.uuid == uuid
  for n in nodes do
    if let some parent := n.parent then
      if !known parent then .error (.missingParent n.uuid parent)
  -- a node on a cycle, or below one, is not reached from those without a parent
  let order := ordered nodes
  if let some lost := nodes.find? fun n => !order.any fun m => m.uuid == n.uuid then
    .error (.hierarchyCycle lost.uuid)
  let names := allocateNames {} (order.map (·.name))
  let place (uuid : Uuid) : Option Nat := order.findIdx? fun m => m.uuid == uuid
  let slots := (order.zip names).map fun (n, storageName) => ⟨n, storageName, n.parent.bind place⟩
  let variantNames := allocateNames {} (variants.map (·.name))
  return ⟨name, slots.toArray, variants.zip variantNames⟩

end Rig

end Marionette
