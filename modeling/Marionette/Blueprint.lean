import Marionette.Config
import Marionette.Json.Reader
import Marionette.Rig.Basic

/-!
# Blueprints

A blueprint is a document with a rig, its animations, and settings.

- `Blueprint`: the contents of a blueprint.
- `Blueprint.ofJson`, `Blueprint.ofText`: read a blueprint; a node of an unknown kind is reported by
  its name before anything else is looked at.
- `Blueprint.encode`: writes a blueprint.
-/

namespace Marionette

/-- The contents of a blueprint. -/
structure Blueprint where
  /-- Name of the rig. -/
  name : String
  /-- Settings. -/
  settings : Config := {}
  /-- Nodes in the author's order. -/
  nodes : List RigNode := []
  /-- Variants in the author's order. -/
  variants : List Variant := []
  /-- Animations in the author's order. -/
  animations : List Animation := []
deriving Inhabited

namespace Blueprint

/-- A member of a value, if the value is an object that has it. -/
def memberOf? (j : Json) (name : String) : Option Json :=
  match j with
  | .obj members => Json.member? name members
  | _ => none

/-- A member that is a text. -/
def textOf? (j : Json) (name : String) : Option String :=
  match memberOf? j name with
  | some (.str s) => some s
  | _ => none

/-- Refuses a node whose kind is not known; it is named by its name or else by its identifier. -/
def checkNodeKind (node : Json) : Except BakeError Unit :=
  match textOf? node "type" with
  | none => .ok ()
  | some kind =>
    if kind ∈ NodeKind.names then .ok ()
    else
      let name := ((textOf? node "name").orElse fun _ => textOf? node "uuid").getD "<unnamed>"
      .error (.unknownNodeKind name kind)

/-- Refuses the first node whose kind is not known. -/
def checkNodeKinds (j : Json) : Except BakeError Unit :=
  match memberOf? j "nodes" with
  | some (.arr nodes) => nodes.forM checkNodeKind
  | _ => .ok ()

/-- Reads the contents of a blueprint. -/
def decode : Decoder Blueprint :=
  Decoder.record ["name", "settings", "nodes", "variants", "animations"] 1 fun j => do
  return {
    name := ← Json.field j "name" Decoder.text
    settings := ← Json.fieldOr j "settings" Config.decode {}
    nodes := ← Json.fieldOr j "nodes" (Decoder.list RigNode.decode) []
    variants := ← Json.fieldOr j "variants" (Decoder.list Variant.decode) []
    animations := ← Json.fieldOr j "animations" (Decoder.list Animation.decode) [] }

/-- Reads a blueprint from a document value, whose generic form is taken first. -/
def ofJson (j : Json) : Except BakeError Blueprint := do
  let j := j.sorted
  checkNodeKinds j
  (decode j).mapError fun fault => .serializationError fault.message

/-- Reads a blueprint from a text. -/
def ofText (s : String) : Except BakeError Blueprint :=
  match Json.read? s with
  | some j => ofJson j
  | none => .error (.serializationError "not a document")

/-- The rig of a blueprint. -/
def rig (b : Blueprint) : Except BakeError Rig :=
  Rig.build b.name b.nodes b.variants

/-- Writes a blueprint. -/
def encode (b : Blueprint) : Json :=
  .obj [("name", .str b.name), ("settings", b.settings.encode),
    ("nodes", .arr (b.nodes.map RigNode.encode)),
    ("variants", .arr (b.variants.map Variant.encode)),
    ("animations", .arr (b.animations.map Animation.encode))]

end Blueprint

end Marionette
