import Marionette.Decimal.Layout
import Marionette.Json.Decode
import Marionette.Uuid

/-!
# Reasons to refuse a rig or an animation

- `BakeError`: everything that stops a compilation or an emission.
- `BakeError.message`: the reason in words.
- `BakeError.category`, `BakeError.animation?`, `BakeError.node?`: what it is about.
-/

namespace Marionette

/-- What stops a compilation or an emission. -/
inductive BakeError where
  /-- A node of a kind that is not known. -/
  | unknownNodeKind (node kind : String)
  /-- Two nodes share an identifier. -/
  | duplicateNode (uuid : Uuid)
  /-- The parent of a node is not in the rig. -/
  | missingParent (node parent : Uuid)
  /-- Parents form a cycle. -/
  | hierarchyCycle (node : Uuid)
  /-- A length or delay that is negative, infinite, not a number, or too long. -/
  | invalidDuration (animation : String) (duration : Float)
  /-- A key that cannot be played, on a node or on the animation as a whole. -/
  | invalidKeyframe (animation : String) (node : Option Uuid) (reason : String)
  /-- An animation refers to a node that is not in the rig. -/
  | unknownNode (animation : String) (node : Uuid)
  /-- A pose that cannot be written. -/
  | degenerateTransform (animation : String) (node : Uuid) (tick : Nat)
  /-- A setting out of range. -/
  | invalidConfig (reason : String)
  /-- Two files of one path. -/
  | duplicateOutput (path : String)
  /-- A document that cannot be read or written. -/
  | serializationError (reason : String)
  /-- A file that cannot be read or written. -/
  | ioError (path reason : String)

namespace BakeError

/-- An identifier that may be absent, as messages show it. -/
def nodeText : Option Uuid → String
  | none => "None"
  | some u => "Some(" ++ u.text ++ ")"

/-- The reason in words. -/
def message : BakeError → String
  | unknownNodeKind node kind => s!"Unknown node kind '{kind}' on node '{node}'"
  | duplicateNode uuid => s!"Duplicate node uuid {uuid.text}"
  | missingParent node parent => s!"Node {node.text} references missing parent {parent.text}"
  | hierarchyCycle node => s!"Node hierarchy contains a cycle through {node.text}"
  | invalidDuration animation duration =>
    s!"Animation '{animation}' has invalid duration {Decimal.doubleText duration}"
  | invalidKeyframe animation node reason =>
    s!"Animation '{animation}': invalid keyframe on node {nodeText node}: {reason}"
  | unknownNode animation node =>
    s!"Animation '{animation}' references node {node.text} which is not part of the rig"
  | degenerateTransform animation node tick =>
    s!"Animation '{animation}': cannot decompose transform of node {node.text} at tick {tick}"
  | invalidConfig reason => s!"Invalid configuration: {reason}"
  | duplicateOutput path => s!"Duplicate output path: {path}"
  | serializationError reason => s!"Serialization error: {reason}"
  | ioError path reason => s!"IO error at {path}: {reason}"

/-- The name of the kind of error. -/
def kindName : BakeError → String
  | unknownNodeKind _ _ => "UnknownNodeKind"
  | duplicateNode _ => "DuplicateNode"
  | missingParent _ _ => "MissingParent"
  | hierarchyCycle _ => "HierarchyCycle"
  | invalidDuration _ _ => "InvalidDuration"
  | invalidKeyframe _ _ _ => "InvalidKeyframe"
  | unknownNode _ _ => "UnknownNode"
  | degenerateTransform _ _ _ => "DegenerateTransform"
  | invalidConfig _ => "InvalidConfig"
  | duplicateOutput _ => "DuplicateOutput"
  | serializationError _ => "SerializationError"
  | ioError _ _ => "IoError"

/-- The part of the work that the error is about. -/
def category : BakeError → String
  | unknownNodeKind _ _ | duplicateNode _ | missingParent _ _ | hierarchyCycle _ => "rig"
  | invalidDuration _ _ | invalidKeyframe _ _ _ | unknownNode _ _ | degenerateTransform _ _ _ =>
    "animation"
  | invalidConfig _ => "config"
  | duplicateOutput _ => "codegen"
  | serializationError _ => "serialization"
  | ioError _ _ => "io"

/-- The animation at fault, when the error is tied to one. -/
def animation? : BakeError → Option String
  | invalidDuration animation _ | invalidKeyframe animation _ _ | unknownNode animation _
  | degenerateTransform animation _ _ => some animation
  | _ => none

/-- The node at fault, when it is known. -/
def node? : BakeError → Option Uuid
  | duplicateNode uuid => some uuid
  | missingParent node _ | hierarchyCycle node | unknownNode _ node
  | degenerateTransform _ node _ => some node
  | invalidKeyframe _ node _ => node
  | _ => none

/-- The fields of each kind of error. -/
def layouts : List (String × List String) :=
  [("UnknownNodeKind", ["node", "kind"]), ("DuplicateNode", ["uuid"]),
    ("MissingParent", ["node", "parent"]), ("HierarchyCycle", ["node"]),
    ("InvalidDuration", ["animation", "duration"]),
    ("InvalidKeyframe", ["animation", "node", "reason"]), ("UnknownNode", ["animation", "node"]),
    ("DegenerateTransform", ["animation", "node", "tick"]), ("InvalidConfig", ["reason"]),
    ("DuplicateOutput", ["path"]), ("SerializationError", ["reason"]),
    ("IoError", ["path", "reason"])]

/-- Reads an error from a document: one member, named for the kind, that holds the fields. -/
def decode : Decoder BakeError := fun j => do
  let (kind, c) ← Json.theRecordCase layouts j
  let text (name : String) := Json.field c name Decoder.text
  let uuid (name : String) := Json.field c name Uuid.decode
  match kind with
  | "UnknownNodeKind" => return unknownNodeKind (← text "node") (← text "kind")
  | "DuplicateNode" => return duplicateNode (← uuid "uuid")
  | "MissingParent" => return missingParent (← uuid "node") (← uuid "parent")
  | "HierarchyCycle" => return hierarchyCycle (← uuid "node")
  | "InvalidDuration" =>
    return invalidDuration (← text "animation") (← Json.field c "duration" Decoder.double)
  | "InvalidKeyframe" =>
    return invalidKeyframe (← text "animation") (← Json.field? c "node" Uuid.decode)
      (← text "reason")
  | "UnknownNode" => return unknownNode (← text "animation") (← uuid "node")
  | "DegenerateTransform" =>
    return degenerateTransform (← text "animation") (← uuid "node")
      (← Json.field c "tick" Decoder.nat32)
  | "InvalidConfig" => return invalidConfig (← text "reason")
  | "DuplicateOutput" => return duplicateOutput (← text "path")
  | "SerializationError" => return serializationError (← text "reason")
  | "IoError" => return ioError (← text "path") (← text "reason")
  | _ => .error (.mismatch "a kind of error")

end BakeError

end Marionette
