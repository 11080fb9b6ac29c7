import Marionette.Uuid

/-!
# Remarks of a compilation

Problems that do not stop a compilation are collected and handed back with its result.

- `Diagnostic`: a remark with what it is about.
- `warning`, `info`: the two kinds of remarks.
- `warnings`: the remarks that are warnings.
-/

namespace Marionette

/-- How serious a remark is. -/
inductive Severity where
  /-- Something the author may like to know. -/
  | info
  /-- Something the author probably did not intend. -/
  | warning
deriving DecidableEq, Repr

/-- The name of a severity. -/
def Severity.name : Severity → String
  | .info => "info"
  | .warning => "warning"

/-- A remark. -/
structure Diagnostic where
  /-- How serious it is. -/
  severity : Severity
  /-- The animation that it is about. -/
  animation : Option String := none
  /-- The node that it is about. -/
  node : Option Uuid := none
  /-- The remark in words. -/
  message : String
deriving DecidableEq, Repr

namespace Diagnostic

/-- A warning about an animation or a node. -/
def warning (animation : Option String) (node : Option Uuid) (message : String) : Diagnostic :=
  ⟨.warning, animation, node, message⟩

/-- An information about an animation. -/
def information (animation : Option String) (message : String) : Diagnostic :=
  ⟨.info, animation, none, message⟩

/-- Reads a remark from a document. -/
def decode : Decoder Diagnostic :=
  Decoder.record ["severity", "animation", "node", "message"] 4 fun j => do
  return {
    severity := ← Json.field j "severity" (Decoder.choice [("info", .info), ("warning", .warning)])
    animation := ← Json.field? j "animation" Decoder.text
    node := ← Json.field? j "node" Uuid.decode
    message := ← Json.field j "message" Decoder.text }

/-- Writes a remark; what it is not about is left out. -/
def encode (d : Diagnostic) : Json :=
  .obj ([("severity", .str d.severity.name)] ++
    (d.animation.toList.map fun a => ("animation", .str a)) ++
    (d.node.toList.map fun n => ("node", .str n.text)) ++ [("message", .str d.message)])

end Diagnostic

/-- The remarks that are warnings. -/
def warnings (ds : List Diagnostic) : List Diagnostic :=
  ds.filter (·.severity = .warning)

end Marionette
