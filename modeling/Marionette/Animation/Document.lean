import Marionette.Animation.Basic
import Marionette.Text.Blank

/-!
# Animations in documents

- `Animation.decode`, `Animation.encode`, and the same for its parts.
- `commandLines`: commands are given as one text of several lines or as a list of lines; blanks
  around a line and empty lines are dropped.
-/

namespace Marionette

/-- Writes a value that may be absent. -/
def Json.ofOption {α : Type} (f : α → Json) : Option α → Json
  | none => .null
  | some a => f a

/-- Reads lines of commands. -/
def commandLines : Decoder (List String) := fun j => do
  let raw ← match j with
    | .str s => pure (Text.lines s)
    | other => Decoder.list Decoder.text other
  return (raw.map Text.trim).filter (!·.isEmpty)

/-- Reads a loop mode by its name. -/
def LoopMode.decode : Decoder LoopMode :=
  Decoder.choice [("loop", .loop), ("once", .once), ("hold", .hold)]

/-- Reads an interpolation by its name. -/
def Interpolation.decode : Decoder Interpolation :=
  Decoder.choice [("linear", .linear), ("step", .step), ("catmull_rom", .catmullRom),
    ("bezier", .bezier)]

namespace Handle

/-- Reads a control point. -/
def decode : Decoder Handle := Decoder.record ["x", "y"] 2 fun j => do
  return ⟨← Json.field j "x" Decoder.double, ← Json.field j "y" Decoder.double⟩

/-- Writes a control point. -/
def encode (h : Handle) : Json :=
  .obj [("x", .float h.x), ("y", .float h.y)]

end Handle

namespace Transitions

/-- Reads the control points of a key. -/
def decode : Decoder Transitions := Decoder.record ["in", "out"] 0 fun j => do
  return ⟨← Json.field? j "in" Handle.decode, ← Json.field? j "out" Handle.decode⟩

/-- Writes the control points of a key. -/
def encode (t : Transitions) : Json :=
  .obj [("in", .ofOption Handle.encode t.arrival), ("out", .ofOption Handle.encode t.departure)]

end Transitions

namespace TransformKey

/-- Reads a key of a position, rotation or scale. -/
def decode : Decoder TransformKey :=
  Decoder.record ["time", "value", "interpolation", "transitions"] 2 fun j => do
  return {
    time := ← Json.field j "time" Decoder.double
    value := ← Json.field j "value" Vec3.decode
    interpolation := ← Json.fieldOr j "interpolation" Interpolation.decode .linear
    transitions := ← Json.field? j "transitions" Transitions.decode }

/-- Writes a key of a position, rotation or scale. -/
def encode (k : TransformKey) : Json :=
  .obj [("time", .float k.time), ("value", k.value.encode),
    ("interpolation", .str k.interpolation.name),
    ("transitions", .ofOption Transitions.encode k.transitions)]

end TransformKey

/-- Writes a list of texts. -/
def Json.ofTexts (texts : List String) : Json :=
  .arr (texts.map .str)

namespace LocatorKey

/-- Reads a key of a locator. -/
def decode : Decoder LocatorKey :=
  Decoder.record ["time", "commands", "execute_condition", "repeat",
    "repeat_frequency"] 2 fun j => do
  return {
    time := ← Json.field j "time" Decoder.double
    commands := ← Json.field j "commands" commandLines
    condition := ← Json.field? j "execute_condition" Decoder.text
    repeats := ← Json.fieldOr j "repeat" Decoder.bool false
    repeatFrequency := ← Json.fieldOr j "repeat_frequency" Decoder.nat32 1 }

/-- Writes a key of a locator. -/
def encode (k : LocatorKey) : Json :=
  .obj [("time", .float k.time), ("commands", .ofTexts k.commands),
    ("execute_condition", .ofOption .str k.condition), ("repeat", .bool k.repeats),
    ("repeat_frequency", .int k.repeatFrequency)]

end LocatorKey

namespace VariantKey

/-- Reads a switch of variants. -/
def decode : Decoder VariantKey :=
  Decoder.record ["time", "variants", "execute_condition"] 2 fun j => do
  return {
    time := ← Json.field j "time" Decoder.double
    variants := ← Json.field j "variants" (Decoder.list Uuid.decode)
    condition := ← Json.field? j "execute_condition" Decoder.text }

/-- Writes a switch of variants. -/
def encode (k : VariantKey) : Json :=
  .obj [("time", .float k.time), ("variants", .ofTexts (k.variants.map Uuid.text)),
    ("execute_condition", .ofOption .str k.condition)]

end VariantKey

namespace CommandKey

/-- Reads a key of root commands. -/
def decode : Decoder CommandKey :=
  Decoder.record ["time", "commands", "execute_condition"] 2 fun j => do
  return {
    time := ← Json.field j "time" Decoder.double
    commands := ← Json.field j "commands" commandLines
    condition := ← Json.field? j "execute_condition" Decoder.text }

/-- Writes a key of root commands. -/
def encode (k : CommandKey) : Json :=
  .obj [("time", .float k.time), ("commands", .ofTexts k.commands),
    ("execute_condition", .ofOption .str k.condition)]

end CommandKey

namespace Animator

/-- Reads the keys of a node. -/
def decode : Decoder Animator :=
  Decoder.record ["node", "position", "rotation", "scale", "commands"] 1 fun j => do
  return {
    node := ← Json.field j "node" Uuid.decode
    position := ← Json.fieldOr j "position" (Decoder.list TransformKey.decode) []
    rotation := ← Json.fieldOr j "rotation" (Decoder.list TransformKey.decode) []
    scale := ← Json.fieldOr j "scale" (Decoder.list TransformKey.decode) []
    commands := ← Json.fieldOr j "commands" (Decoder.list LocatorKey.decode) [] }

/-- Writes the keys of a node. -/
def encode (a : Animator) : Json :=
  .obj [("node", .str a.node.text), ("position", .arr (a.position.map TransformKey.encode)),
    ("rotation", .arr (a.rotation.map TransformKey.encode)),
    ("scale", .arr (a.scale.map TransformKey.encode)),
    ("commands", .arr (a.commands.map LocatorKey.encode))]

end Animator

namespace Animation

/-- Reads an animation. -/
def decode : Decoder Animation :=
  Decoder.record ["name", "length", "loop_mode", "loop_delay", "animators", "variant_keys",
    "command_keys"] 2 fun j => do
  return {
    name := ← Json.field j "name" Decoder.text
    length := ← Json.field j "length" Decoder.double
    loopMode := ← Json.fieldOr j "loop_mode" LoopMode.decode .once
    loopDelay := ← Json.fieldOr j "loop_delay" Decoder.double 0
    animators := ← Json.fieldOr j "animators" (Decoder.list Animator.decode) []
    variantKeys := ← Json.fieldOr j "variant_keys" (Decoder.list VariantKey.decode) []
    commandKeys := ← Json.fieldOr j "command_keys" (Decoder.list CommandKey.decode) [] }

/-- Writes an animation. -/
def encode (a : Animation) : Json :=
  .obj [("name", .str a.name), ("length", .float a.length), ("loop_mode", .str a.loopMode.name),
    ("loop_delay", .float a.loopDelay), ("animators", .arr (a.animators.map Animator.encode)),
    ("variant_keys", .arr (a.variantKeys.map VariantKey.encode)),
    ("command_keys", .arr (a.commandKeys.map CommandKey.encode))]

end Animation

end Marionette
