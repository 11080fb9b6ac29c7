import Marionette.Animation.Document
import Marionette.Frame

/-!
# Frames in documents

- `Frame.decode`, `Clip.decode`: read frames and compiled animations.
- `LocatorEffect.encode`, `VariantEffect.encode`, `CommandEffect.encode`: write what happens beside
  the poses.
-/

namespace Marionette

namespace LocatorEffect

/-- Reads the commands of a locator. -/
def decode : Decoder LocatorEffect :=
  Decoder.record ["commands", "execute_condition", "repeat", "repeat_frequency"] 1 fun j => do
  return {
    commands := ← Json.field j "commands" (Decoder.list Decoder.text)
    condition := ← Json.field? j "execute_condition" Decoder.text
    repeats := ← Json.fieldOr j "repeat" Decoder.bool false
    repeatFrequency := ← Json.fieldOr j "repeat_frequency" Decoder.nat32 1 }

/-- Writes the commands of a locator. -/
def encode (e : LocatorEffect) : Json :=
  .obj [("commands", .ofTexts e.commands), ("execute_condition", .ofOption .str e.condition),
    ("repeat", .bool e.repeats), ("repeat_frequency", .int e.repeatFrequency)]

end LocatorEffect

namespace VariantEffect

/-- Reads a switch of variants. -/
def decode : Decoder VariantEffect := Decoder.record ["variants", "execute_condition"] 1 fun j => do
  return {
    variants := ← Json.field j "variants" (Decoder.list Uuid.decode)
    condition := ← Json.field? j "execute_condition" Decoder.text }

/-- Writes a switch of variants. -/
def encode (e : VariantEffect) : Json :=
  .obj [("variants", .ofTexts (e.variants.map Uuid.text)),
    ("execute_condition", .ofOption .str e.condition)]

end VariantEffect

namespace CommandEffect

/-- Reads the commands of the root. -/
def decode : Decoder CommandEffect := Decoder.record ["commands", "execute_condition"] 1 fun j => do
  return {
    commands := ← Json.field j "commands" (Decoder.list Decoder.text)
    condition := ← Json.field? j "execute_condition" Decoder.text }

/-- Writes the commands of the root. -/
def encode (e : CommandEffect) : Json :=
  .obj [("commands", .ofTexts e.commands), ("execute_condition", .ofOption .str e.condition)]

end CommandEffect

/-- Reads the entry of a node. -/
def NodeEntry.decode : Decoder NodeEntry := Decoder.record ["transform", "effect"] 1 fun j => do
  return {
    pose := ← Json.field j "transform" Pose.decode
    effect := ← Json.field? j "effect" LocatorEffect.decode }

/-- Reads a frame. -/
def Frame.decode : Decoder Frame :=
  Decoder.record ["tick", "nodes", "variant", "commands"] 1 fun j => do
  return {
    tick := ← Json.field j "tick" Decoder.nat32
    nodes := ← Json.fieldOr j "nodes" (Decoder.byUuid NodeEntry.decode) []
    variant := ← Json.field? j "variant" VariantEffect.decode
    commands := ← Json.field? j "commands" CommandEffect.decode }

/-- Reads a compiled animation. -/
def Clip.decode : Decoder Clip :=
  Decoder.record ["name", "path_name", "storage_name", "duration", "loop_mode", "loop_delay",
    "modified_nodes", "frames"] 8 fun j => do
  return {
    name := ← Json.field j "name" Decoder.text
    pathName := ← Json.field j "path_name" Decoder.text
    storageName := ← Json.field j "storage_name" Decoder.text
    duration := ← Json.field j "duration" Decoder.nat32
    loopMode := ← Json.field j "loop_mode" LoopMode.decode
    loopDelay := ← Json.field j "loop_delay" Decoder.nat32
    modifiedNodes := (← Json.field j "modified_nodes" (Decoder.list Uuid.decode)).eraseDups
    frames := ← Json.field j "frames" (Decoder.list Frame.decode) }

end Marionette
