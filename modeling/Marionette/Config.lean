import Marionette.Animation.Document
import Marionette.Error
import Marionette.Names

/-!
# Settings of a compilation

- `Config`: all settings, with their defaults.
- `Config.check`: refuses settings out of range.
- `Config.precisionScale`: the factor that coordinates are rounded with.
- `Config.decode`, `Config.encode`: the form in documents, where every setting may be left out.
-/

namespace Marionette

/-- The settings of a compilation. -/
structure Config where
  /-- Name space of the functions; without one it is taken from the name of the rig. -/
  namespaceName : Option String := none
  /-- Ticks over which a display entity blends into a new pose. -/
  interpolationDuration : Nat := 1
  /-- Ticks of a tween for which the caller asks no length. -/
  tweenDuration : Nat := 10
  /-- Seconds after a jump at which the settled value is read. -/
  jumpOffset : Float := 0.001
  /-- Decimal places of matrix entries and coordinates. -/
  precision : Nat := 4
  /-- Format number of the pack. -/
  packFormat : Nat := 48
  /-- Description of the pack. -/
  description : String := "Baked rig animations"
  /-- File name of the list of written files. -/
  manifestName : String := "rigbake_manifest.json"
  /-- Entity type of the root of a rig. -/
  rootEntity : String := "minecraft:item_display"
deriving Repr, Inhabited

namespace Config

/-- The jump offset has to lie strictly between zero and half a tick. -/
def checkJumpOffset (c : Config) : Except BakeError Unit :=
  if !c.jumpOffset.isFinite || c.jumpOffset ≤ 0 || c.jumpOffset ≥ tickSeconds / 2 then
    let limit := Decimal.doubleText (tickSeconds / 2)
    let shown := Decimal.doubleText c.jumpOffset
    .error (.invalidConfig s!"pre_post_epsilon must be in (0, {limit}) seconds, got {shown}")
  else .ok ()

/-- A name space has to be a safe name already. -/
def checkNamespace (c : Config) : Except BakeError Unit :=
  match c.namespaceName with
  | none => .ok ()
  | some name =>
    if name.isEmpty || storageSafe name != name then
      .error (.invalidConfig s!"namespace '{name}' must match [a-z0-9_]+")
    else .ok ()

/-- The name of the manifest has to be a bare file name. -/
def checkManifestName (c : Config) : Except BakeError Unit :=
  if c.manifestName.isEmpty || c.manifestName.toList.any fun ch => ch == '/' || ch == '\\' then
    .error (.invalidConfig s!"manifest_name '{c.manifestName}' must be a bare file name")
  else .ok ()

/-- Refuses settings out of range, for the first reason in their order. -/
def check (c : Config) : Except BakeError Unit := do
  c.checkJumpOffset
  if c.precision < 1 ∨ 8 < c.precision then
    .error (.invalidConfig s!"matrix_precision must be between 1 and 8, got {c.precision}")
  if c.tweenDuration = 0 then .error (.invalidConfig "tween_duration must be at least one tick")
  c.checkNamespace
  c.checkManifestName

/-- A power with a natural exponent, by repeated squaring, with at most `fuel` binary digits. -/
def powNat (base : Float) : Nat → Nat → Float → Float
  | 0, _, acc => acc
  | fuel + 1, n, acc =>
    let acc := if n % 2 = 1 then acc * base else acc
    if n / 2 = 0 then acc else powNat (base * base) fuel (n / 2) acc

/-- The factor that coordinates are rounded with: ten to the number of decimal places, which are
read as a signed integer of 32 bits. -/
def precisionScale (c : Config) : Float :=
  match (Int32.ofNat c.precision).toInt with
  | .ofNat n => powNat 10 32 n 1
  | .negSucc n => 1 / powNat 10 32 (n + 1) 1

/-- Reads settings; those that are left out have their default. -/
def decode : Decoder Config :=
  Decoder.record ["namespace", "interpolation_duration", "tween_duration", "pre_post_epsilon",
    "matrix_precision", "pack_format", "description", "manifest_name", "root_entity"] 0 fun j => do
  let d : Config := {}
  return {
    namespaceName := ← Json.field? j "namespace" Decoder.text
    interpolationDuration :=
      ← Json.fieldOr j "interpolation_duration" Decoder.nat32 d.interpolationDuration
    tweenDuration := ← Json.fieldOr j "tween_duration" Decoder.nat32 d.tweenDuration
    jumpOffset := ← Json.fieldOr j "pre_post_epsilon" Decoder.double d.jumpOffset
    precision := ← Json.fieldOr j "matrix_precision" Decoder.nat32 d.precision
    packFormat := ← Json.fieldOr j "pack_format" Decoder.nat32 d.packFormat
    description := ← Json.fieldOr j "description" Decoder.text d.description
    manifestName := ← Json.fieldOr j "manifest_name" Decoder.text d.manifestName
    rootEntity := ← Json.fieldOr j "root_entity" Decoder.text d.rootEntity }

/-- Writes all settings. -/
def encode (c : Config) : Json :=
  .obj [("namespace", .ofOption .str c.namespaceName),
    ("interpolation_duration", .int c.interpolationDuration),
    ("tween_duration", .int c.tweenDuration), ("pre_post_epsilon", .float c.jumpOffset),
    ("matrix_precision", .int c.precision), ("pack_format", .int c.packFormat),
    ("description", .str c.description), ("manifest_name", .str c.manifestName),
    ("root_entity", .str c.rootEntity)]

end Config

end Marionette
