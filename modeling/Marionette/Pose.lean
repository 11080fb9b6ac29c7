import Marionette.Animation.Channel
import Marionette.Geometry.Rotation
import Marionette.Rig.Basic

/-!
# Poses

- `Marker`: whether a node blends into a pose or jumps to it.
- `Pose`: the transform of a node at a tick, relative to the root, in all the forms that are needed.
- `composeLocal`: the matrix of a node relative to its parent.
- `Pose.ofMatrix?`: takes a matrix apart; a matrix that is not finite has no pose.
-/

namespace Marionette

/-- How a node arrives at a pose. -/
inductive Marker where
  /-- It blends over the configured duration. -/
  | none
  /-- It was held by a step and changes at once. -/
  | step
  /-- It jumps between two keys of one time. -/
  | jump
deriving DecidableEq, Repr, Inhabited, Ord

namespace Marker

/-- The pose is taken at once. -/
def isInstant : Marker → Bool
  | none => false
  | _ => true

/-- The name of a marker. -/
def name : Marker → String
  | none => "none"
  | step => "step"
  | jump => "pre_post"

/-- The stronger of two markers. -/
def max : Marker → Marker → Marker
  | jump, _ | _, jump => jump
  | step, _ | _, step => step
  | none, none => none

/-- Reads a marker by its name. -/
def decode : Decoder Marker :=
  Decoder.choice [("none", .none), ("step", .step), ("pre_post", .jump)]

end Marker

/-- The transform of a node at a tick, relative to the root of the rig. -/
structure Pose where
  /-- The matrix, rounded. -/
  matrix : Mat4
  /-- The offset, rounded. -/
  offset : Vec3
  /-- The rotation. -/
  rotation : Quaternion
  /-- The scale factors, rounded. -/
  scale : Vec3
  /-- Pitch in degrees, rounded. -/
  pitch : Float
  /-- Yaw in degrees, rounded. -/
  yaw : Float
  /-- How the node arrives at it. -/
  marker : Marker := .none
deriving Inhabited

/-- A number rounded to the grid `1 / scale`, a half going away from zero; never minus zero. -/
def roundTo (scale v : Float) : Float :=
  let r := nearest (v * scale) / scale
  if r == 0 then 0 else r

/-- The matrix of a node relative to its parent: the offset of its pivot from that of the parent,
then the rotation at rest and the animated one, then both scales. -/
def composeLocal (bind : BindPose) (parentOrigin position rotation scale : Vec3) : Mat4 :=
  let offset := bind.origin - parentOrigin + position
  let turn := (Rotation.ofDegrees bind.rotation).mul (Rotation.ofDegrees rotation)
  let factors := bind.scale.map₂ (· * ·) scale
  ((Mat4.shift offset).mul (Mat4.ofMat3 turn)).mul (Mat4.scaling factors)

namespace Pose

/-- The pose of a node that is not moved at all. -/
def one : Pose := ⟨Mat4.one, .zero, .one, .one, 0, 0, .none⟩

/-- The same matrix, however it is arrived at. -/
def samePose (a b : Pose) : Bool := a.matrix == b.matrix

/-- Scale factors of a linear map: the lengths of its columns, the first one negative if the map
mirrors. -/
def scaleOf (basis : Mat3) : Vec3 :=
  let x := basis.c0.norm
  ⟨if basis.det < 0 then -x else x, basis.c1.norm, basis.c2.norm⟩

/-- Rotation of a linear map with the given scale factors.  A map that flattens an axis has no
direction of its own and counts as not turned. -/
def rotationOf (basis : Mat3) (scale : Vec3) : Quaternion :=
  if scale.toList.any fun s => s.abs < 1e-9 then .one
  else
    let unscaled : Mat3 :=
      ⟨basis.c0.divide scale.x, basis.c1.divide scale.y, basis.c2.divide scale.z⟩
    .ofRotation (Rotation.nearest unscaled)

/-- Takes a matrix apart; `precision` is the number of rounding steps in one. -/
def ofMatrix? (m : Mat4) (marker : Marker) (precision : Float) : Option Pose :=
  if !m.isFinite then none
  else
    let round := roundTo precision
    let scale := scaleOf m.basis
    let rotation := rotationOf m.basis scale
    let forward := rotation.apply ⟨0, 0, 1⟩
    let yaw := degrees ((-forward.x).atan2 forward.z)
    let pitch := degrees (clamp (-forward.y) (-1) 1).asin
    some {
      matrix := m.map round
      offset := m.offset.map round
      rotation := rotation
      scale := scale.map round
      pitch := round pitch
      yaw := round yaw
      marker := marker }

/-- Reads a pose from a document. -/
def decode : Decoder Pose :=
  Decoder.record ["matrix", "translation", "rotation", "scale", "head_rotation",
    "marker"] 5 fun j => do
  let head ← Json.field j "head_rotation" (Decoder.pair Decoder.double Decoder.double)
  return {
    matrix := ← Json.field j "matrix" Mat4.decode
    offset := ← Json.field j "translation" Vec3.decode
    rotation := .ofList (← Json.field j "rotation" (Decoder.fixed 4 Decoder.double))
    scale := ← Json.field j "scale" Vec3.decode
    pitch := head.1
    yaw := head.2
    marker := ← Json.fieldOr j "marker" Marker.decode .none }

end Pose

end Marionette
