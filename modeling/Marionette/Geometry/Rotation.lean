import Marionette.Geometry.Matrix
import Marionette.Rounding

/-!
# Rotations

- `radians`, `degrees`: the two measures of angles.
- `Rotation.ofEuler`: turns about the first, then the second, then the third axis.
- `Rotation.ofAxisAngle`: a turn about an axis.
- `Rotation.nearest`: the rotation nearest to a matrix, found by turning toward the matrix step by
  step until no turn brings the two closer.
- `Quaternion`: unit quaternions; `Quaternion.ofRotation`, `Quaternion.apply`.
-/

namespace Marionette

/-- Half a turn in radians. -/
def pi : Float := 3.141592653589793

/-- Radians of an angle in degrees. -/
def radians (x : Float) : Float := x * (pi / 180)

/-- Degrees of an angle in radians. -/
def degrees (x : Float) : Float := x * (180 / pi)

namespace Rotation

/-- Turns by three angles in radians, about the first axis first. -/
def ofEuler (angles : Vec3) : Mat3 :=
  let sr := sine angles.x
  let cr := cosine angles.x
  let sp := sine angles.y
  let cp := cosine angles.y
  let sy := sine angles.z
  let cy := cosine angles.z
  Mat3.ofRows
    ⟨cy * cp, cy * sp * sr - sy * cr, cy * sp * cr + sy * sr⟩
    ⟨sy * cp, sy * sp * sr + cy * cr, sy * sp * cr - cy * sr⟩
    ⟨-sp, cp * sr, cp * cr⟩

/-- Turns by three angles in degrees, about the first axis first. -/
def ofDegrees (angles : Vec3) : Mat3 :=
  ofEuler (angles.map radians)

/-- A turn about a unit axis by an angle in radians. -/
def ofAxisAngle (u : Vec3) (angle : Float) : Mat3 :=
  if angle == 0 then Mat3.one
  else
    let s := sine angle
    let c := cosine angle
    let d := 1 - c
    let xx := u.x * u.x
    let yy := u.y * u.y
    let zz := u.z * u.z
    Mat3.ofRows
      ⟨xx + (1 - xx) * c, u.x * u.y * d - u.z * s, u.x * u.z * d + u.y * s⟩
      ⟨u.x * u.y * d + u.z * s, yy + (1 - yy) * c, u.y * u.z * d - u.x * s⟩
      ⟨u.x * u.z * d - u.y * s, u.y * u.z * d + u.x * s, zz + (1 - zz) * c⟩

/-- The distance between one and the next double: steps below it are no progress. -/
def epsilon : Float := 2.220446049250313e-16

/-- The turn that moves a rotation toward a matrix, as an axis whose length is the angle. -/
def correction (target rot : Mat3) : Vec3 :=
  let axis := rot.c0.cross target.c0 + rot.c1.cross target.c1 + rot.c2.cross target.c2
  let agreement := rot.c0.dot target.c0 + rot.c1.dot target.c1 + rot.c2.dot target.c2
  axis.divide (agreement.abs + epsilon)

/-- The number of steps after which the search for a rotation is given up: the largest 64-bit
number, so that only a search without an end reaches it. -/
def stepLimit : Nat := UInt64.size - 1

/-- Turns a rotation a little about an axis, again and again, until its distance from the target
is not `start` any more; gives the turned rotation and its distance. -/
def perturb (target : Mat3) (axis : Vec3) (start : Float) : Nat → Mat3 → Mat3 × Float
  | 0, rot => (rot, target.distanceSquared rot)
  | fuel + 1, rot =>
    let rot := rot.mul (ofAxisAngle axis epsilon.sqrt)
    let distance := target.distanceSquared rot
    -- a distance that is no number ends the turning as well
    if (start - distance).abs ≤ epsilon then perturb target axis start fuel rot
    else (rot, distance)

/-- Steps toward the nearest rotation.  Where no correction is left the rotation is perturbed: if
that brings it no closer it is the nearest one, and otherwise the steps go on from there. -/
def approach (target : Mat3) : Nat → Vec3 → Mat3 → Mat3
  | 0, _, rot => rot
  | fuel + 1, axis, rot =>
    let w := correction target rot
    let size := w.normSquared
    if size > epsilon * epsilon then
      let angle := size.sqrt
      approach target fuel axis ((ofAxisAngle (w.divide angle) angle).mul rot)
    else
      let start := target.distanceSquared rot
      let (perturbed, distance) := perturb target axis start stepLimit rot
      if start < distance then rot else approach target fuel axis.rotated perturbed

/-- The rotation nearest to a matrix. -/
def nearest (target : Mat3) : Mat3 :=
  approach target stepLimit ⟨1, 0, 0⟩ Mat3.one

end Rotation

/-- A quaternion; unit quaternions are rotations. -/
structure Quaternion where
  /-- First imaginary component. -/
  x : Float
  /-- Second imaginary component. -/
  y : Float
  /-- Third imaginary component. -/
  z : Float
  /-- Real component. -/
  w : Float
deriving BEq, Repr, Inhabited

namespace Quaternion

/-- No rotation. -/
def one : Quaternion := ⟨0, 0, 0, 1⟩

/-- The components, the real one last. -/
def toList (q : Quaternion) : List Float := [q.x, q.y, q.z, q.w]

/-- The first four numbers of a list, the real component last. -/
def ofList : List Float → Quaternion
  | x :: y :: z :: w :: _ => ⟨x, y, z, w⟩
  | _ => one

/-- The quaternion of a rotation matrix.  The component that is computed first is the real one if
the trace is positive, and otherwise the one of the largest diagonal entry. -/
def ofRotation (m : Mat3) : Quaternion :=
  let m00 := m.c0.x
  let m11 := m.c1.y
  let m22 := m.c2.z
  let trace := m00 + m11 + m22
  if trace > 0 then
    let d := (trace + 1).sqrt * 2
    ⟨(m.c1.z - m.c2.y) / d, (m.c2.x - m.c0.z) / d, (m.c0.y - m.c1.x) / d, 0.25 * d⟩
  else if m00 > m11 && m00 > m22 then
    let d := (1 + m00 - m11 - m22).sqrt * 2
    ⟨0.25 * d, (m.c1.x + m.c0.y) / d, (m.c2.x + m.c0.z) / d, (m.c1.z - m.c2.y) / d⟩
  else if m11 > m22 then
    let d := (1 + m11 - m00 - m22).sqrt * 2
    ⟨(m.c1.x + m.c0.y) / d, 0.25 * d, (m.c2.y + m.c1.z) / d, (m.c2.x - m.c0.z) / d⟩
  else
    let d := (1 + m22 - m00 - m11).sqrt * 2
    ⟨(m.c2.x + m.c0.z) / d, (m.c2.y + m.c1.z) / d, 0.25 * d, (m.c0.y - m.c1.x) / d⟩

/-- Turns a vector. -/
def apply (q : Quaternion) (v : Vec3) : Vec3 :=
  let u : Vec3 := ⟨q.x, q.y, q.z⟩
  let t := (u.cross v).scale 2
  t.scale q.w + u.cross t + v

end Quaternion

end Marionette
