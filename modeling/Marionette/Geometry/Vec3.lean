import Marionette.Json.Decode

/-!
# Vectors of three components

- `Vec3`: three doubles, with sums, products, length and linear blending.
- `Vec3.decode`, `Vec3.encode`: the list form in documents.
-/

namespace Marionette

/-- A point, a direction, three angles or three factors. -/
structure Vec3 where
  /-- First component. -/
  x : Float
  /-- Second component. -/
  y : Float
  /-- Third component. -/
  z : Float
deriving BEq, Repr, Inhabited

/-- From `a` at zero to `b` at one. -/
def lerp (a b t : Float) : Float :=
  a + (b - a) * t

namespace Vec3

/-- All components zero. -/
def zero : Vec3 := ⟨0, 0, 0⟩

/-- All components one. -/
def one : Vec3 := ⟨1, 1, 1⟩

/-- The components in order. -/
def toList (v : Vec3) : List Float := [v.x, v.y, v.z]

/-- The first three numbers of a list. -/
def ofList : List Float → Vec3
  | x :: y :: z :: _ => ⟨x, y, z⟩
  | _ => zero

/-- Applies a function to each component. -/
def map (f : Float → Float) (v : Vec3) : Vec3 := ⟨f v.x, f v.y, f v.z⟩

/-- Applies a function to each pair of components. -/
def map₂ (f : Float → Float → Float) (a b : Vec3) : Vec3 := ⟨f a.x b.x, f a.y b.y, f a.z b.z⟩

instance : Add Vec3 := ⟨map₂ (· + ·)⟩

instance : Sub Vec3 := ⟨map₂ (· - ·)⟩

/-- All components times a factor. -/
def scale (s : Float) (v : Vec3) : Vec3 := v.map (· * s)

/-- All components divided by a number. -/
def divide (v : Vec3) (s : Float) : Vec3 := v.map (· / s)

/-- Sum of the products of the components. -/
def dot (a b : Vec3) : Float := a.x * b.x + a.y * b.y + a.z * b.z

/-- Cross product. -/
def cross (a b : Vec3) : Vec3 :=
  ⟨a.y * b.z - a.z * b.y, a.z * b.x - a.x * b.z, a.x * b.y - a.y * b.x⟩

/-- Square of the length. -/
def normSquared (v : Vec3) : Float := v.dot v

/-- Length. -/
def norm (v : Vec3) : Float := v.normSquared.sqrt

/-- The components moved by one place: the second comes first. -/
def rotated (v : Vec3) : Vec3 := ⟨v.y, v.z, v.x⟩

/-- No component is infinite or not a number. -/
def isFinite (v : Vec3) : Bool := v.toList.all Float.isFinite

/-- From `a` at zero to `b` at one, component by component. -/
def lerp (a b : Vec3) (t : Float) : Vec3 := map₂ (fun p q => Marionette.lerp p q t) a b

/-- Reads a list of three numbers. -/
def decode : Decoder Vec3 := fun j =>
  (Decoder.fixed 3 Decoder.double j).map ofList

/-- Writes a list of three numbers. -/
def encode (v : Vec3) : Json := .arr (v.toList.map .float)

end Vec3

end Marionette
