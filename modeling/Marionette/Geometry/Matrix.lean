import Marionette.Geometry.Vec3

/-!
# Matrices

- `Mat3`: three columns; `Mat3.mul`, `Mat3.det`.
- `Mat4`: sixteen entries, row by row; `Mat4.mul`, `Mat4.shift`, `Mat4.scaling`,
  `Mat4.ofMat3`.
-/

namespace Marionette

/-- A matrix of three columns. -/
structure Mat3 where
  /-- First column. -/
  c0 : Vec3
  /-- Second column. -/
  c1 : Vec3
  /-- Third column. -/
  c2 : Vec3
deriving Repr, Inhabited

namespace Mat3

/-- The identity. -/
def one : Mat3 := ⟨⟨1, 0, 0⟩, ⟨0, 1, 0⟩, ⟨0, 0, 1⟩⟩

/-- The matrix with the given rows. -/
def ofRows (a b c : Vec3) : Mat3 := ⟨⟨a.x, b.x, c.x⟩, ⟨a.y, b.y, c.y⟩, ⟨a.z, b.z, c.z⟩⟩

/-- A matrix times a column; each sum runs from the first term to the last. -/
def mulVec (m : Mat3) (v : Vec3) : Vec3 :=
  ⟨m.c0.x * v.x + m.c1.x * v.y + m.c2.x * v.z,
    m.c0.y * v.x + m.c1.y * v.y + m.c2.y * v.z,
    m.c0.z * v.x + m.c1.z * v.y + m.c2.z * v.z⟩

/-- Product of two matrices. -/
def mul (a b : Mat3) : Mat3 := ⟨a.mulVec b.c0, a.mulVec b.c1, a.mulVec b.c2⟩

/-- Applies a function to each column. -/
def mapColumns (f : Vec3 → Vec3) (m : Mat3) : Mat3 := ⟨f m.c0, f m.c1, f m.c2⟩

/-- Sum of the squares of the entries of a difference. -/
def distanceSquared (a b : Mat3) : Float :=
  (a.c0 - b.c0).normSquared + (a.c1 - b.c1).normSquared + (a.c2 - b.c2).normSquared

/-- Determinant, expanded along the first row. -/
def det (m : Mat3) : Float :=
  let minor1 := m.c1.y * m.c2.z - m.c1.z * m.c2.y
  let minor2 := m.c0.y * m.c2.z - m.c0.z * m.c2.y
  let minor3 := m.c0.y * m.c1.z - m.c0.z * m.c1.y
  m.c0.x * minor1 - m.c1.x * minor2 + m.c2.x * minor3

end Mat3

/-- A matrix of four rows and four columns, row by row. -/
abbrev Mat4 := Vector Float 16

namespace Mat4

/-- The entry of a row and a column. -/
def entry (m : Mat4) (row col : Fin 4) : Float :=
  m[4 * row.val + col.val]

/-- The matrix with the given entries. -/
def ofFn (f : Fin 4 → Fin 4 → Float) : Mat4 :=
  Vector.ofFn fun i => f ⟨i.val / 4, by omega⟩ ⟨i.val % 4, by omega⟩

/-- The identity. -/
def one : Mat4 := ofFn fun r c => if r = c then 1 else 0

/-- Product of two matrices; each sum runs from the first term to the last. -/
def mul (a b : Mat4) : Mat4 :=
  ofFn fun r c =>
    a.entry r 0 * b.entry 0 c + a.entry r 1 * b.entry 1 c + a.entry r 2 * b.entry 2 c +
      a.entry r 3 * b.entry 3 c

/-- Moves by an offset. -/
def shift (v : Vec3) : Mat4 :=
  #v[1, 0, 0, v.x, 0, 1, 0, v.y, 0, 0, 1, v.z, 0, 0, 0, 1]

/-- Scales each axis by a factor. -/
def scaling (v : Vec3) : Mat4 :=
  #v[v.x, 0, 0, 0, 0, v.y, 0, 0, 0, 0, v.z, 0, 0, 0, 0, 1]

/-- A linear map of space. -/
def ofMat3 (m : Mat3) : Mat4 :=
  #v[m.c0.x, m.c1.x, m.c2.x, 0, m.c0.y, m.c1.y, m.c2.y, 0, m.c0.z, m.c1.z, m.c2.z, 0, 0, 0, 0, 1]

/-- The linear part. -/
def basis (m : Mat4) : Mat3 :=
  ⟨⟨m[0], m[4], m[8]⟩, ⟨m[1], m[5], m[9]⟩, ⟨m[2], m[6], m[10]⟩⟩

/-- The offset. -/
def offset (m : Mat4) : Vec3 :=
  ⟨m[3], m[7], m[11]⟩

/-- No entry is infinite or not a number. -/
def isFinite (m : Mat4) : Bool :=
  m.toList.all Float.isFinite

/-- Reads a list of sixteen numbers. -/
def decode : Decoder Mat4 := fun j => do
  let entries ← Decoder.list Decoder.double j
  if h : entries.toArray.size = 16 then return ⟨entries.toArray, h⟩
  else .error (.mismatch "sixteen numbers")

end Mat4

end Marionette
