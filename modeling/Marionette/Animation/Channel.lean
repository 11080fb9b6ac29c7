import Marionette.Animation.Basic
import Marionette.Bisection

/-!
# Values of a channel

A channel is read at any time.  At a jump it is continuous from the left: at the time of the keys
it has the first value, and at any later time the second.

- `catmullRom`, `bezierEase`: the two curves.
- `Channel.sample`: the value of a sorted channel at a time.
- `Channel.hasJump`, `Channel.hasStepArrival`: what happens within a stretch of time.
-/

namespace Marionette

/-- Uniform Catmull-Rom curve from `b` to `c`; `a` and `d` are the neighbours. -/
def catmullRom (a b c d t : Float) : Float :=
  let t2 := t * t
  let t3 := t2 * t
  0.5 * ((2.0 * b) + (-a + c) * t + (2.0 * a - 5.0 * b + 4.0 * c - d) * t2 +
    (-a + 3.0 * b - 3.0 * c + d) * t3)

/-- Catmull-Rom curve, component by component. -/
def Vec3.catmullRom (a b c d : Vec3) (t : Float) : Vec3 :=
  ⟨Marionette.catmullRom a.x b.x c.x d.x t, Marionette.catmullRom a.y b.y c.y d.y t,
    Marionette.catmullRom a.z b.z c.z d.z t⟩

/-- Cubic Bézier curve of four numbers. -/
def cubicBezier (a b c d t : Float) : Float :=
  let u := 1.0 - t
  u * u * u * a + 3.0 * u * u * t * b + 3.0 * u * t * t * c + t * t * t * d

/-- The parameter at which the curve of times reaches `t`, found by halving the range at most
`fuel` times. -/
def bezierParameter (x1 x2 t : Float) : Nat → Float → Float → Float → Float
  | 0, _, _, mid => mid
  | fuel + 1, lo, hi, mid =>
    let x := cubicBezier 0.0 x1 x2 1.0 mid
    if (x - t).abs < 1e-9 then mid
    else
      let lo' := if x < t then mid else lo
      let hi' := if x < t then hi else mid
      bezierParameter x1 x2 t fuel lo' hi' (0.5 * (lo' + hi'))

/-- A number moved into a range; what is no number stays so. -/
def clamp (x lo hi : Float) : Float :=
  if x < lo then lo else if x > hi then hi else x

/-- Share of the way at a share of the time, for the control points of a timing curve. -/
def bezierEase (t : Float) (departure arrival : Handle) : Float :=
  let t := clamp t 0 1
  if departure.x == 0 && departure.y == 0 && arrival.x == 1 && arrival.y == 1 then t
  else cubicBezier 0.0 departure.y arrival.y 1.0 (bezierParameter departure.x arrival.x t 48 0 1 t)

namespace Channel

/-- Control point of a departure in even time. -/
def evenDeparture : Handle := ⟨0, 0⟩

/-- Control point of an arrival in even time. -/
def evenArrival : Handle := ⟨1, 1⟩

/-- The number of keys before a time, in a sorted channel. -/
def keysBefore (keys : Array TransformKey) (time : Float) : Nat :=
  Bisection.lowerBound (fun i => (keys[i]?).any fun k => k.time < time) keys.size

/-- The value within a segment, at a share `t` of its time.  `before` and `after` are the values of
the keys around it. -/
def blend (left right : TransformKey) (before after : Vec3) (t : Float) : Vec3 :=
  match left.interpolation with
  | .step => if t ≥ 1 then right.value else left.value
  | .linear => left.value.lerp right.value t
  | .catmullRom => before.catmullRom left.value right.value after t
  | .bezier =>
    let departure := (left.transitions.bind (·.departure)).getD evenDeparture
    let arrival := (right.transitions.bind (·.arrival)).getD evenArrival
    left.value.lerp right.value (bezierEase t departure arrival)

/-- The value of a sorted channel at a time, or nothing if it has no keys. -/
def sample (keys : Array TransformKey) (time : Float) : Option Vec3 :=
  let i := keysBefore keys time
  match keys[i]? with
  | none => keys.back?.map (·.value)
  | some right =>
    if i = 0 || right.time == time then some right.value
    else
      match keys[i - 1]? with
      | none => some right.value
      | some left =>
        let span := right.time - left.time
        let t := if span > 0 then (time - left.time) / span else 1
        let before := if i ≥ 2 then ((keys[i - 2]?).getD left).value else left.value
        let after := ((keys[i + 1]?).getD right).value
        some (blend left right before after t)

/-- Neighbouring keys. -/
def neighbours (keys : Array TransformKey) : List (TransformKey × TransformKey) :=
  keys.toList.zip (keys.toList.drop 1)

/-- Two keys share a time after `lo` and not after `hi`. -/
def hasJump (keys : Array TransformKey) (lo hi : Float) : Bool :=
  (neighbours keys).any fun (a, b) => a.time == b.time && a.time > lo && a.time ≤ hi

/-- A key after `lo` and not after `hi` is reached through a step. -/
def hasStepArrival (keys : Array TransformKey) (lo hi : Float) : Bool :=
  (neighbours keys).any fun (a, b) =>
    a.interpolation = .step && a.time < b.time && b.time > lo && b.time ≤ hi

end Channel

end Marionette
