import Marionette.Geometry.Vec3
import Marionette.Rounding
import Marionette.Uuid

/-!
# Authored animations

An animation holds keys of single nodes and keys of the whole rig.  Times are in seconds.  The keys
of a channel are sorted by time; two keys of one time are a jump, the first one holding the value
before it.

- `Animation`: name, length, what happens at the end, and all keys.
- `Animator`: the keys of one node; `TransformKey`, `LocatorKey`: its keys.
- `VariantKey`, `CommandKey`: keys of the whole rig.
- `secondsToTick`: the tick nearest to a time.
-/

namespace Marionette

/-- Ticks of one second. -/
def ticksPerSecond : Nat := 20

/-- Length of a tick in seconds. -/
def tickSeconds : Float := 1.0 / 20.0

/-- What happens when the local time reaches the end of an animation. -/
inductive LoopMode where
  /-- Starts again after the loop delay. -/
  | loop
  /-- Stops and goes back to the first frame. -/
  | once
  /-- Stays on the last frame. -/
  | hold
deriving DecidableEq, Repr, Inhabited

namespace LoopMode

/-- The score that stands for the mode. -/
def score : LoopMode → Int32
  | loop => 0
  | once => 1
  | hold => 2

/-- The name of the mode. -/
def name : LoopMode → String
  | loop => "loop"
  | once => "once"
  | hold => "hold"

end LoopMode

/-- How the segment that leaves a key is filled. -/
inductive Interpolation where
  /-- In a straight line. -/
  | linear
  /-- With the left value until the right key is reached. -/
  | step
  /-- By a Catmull-Rom curve through the neighbouring keys. -/
  | catmullRom
  /-- In a straight line, timed by a cubic Bézier curve. -/
  | bezier
deriving DecidableEq, Repr, Inhabited

/-- The name of an interpolation. -/
def Interpolation.name : Interpolation → String
  | .linear => "linear"
  | .step => "step"
  | .catmullRom => "catmull_rom"
  | .bezier => "bezier"

/-- A control point in the unit square of a segment. -/
structure Handle where
  /-- Share of the time. -/
  x : Float
  /-- Share of the way. -/
  y : Float
deriving Repr, Inhabited

/-- The control points of a key: one shapes the arrival and one the departure. -/
structure Transitions where
  /-- Shapes the segment that ends at the key. -/
  arrival : Option Handle
  /-- Shapes the segment that starts at the key. -/
  departure : Option Handle
deriving Repr, Inhabited

/-- A key of a position, of three angles in degrees, or of three scale factors. -/
structure TransformKey where
  /-- Time in seconds. -/
  time : Float
  /-- Value at that time. -/
  value : Vec3
  /-- How the segment after the key is filled. -/
  interpolation : Interpolation := .linear
  /-- Control points, if any. -/
  transitions : Option Transitions := none
deriving Repr, Inhabited

/-- Commands run by a locator when the key is reached. -/
structure LocatorKey where
  /-- Time in seconds. -/
  time : Float
  /-- Lines of commands. -/
  commands : List String
  /-- Condition in front of every command, in the language of the target. -/
  condition : Option String
  /-- The commands are run again until the next key. -/
  repeats : Bool
  /-- Ticks between two runs. -/
  repeatFrequency : Nat
deriving Repr, Inhabited

/-- Keys of one node. -/
structure Animator where
  /-- The node. -/
  node : Uuid
  /-- Keys of the position. -/
  position : List TransformKey := []
  /-- Keys of the rotation. -/
  rotation : List TransformKey := []
  /-- Keys of the scale. -/
  scale : List TransformKey := []
  /-- Keys of commands; only locators have them. -/
  commands : List LocatorKey := []
deriving Repr, Inhabited

/-- No channel has a key. -/
def Animator.isEmpty (a : Animator) : Bool :=
  a.position.isEmpty && a.rotation.isEmpty && a.scale.isEmpty && a.commands.isEmpty

/-- Shows one or more variants. -/
structure VariantKey where
  /-- Time in seconds. -/
  time : Float
  /-- Variants, applied in order. -/
  variants : List Uuid
  /-- Condition in front of the commands, in the language of the target. -/
  condition : Option String
deriving Repr, Inhabited

/-- Commands run by the root of the rig. -/
structure CommandKey where
  /-- Time in seconds. -/
  time : Float
  /-- Lines of commands. -/
  commands : List String
  /-- Condition in front of every command, in the language of the target. -/
  condition : Option String
deriving Repr, Inhabited

/-- An authored animation. -/
structure Animation where
  /-- Name as the author wrote it. -/
  name : String
  /-- Length in seconds. -/
  length : Float
  /-- What happens at the end. -/
  loopMode : LoopMode := .once
  /-- Pause in seconds before a looping animation starts again. -/
  loopDelay : Float := 0
  /-- Keys of single nodes. -/
  animators : List Animator := []
  /-- Switches of variants. -/
  variantKeys : List VariantKey := []
  /-- Commands of the root. -/
  commandKeys : List CommandKey := []
deriving Repr, Inhabited

/-- The tick nearest to a time in seconds, a half going away from zero.  Ticks are counted in 64
bits: a time beyond them gives the last tick of that side, and a time that is no number gives
zero. -/
def secondsToTick (seconds : Float) : Int :=
  nearestInt (seconds * 20.0)

/-- The ticks of a length, kept to 32 bits; a negative length has none. -/
def lengthTicks (seconds : Float) : Nat :=
  (secondsToTick seconds).toNat % 4294967296

namespace Animation

/-- Length in ticks. -/
def duration (a : Animation) : Nat := lengthTicks a.length

/-- Loop delay in ticks. -/
def loopDelayTicks (a : Animation) : Nat := lengthTicks a.loopDelay

end Animation

end Marionette
