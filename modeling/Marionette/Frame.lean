import Marionette.Bisection
import Marionette.Pose

/-!
# Frames

A frame holds what changes at one tick.  An animation is compiled to the list of its frames.

- `Frame`, `NodeEntry`: what changes at a tick, and for a single node.
- `LocatorEffect`, `VariantEffect`, `CommandEffect`: what happens beside the poses.
- `Frame.merge`: the union of two frames of one tick; of two entries the one that sorts last wins.
- `Clip`: the compiled form of an animation.
- `Clip.frameAt?`: the frame of a tick; `Clip.searchFrame?` looks it up by halving the list.
-/

namespace Marionette

/-- Commands that a locator runs at a frame. -/
structure LocatorEffect where
  /-- Lines of commands. -/
  commands : List String
  /-- Condition in front of every command. -/
  condition : Option String := none
  /-- The key asked for repetition. -/
  repeats : Bool := false
  /-- Ticks between two runs. -/
  repeatFrequency : Nat := 1
deriving DecidableEq, Repr, Ord

/-- Variants that are shown from a frame on. -/
structure VariantEffect where
  /-- Variants, applied in order. -/
  variants : List Uuid
  /-- Condition in front of the commands. -/
  condition : Option String := none
deriving DecidableEq, Repr, Ord

/-- Commands that the root runs at a frame. -/
structure CommandEffect where
  /-- Lines of commands. -/
  commands : List String
  /-- Condition in front of every command. -/
  condition : Option String := none
deriving DecidableEq, Repr, Ord

/-- What changes for a node. -/
structure NodeEntry where
  /-- New pose. -/
  pose : Pose
  /-- Commands of a locator. -/
  effect : Option LocatorEffect := none

/-- Place of a double in the order that tells all bit patterns apart: negative before positive, and
minus zero just before zero. -/
def totalKey (x : Float) : Int :=
  let bits := x.toBits.toNat
  if bits < 9223372036854775808 then bits else -1 - (bits - 9223372036854775808 : Nat)

/-- Compares lists of doubles, the first difference deciding. -/
def compareDoubles (a b : List Float) : Ordering :=
  compare (a.map totalKey) (b.map totalKey)

/-- The order that picks between two entries of one node at one tick. -/
def NodeEntry.compare (a b : NodeEntry) : Ordering :=
  (compareDoubles a.pose.matrix.toList b.pose.matrix.toList).then
    ((compareDoubles [a.pose.pitch, a.pose.yaw] [b.pose.pitch, b.pose.yaw]).then
      ((Ord.compare a.pose.marker b.pose.marker).then (Ord.compare a.effect b.effect)))

/-- What changes at a tick. -/
structure Frame where
  /-- The tick. -/
  tick : Nat
  /-- Entries of nodes, each node once. -/
  nodes : List (Uuid × NodeEntry) := []
  /-- Variants that are shown from now on. -/
  variant : Option VariantEffect := none
  /-- Commands of the root. -/
  commands : Option CommandEffect := none
deriving Inhabited

namespace Frame

/-- Nothing changes. -/
def isEmpty (f : Frame) : Bool :=
  f.nodes.isEmpty && f.variant.isNone && f.commands.isNone

/-- More than poses changes. -/
def hasSideEffects (f : Frame) : Bool :=
  f.variant.isSome || f.commands.isSome || f.nodes.any fun n => n.2.effect.isSome

/-- Adds an entry: a new node comes last, and of two entries of a node the later in order wins. -/
def mergeEntry (nodes : List (Uuid × NodeEntry)) (entry : Uuid × NodeEntry) :
    List (Uuid × NodeEntry) :=
  match nodes with
  | [] => [entry]
  | (uuid, old) :: rest =>
    if uuid = entry.1 then
      (uuid, if entry.2.compare old = .gt then entry.2 else old) :: rest
    else (uuid, old) :: mergeEntry rest entry

/-- The larger of two values, where nothing is smaller than anything. -/
def later {α : Type} [Ord α] (a b : Option α) : Option α :=
  if compare b a = .lt then a else b

/-- Union of two frames of one tick.  The entries are put in the order of their nodes. -/
def merge (a b : Frame) : Frame where
  tick := a.tick
  nodes := (b.nodes.foldl mergeEntry a.nodes).mergeSort
    fun x y => x.1.bits.toNat ≤ y.1.bits.toNat
  variant := later a.variant b.variant
  commands := later a.commands b.commands

end Frame

/-- The compiled form of an animation. -/
structure Clip where
  /-- Name as the author wrote it. -/
  name : String
  /-- Name in function paths. -/
  pathName : String
  /-- Name in objectives and tags. -/
  storageName : String
  /-- Length in ticks. -/
  duration : Nat
  /-- What happens at the end. -/
  loopMode : LoopMode
  /-- Ticks to wait before a looping animation starts again. -/
  loopDelay : Nat
  /-- Nodes that the animation moves, in the order of the rig. -/
  modifiedNodes : List Uuid
  /-- What changes, in the order of the ticks. -/
  frames : List Frame
deriving Inhabited

/-- The frame of a tick. -/
def Clip.frameAt? (c : Clip) (tick : Nat) : Option Frame :=
  c.frames.find? fun f => f.tick = tick

/-- The frame of a tick, looked up in frames that are in the order of their ticks. -/
def Clip.searchFrame? (c : Clip) (tick : Nat) : Option Frame :=
  let place :=
    Bisection.narrow (fun i => (c.frames[i]?).any fun f => f.tick ≤ tick) c.frames.length 0
  (c.frames[place]?).filter fun f => f.tick = tick

end Marionette
