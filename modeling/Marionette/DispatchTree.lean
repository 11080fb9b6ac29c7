import Marionette.Frame

/-!
# Dispatch trees

The target can only ask whether a score lies within a range, so a frame is found by a chain of such
questions.  Splitting at the middle frame keeps the chain short.

- `DispatchNode`: a leaf with a frame, or a branch with the range of ticks below it.
- `DispatchTree`: the tree of an animation; `DispatchTree.build` makes it from frames in any order.
- `find?`: the leaf of exactly a tick; `route?`: the latest leaf at or before a tick.
- Nodes are numbered in the order in which they are finished, children before their parent;
  `entries` lists them.
-/

namespace Marionette

/-- A node of a dispatch tree. -/
inductive DispatchNode where
  /-- A frame. -/
  | leaf (frame : Frame)
  /-- The ticks `lo` to `hi`, served by two nodes. -/
  | branch (lo hi : Nat) (left right : DispatchNode)
deriving Inhabited

namespace DispatchNode

/-- First tick of a node. -/
def lo : DispatchNode → Nat
  | leaf frame => frame.tick
  | branch lo _ _ _ => lo

/-- Last tick of a node. -/
def hi : DispatchNode → Nat
  | leaf frame => frame.tick
  | branch _ hi _ _ => hi

/-- The number of nodes. -/
def size : DispatchNode → Nat
  | leaf _ => 1
  | branch _ _ left right => left.size + right.size + 1

/-- The number of nodes on the longest way down. -/
def depth : DispatchNode → Nat
  | leaf _ => 1
  | branch _ _ left right => 1 + max left.depth right.depth

/-- A tree over frames in the order of their ticks.  The middle frame opens the right half. -/
def ofFrames? : List Frame → Option DispatchNode
  | [] => none
  | [frame] => some (leaf frame)
  | a :: b :: rest =>
    let frames := a :: b :: rest
    let half := frames.length / 2
    match ofFrames? (frames.take half), ofFrames? (frames.drop half) with
    | some left, some right => some (branch left.lo right.hi left right)
    | some only, none | none, some only => some only
    | none, none => none
termination_by frames => frames.length
decreasing_by
  all_goals simp only [List.length_take, List.length_drop, List.length_cons]
  all_goals omega

/-- The frames of the leaves, from left to right. -/
def frames : DispatchNode → List Frame
  | leaf frame => [frame]
  | branch _ _ left right => left.frames ++ right.frames

/-- The frame of exactly a tick, reached through the ranges of the branches. -/
def findFrame? (tick : Nat) : DispatchNode → Option Frame
  | leaf frame => if frame.tick = tick then some frame else none
  | branch _ _ left right =>
    if left.lo ≤ tick ∧ tick ≤ left.hi then left.findFrame? tick
    else if right.lo ≤ tick ∧ tick ≤ right.hi then right.findFrame? tick
    else none

/-- The latest frame at or before a tick. -/
def routeFrame? (tick : Nat) : DispatchNode → Option Frame
  | leaf frame => if frame.tick ≤ tick then some frame else none
  | branch _ _ left right =>
    -- ticks between the two children belong to the left one
    if right.lo ≤ tick then right.routeFrame? tick
    else if left.lo ≤ tick then left.routeFrame? tick
    else none

/-- The number of a leaf of exactly a tick, in a tree whose nodes are numbered from `start` on. -/
def find? (tick start : Nat) : DispatchNode → Option Nat
  | leaf frame => if frame.tick = tick then some start else none
  | branch _ _ left right =>
    if left.lo ≤ tick ∧ tick ≤ left.hi then left.find? tick start
    else if right.lo ≤ tick ∧ tick ≤ right.hi then right.find? tick (start + left.size)
    else none

/-- The number of the latest leaf at or before a tick. -/
def route? (tick start : Nat) : DispatchNode → Option Nat
  | leaf frame => if frame.tick ≤ tick then some start else none
  | branch _ _ left right =>
    -- as above, with the numbers of the nodes on the left skipped
    if right.lo ≤ tick then right.route? tick (start + left.size)
    else if left.lo ≤ tick then left.route? tick start
    else none

/-- The numbers of the leaves, from left to right. -/
def leafIds (start : Nat) : DispatchNode → List Nat
  | leaf _ => [start]
  | branch _ _ left right => left.leafIds start ++ right.leafIds (start + left.size)

/-- Number of the last node, which is the root, in a tree whose nodes are numbered from `start`. -/
def rootId (start : Nat) (n : DispatchNode) : Nat :=
  start + n.size - 1

/-- A node as a list of all nodes shows it. -/
inductive Entry where
  /-- A frame. -/
  | leaf (frame : Frame)
  /-- A range of ticks and the numbers of the nodes that serve it. -/
  | branch (lo hi : Nat) (children : List Nat)
deriving Inhabited

/-- The numbers of the nodes right below a node. -/
def childIds (start : Nat) : DispatchNode → List Nat
  | leaf _ => []
  | branch _ _ left right => [left.rootId start, right.rootId (start + left.size)]

/-- All nodes in the order of their numbers. -/
def entries (start : Nat) : DispatchNode → List Entry
  | leaf frame => [.leaf frame]
  | branch lo hi left right =>
    left.entries start ++ right.entries (start + left.size) ++
      [.branch lo hi ((branch lo hi left right).childIds start)]

/-- The node of a number, and the number that the nodes below it start from. -/
def node? (id start : Nat) : DispatchNode → Option (DispatchNode × Nat)
  | leaf frame => if id = start then some (leaf frame, start) else none
  | branch lo hi left right =>
    if id = (branch lo hi left right).rootId start then some (branch lo hi left right, start)
    else if id < start + left.size then left.node? id start
    else right.node? id (start + left.size)

/-- The nodes right below a node, with a range of ticks for each: under seeking, a node serves every
tick from its first frame up to the tick before the next node, and the last one up to `upper`. -/
def floorRanges (upper : Nat) : DispatchNode → List (DispatchNode × Nat × Nat)
  | leaf _ => []
  | branch _ _ left right => [(left, left.lo, right.lo - 1), (right, right.lo, upper)]

end DispatchNode

/-- The dispatch tree of an animation. -/
structure DispatchTree where
  /-- The topmost node, if there are frames. -/
  root : Option DispatchNode
  /-- Length of the animation in ticks. -/
  duration : Nat
deriving Inhabited

namespace DispatchTree

/-- Merges neighbouring frames of one tick into the frame before them; the latest is at the front of
`done`. -/
def mergeTicks : List Frame → List Frame → List Frame
  | done, [] => done.reverse
  | last :: done, frame :: rest =>
    if last.tick = frame.tick then mergeTicks (last.merge frame :: done) rest
    else mergeTicks (frame :: last :: done) rest
  | [], frame :: rest => mergeTicks [frame] rest

/-- One frame for each tick below the duration, in the order of the ticks. -/
def distinctFrames (frames : List Frame) (duration : Nat) : List Frame :=
  mergeTicks [] ((frames.filter (·.tick < duration)).mergeSort fun a b => a.tick ≤ b.tick)

/-- The tree of the frames below the duration. -/
def build (frames : List Frame) (duration : Nat) : DispatchTree :=
  ⟨DispatchNode.ofFrames? (distinctFrames frames duration), duration⟩

/-- There are no frames. -/
def isEmpty (t : DispatchTree) : Bool := t.root.isNone

/-- The number of nodes. -/
def size (t : DispatchTree) : Nat := (t.root.map DispatchNode.size).getD 0

/-- The number of nodes on the longest way down. -/
def depth (t : DispatchTree) : Nat := (t.root.map DispatchNode.depth).getD 0

/-- The number of the topmost node. -/
def rootId? (t : DispatchTree) : Option Nat := t.root.map (DispatchNode.rootId 0)

/-- All nodes in the order of their numbers. -/
def entries (t : DispatchTree) : List DispatchNode.Entry :=
  (t.root.map (DispatchNode.entries 0)).getD []

/-- The frames of the leaves, in the order of their ticks. -/
def frames (t : DispatchTree) : List Frame := (t.root.map DispatchNode.frames).getD []

/-- The numbers of the leaves, in the order of their ticks. -/
def leafIds (t : DispatchTree) : List Nat := (t.root.map (DispatchNode.leafIds 0)).getD []

/-- The number of the leaf of exactly a tick. -/
def find? (t : DispatchTree) (tick : Nat) : Option Nat := t.root.bind (DispatchNode.find? tick 0)

/-- The number of the latest leaf at or before a tick; outside the animation there is none. -/
def route? (t : DispatchTree) (tick : Nat) : Option Nat :=
  if t.duration ≤ tick then none else t.root.bind (DispatchNode.route? tick 0)

/-- The frame of exactly a tick. -/
def findFrame? (t : DispatchTree) (tick : Nat) : Option Frame :=
  t.root.bind (DispatchNode.findFrame? tick)

/-- The latest frame at or before a tick; outside the animation there is none. -/
def routeFrame? (t : DispatchTree) (tick : Nat) : Option Frame :=
  if t.duration ≤ tick then none else t.root.bind (DispatchNode.routeFrame? tick)

/-- The numbers of the nodes right below a node, with the range of ticks that each serves under
seeking; nothing if there is no node of that number. -/
def floorRanges? (t : DispatchTree) (id upper : Nat) : Option (List (Nat × Nat × Nat)) := do
  let (node, start) ← (← t.root).node? id 0
  return (node.childIds start).zip ((node.floorRanges upper).map (·.2))

end DispatchTree

end Marionette
