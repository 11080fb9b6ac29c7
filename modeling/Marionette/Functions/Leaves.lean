import Marionette.DispatchTree
import Marionette.Functions.Basic

/-!
# Functions of the frames

The function of a frame updates the poses of its nodes and then runs what happens beside them,
unless the root is tagged to change poses only.

- `Stage.nodeUpdate`: the update of one node.
- `Stage.effects`: what happens beside the poses, in order: variants, root commands, locators.
- `Stage.leafFunctions`: the functions of all frames.
-/

namespace Marionette

/-- A command of the author without the slashes in front of it. -/
def rawLine (line : String) : Command :=
  .raw (String.ofList (line.toList.dropWhile (· == '/')))

/-- A command under clauses and a condition of the author. -/
def conditioned (clauses : List Clause) (condition : Option String) (run : Command) : Command :=
  match clauses ++ condition.toList.map .raw with
  | [] => run
  | clauses => .execute clauses run

/-- The list that display entities take as their transformation. -/
def transformation (m : Mat4) : Datum :=
  .floats (m.toList.map toSingle)

/-- The entry of a node in a frame. -/
def Frame.entry? (f : Frame) (uuid : Uuid) : Option NodeEntry :=
  (f.nodes.find? fun n => n.1 == uuid).map (·.2)

/-- What happens beside the poses: a command, and whether the author set a condition. -/
structure Effect where
  /-- The command. -/
  command : Command
  /-- The author set a condition. -/
  isConditioned : Bool

namespace Stage

variable (s : Stage)

/-- Holds while the root is not tagged to change poses only. -/
def unlessSuppressed : Clause :=
  .unlessEntity (Selector.this.tagged s.names.suppressTag)

/-- Data of a matrix node at a pose.  A pose that is taken at once turns interpolation off, and the
entry after such a pose turns it on again. -/
def poseData (pose : Pose) (restore : Bool) : Compound :=
  let duration : Compound :=
    if pose.marker.isInstant then [("interpolation_duration", .int 0)]
    else if restore then [("interpolation_duration", .int s.defaultInterp)]
    else []
  [("transformation", transformation pose.matrix), ("start_interpolation", .int (-1))] ++ duration

/-- The update of a node, run as the root; a node without an entity has none. -/
def nodeUpdate (slot : Slot) (pose : Pose) (restore : Bool) : Option Command :=
  let kind := slot.node.kind
  if kind.isMatrix then
    some (.execute (s.onNode slot.storageName) (.dataMerge .this (s.poseData pose restore)))
  else if kind.hasEntity then
    some (.execute ([.atEach .this] ++ s.onNode slot.storageName)
      (.teleport .this pose.offset pose.yaw pose.pitch))
  else none

/-- Where the commands of a locator run: at its entity, or else at its place beside the root. -/
def locatorClauses (slot : Slot) (pose : Pose) : List Clause :=
  match slot.node.kind with
  | .locator true => s.onNode slot.storageName ++ [.atEach .this]
  | _ => [.atEach .this, .positionedLocal pose.offset, .rotatedRelative pose.yaw pose.pitch]

/-- The variants that a frame shows. -/
def variantEffects (frame : Frame) : List Effect :=
  match frame.variant with
  | none => []
  | some effect => (effect.variants.filterMap s.rig.variant?).map fun v =>
    ⟨conditioned [] effect.condition (.function (s.variantApply v.2)), effect.condition.isSome⟩

/-- Commands of the author under clauses and a condition. -/
def lineEffects (clauses : List Clause) (condition : Option String) (lines : List String) :
    List Effect :=
  lines.map fun line => ⟨conditioned clauses condition (rawLine line), condition.isSome⟩

/-- The commands that the root runs at a frame. -/
def rootEffects (frame : Frame) : List Effect :=
  match frame.commands with
  | none => []
  | some effect => lineEffects [] effect.condition effect.commands

/-- The commands that a node runs at a frame. -/
def nodeEffects (frame : Frame) (slot : Slot) : List Effect :=
  match frame.entry? slot.node.uuid with
  | some ⟨pose, some effect⟩ =>
    lineEffects (s.locatorClauses slot pose) effect.condition effect.commands
  | _ => []

/-- What happens at a frame beside the poses, in order. -/
def effects (frame : Frame) : List Effect :=
  s.variantEffects frame ++ rootEffects frame ++ s.rig.slots.toList.flatMap (s.nodeEffects frame)

/-- A single command behind the guard against suppression. -/
def guardedEffect : Command → Command
  | .execute clauses run => .execute (s.unlessSuppressed :: clauses) run
  | command => .execute [s.unlessSuppressed] command

/-- The call of what happens beside the poses, and the function for it if it needs one.  A single
command without a condition needs none. -/
def effectCall (paths : ClipPaths) (frame : Frame) : List Command × List GeneratedFunction :=
  match s.effects frame with
  | [] => ([], [])
  | [⟨command, false⟩] => ([s.guardedEffect command], [])
  | effects =>
    let path := paths.effects frame.tick
    ([.execute [s.unlessSuppressed] (.function path)], [(path, effects.map (·.command))])

/-- The updates of all nodes at a frame; the flags say which nodes took their last pose at once, and
are handed on. -/
def updates (frame : Frame) : List (Slot × Bool) → List Command × List (Slot × Bool)
  | [] => ([], [])
  | (slot, instant) :: rest =>
    -- the flags of nodes without an entry are handed on as they are
    let (commands, flags) := updates frame rest
    match frame.entry? slot.node.uuid with
    | none => (commands, (slot, instant) :: flags)
    | some entry =>
      let own := (s.nodeUpdate slot entry.pose instant).toList
      let flag := if slot.node.kind.isMatrix then entry.pose.marker.isInstant else instant
      (own ++ commands, (slot, flag) :: flags)

/-- The functions of frames in order. -/
def framesFrom (paths : ClipPaths) (flags : List (Slot × Bool)) :
    List Frame → List GeneratedFunction
  | [] => []
  | frame :: rest =>
    let (commands, flags) := s.updates frame flags
    let (call, functions) := s.effectCall paths frame
    functions ++ [(paths.frame frame.tick, commands ++ call)] ++ framesFrom paths flags rest

/-- The functions of all frames of a tree. -/
def leafFunctions (paths : ClipPaths) (tree : DispatchTree) : List GeneratedFunction :=
  s.framesFrom paths (s.rig.slots.toList.map fun slot => (slot, false)) tree.frames

end Stage

end Marionette
