import Marionette.Animation.Channel
import Marionette.Animation.Check
import Marionette.Config
import Marionette.Diagnostics
import Marionette.Frame

/-!
# Sampling

An authored animation is read at every tick of its length.  A frame keeps the entry of a node only
where its rounded matrix differs from the last one kept for it, or where a locator runs commands.

- `Track`: a node with its keys and with what has been kept of it so far.
- `worldMatrices`: the matrices of all nodes, relative to the root.
- `restPoses`: the poses of a rig that is not animated.
- `sample`: the compiled form of an animation, with the remarks made on the way.
-/

namespace Marionette

/-- Names under which an animation is compiled. -/
structure ClipNames where
  /-- Name in function paths. -/
  path : String
  /-- Name in objectives and tags. -/
  storage : String
deriving DecidableEq, Repr

/-- The safe forms of a name. -/
def ClipNames.ofName (name : String) : ClipNames :=
  ⟨pathSafe name, storageSafe name⟩

/-- Keys of a node that lie within the animation. -/
structure Channels where
  /-- Keys of the position. -/
  position : Array TransformKey := #[]
  /-- Keys of the rotation. -/
  rotation : Array TransformKey := #[]
  /-- Keys of the scale. -/
  scale : Array TransformKey := #[]
  /-- Keys of commands. -/
  commands : List LocatorKey := []
deriving Inhabited

namespace Channels

/-- The pose has keys. -/
def isAnimated (c : Channels) : Bool :=
  !(c.position.isEmpty && c.rotation.isEmpty && c.scale.isEmpty)

/-- The channels of the pose. -/
def poses (c : Channels) : List (Array TransformKey) :=
  [c.position, c.rotation, c.scale]

/-- How the node arrives at a time: by a jump in the half tick before it, through a step in the
tick before it, or neither. -/
def marker (c : Channels) (time : Float) : Marker :=
  if c.poses.any fun keys => Channel.hasJump keys (time - tickSeconds / 2) time then .jump
  else if c.poses.any fun keys => Channel.hasStepArrival keys (time - tickSeconds) time then .step
  else .none

/-- The matrix of the node relative to its parent at a time. -/
def localMatrix (c : Channels) (bind : BindPose) (parentOrigin : Vec3) (time : Float) : Mat4 :=
  if c.isAnimated then
    composeLocal bind parentOrigin ((Channel.sample c.position time).getD .zero)
      ((Channel.sample c.rotation time).getD .zero) ((Channel.sample c.scale time).getD .one)
  else composeLocal bind parentOrigin .zero .zero .one

end Channels

/-- A repetition that is going on. -/
structure Repetition where
  /-- What is repeated. -/
  effect : LocatorEffect
  /-- The tick of the key. -/
  since : Nat

/-- A node with its keys and with what has been kept of it so far. -/
structure Track where
  /-- The node in its place. -/
  slot : Slot
  /-- Its keys within the animation. -/
  channels : Channels := {}
  /-- Its matrix at rest. -/
  rest : Mat4
  /-- The matrix of its last entry. -/
  last : Option Mat4 := none
  /-- The repetition that is going on. -/
  repetition : Option Repetition := none
  /-- The animation moves it. -/
  modified : Bool := false

/-- Keys up to the end of the animation, and a warning if there are others. -/
def trimKeys {α : Type} (keys : List α) (timeOf : α → Float) (length : Float)
    (channel animation : String) (node : Uuid) : List α × List Diagnostic :=
  let kept := keys.takeWhile fun k => timeOf k ≤ length
  let dropped := keys.length - kept.length
  let shown := Decimal.doubleText length
  let message :=
    s!"{dropped} {channel} keyframe(s) after the end of the animation ({shown}s) are ignored"
  (kept, if dropped = 0 then [] else [.warning (some animation) (some node) message])

/-- The keys of a node that lie within the animation, with the warnings about the others. -/
def trimAnimator (a : Animation) (slot : Slot) (animator : Animator) :
    Channels × List Diagnostic :=
  let node := slot.node.uuid
  let trim (keys : List TransformKey) (channel : String) :=
    trimKeys keys (·.time) a.length channel a.name node
  let (commands, w1) := trimKeys animator.commands (·.time) a.length "locator command" a.name node
  let isLocator := match slot.node.kind with
    | .locator _ => true
    | _ => false
  let w2 : List Diagnostic :=
    if commands.isEmpty || isLocator then []
    else [.warning (some a.name) (some node)
      "command keyframes on a node that is not a locator are ignored"]
  let (position, w3) := trim animator.position "position"
  let (rotation, w4) := trim animator.rotation "rotation"
  let (scale, w5) := trim animator.scale "scale"
  (⟨position.toArray, rotation.toArray, scale.toArray, if isLocator then commands else []⟩,
    w1 ++ w2 ++ w3 ++ w4 ++ w5)

/-- Puts the keys of animators beside the nodes of the rig. -/
def assignChannels (rig : Rig) (a : Animation) (channels : Array Channels) :
    List Animator → Except BakeError (Array Channels × List Diagnostic)
  | [] => .ok (channels, [])
  | animator :: rest => do
    match rig.indexOf? animator.node with
    | none => .error (.unknownNode a.name animator.node)
    | some i =>
      let (own, here) := trimAnimator a (rig.slots.getD i default) animator
      let (channels, later) ← assignChannels rig a (channels.setIfInBounds i own) rest
      return (channels, here ++ later)

/-- Markers of all nodes at a time; a node takes over the marker of its parent if it is stronger. -/
def markersAt (tracks : List (Slot × Channels)) (time : Float) : Array Marker :=
  tracks.foldl (fun markers t =>
    -- parents come before their children, so that theirs is there already
    let inherited := (t.1.parent.bind fun p => markers[p]?).getD .none
    markers.push ((t.2.marker time).max inherited)) #[]

/-- Matrices of all nodes relative to the root, where `timeOf` gives the time at which each node is
read. -/
def worldMatrices (rig : Rig) (tracks : List (Slot × Channels)) (timeOf : Nat → Float) :
    Array Mat4 :=
  tracks.foldl (fun worlds t =>
    let parent := t.1.parent.bind fun p => rig.slots[p]?
    let parentOrigin := (parent.map fun s => s.node.bind.origin).getD .zero
    let own := t.2.localMatrix t.1.node.bind parentOrigin (timeOf worlds.size)
    worlds.push (match t.1.parent.bind fun p => worlds[p]? with
      | some world => world.mul own
      | none => own)) #[]

/-- The poses of a rig that is not animated, in the order of its nodes. -/
def restPoses (rig : Rig) (config : Config) : Except BakeError (List Pose) :=
  let still := rig.slots.toList.map fun s => (s, ({} : Channels))
  let worlds := worldMatrices rig still fun _ => 0
  (rig.slots.toList.zip worlds.toList).mapM fun (s, world) =>
    match Pose.ofMatrix? world .none config.precisionScale with
    | some pose => .ok pose
    | none => .error (.degenerateTransform "bind pose" s.node.uuid 0)

/-- What a locator runs at a tick, the repetition that goes on from there, and a warning about a
frequency of zero.  The first key of a tick counts; a key without commands ends a repetition. -/
def locatorEffect (a : Animation) (node : Uuid) (keys : List LocatorKey)
    (repetition : Option Repetition) (tick : Nat) :
    Option LocatorEffect × Option Repetition × List Diagnostic :=
  match keys.find? fun k => secondsToTick k.time == tick with
  | some key =>
    let shown := Decimal.doubleText key.time
    let remarks : List Diagnostic :=
      if key.repeats && key.repeatFrequency == 0 then
        [.warning (some a.name) (some node) s!"repeat frequency 0 at {shown}s treated as 1"]
      else []
    if key.commands.isEmpty then (none, none, remarks)
    else
      let effect : LocatorEffect :=
        ⟨key.commands, key.condition, key.repeats, max key.repeatFrequency 1⟩
      (some effect, if key.repeats then some ⟨effect, tick⟩ else none, remarks)
  | none =>
    match repetition with
    | none => (none, none, [])
    | some r =>
      -- counted from the key, which ran itself
      let due := (tick - r.since) % r.effect.repeatFrequency = 0
      (if due then some r.effect else none, some r, [])

/-- The variants that are shown from a tick on, with warnings about those the rig does not have. -/
def variantEffect (rig : Rig) (a : Animation) (tick : Nat) :
    Option VariantEffect × List Diagnostic :=
  match a.variantKeys.find? fun k => secondsToTick k.time == tick with
  | none => (none, [])
  | some key =>
    let shown := Decimal.doubleText key.time
    let (known, lost) := key.variants.partition fun v => (rig.variant? v).isSome
    let remarks := lost.map fun v =>
      let missing := v.text
      .warning (some a.name) none
        s!"variant keyframe at {shown}s references missing variant {missing}; dropped"
    (if known.isEmpty then none else some ⟨known, key.condition⟩, remarks)

/-- The commands that the root runs at a tick. -/
def commandEffect (a : Animation) (tick : Nat) : Option CommandEffect :=
  match a.commandKeys.find? fun k => secondsToTick k.time == tick with
  | none => none
  | some key => if key.commands.isEmpty then none else some ⟨key.commands, key.condition⟩

/-- Reads one node at a tick: its track afterwards, its entry if it has one, and remarks. -/
def sampleNode (a : Animation) (precision : Float) (tick : Nat) (track : Track) (marker : Marker)
    (world : Mat4) : Except BakeError (Track × Option NodeEntry × List Diagnostic) := do
  let node := track.slot.node
  let marker := if node.kind.isMatrix then marker else .none
  let some pose := Pose.ofMatrix? world marker precision
    | .error (.degenerateTransform a.name node.uuid tick)
  -- matrices are compared after rounding, as they are written
  let changed := !(track.last == some pose.matrix)
  let (effect, repetition, remarks) := match node.kind with
    | .locator _ => locatorEffect a node.uuid track.channels.commands track.repetition tick
    | _ => (none, track.repetition, [])
  let kept := match node.kind with
    | .locator tracked => effect.isSome || (tracked && changed)
    | _ => changed
  let track := { track with repetition := repetition }
  if kept then
    -- the first pose that is read is a change, but no movement as long as the node is at rest
    let moved := effect.isSome || (changed && !(track.rest == pose.matrix))
    return ({ track with last := some pose.matrix, modified := track.modified || moved },
      some ⟨pose, effect⟩, remarks)
  else return (track, none, remarks)

/-- Reads the nodes in order at a tick. -/
def sampleNodes (a : Animation) (precision : Float) (tick : Nat) :
    List (Track × Marker × Mat4) →
      Except BakeError (List Track × List (Uuid × NodeEntry) × List Diagnostic)
  | [] => .ok ([], [], [])
  | (track, marker, world) :: rest => do
    let (track, entry, here) ← sampleNode a precision tick track marker world
    let (tracks, entries, later) ← sampleNodes a precision tick rest
    let own := entry.toList.map fun e => (track.slot.node.uuid, e)
    return (track :: tracks, own ++ entries, here ++ later)

/-- Time of a tick in seconds. -/
def tickTime (tick : Nat) : Float :=
  tick.toFloat / 20.0

/-- The markers of all nodes at a tick, and their matrices.  A node that jumps is read a little
later, when it has arrived behind the jump. -/
def sceneAt (rig : Rig) (config : Config) (tracks : List (Slot × Channels)) (tick : Nat) :
    Array Marker × Array Mat4 :=
  let time := tickTime tick
  let markers := markersAt tracks time
  let timeOf (i : Nat) : Float :=
    if markers[i]? = some .jump then time + config.jumpOffset else time
  (markers, worldMatrices rig tracks timeOf)

/-- Reads the whole rig at a tick. -/
def sampleTick (rig : Rig) (a : Animation) (config : Config) (tick : Nat) (tracks : List Track) :
    Except BakeError (List Track × Frame × List Diagnostic) := do
  let (markers, worlds) := sceneAt rig config (tracks.map fun t => (t.slot, t.channels)) tick
  let (tracks, nodes, w1) ← sampleNodes a config.precisionScale tick
    (tracks.zip (markers.toList.zip worlds.toList))
  let (variant, w2) := variantEffect rig a tick
  return (tracks, ⟨tick, nodes, variant, commandEffect a tick⟩, w1 ++ w2)

/-- What sampling has gathered so far. -/
structure Recording where
  /-- The nodes, as they stand. -/
  tracks : List Track
  /-- Frames in which something changes. -/
  frames : Array Frame := #[]
  /-- Remarks made on the way. -/
  remarks : Array Diagnostic := #[]

/-- Reads the rig at `count` ticks from `tick` on. -/
def sampleFrom (rig : Rig) (a : Animation) (config : Config) :
    Nat → Nat → Recording → Except BakeError Recording
  | 0, _, r => .ok r
  | count + 1, tick, r => do
    let (tracks, frame, here) ← sampleTick rig a config tick r.tracks
    let frames := if frame.isEmpty then r.frames else r.frames.push frame
    sampleFrom rig a config count (tick + 1) ⟨tracks, frames, r.remarks ++ here⟩

/-- Warnings about keys of the whole rig that lie past the end. -/
def lateKeys (a : Animation) (what : String) (times : List Float) : List Diagnostic :=
  (times.filter fun t => secondsToTick t ≥ a.duration).map fun t =>
    let shown := Decimal.doubleText t
    .warning (some a.name) none s!"{what} keyframe at {shown}s is past the end and is ignored"

/-- Compiles an animation to its frames.  Nodes that the animation never moves keep the pose that
another animation left them in, so they have no entries. -/
def sample (rig : Rig) (a : Animation) (config : Config) (names : ClipNames) :
    Except BakeError (Clip × List Diagnostic) := do
  a.check
  let (channels, w1) ← assignChannels rig a (Array.replicate rig.size {}) a.animators
  let rest ← restPoses rig config
  let tracks := (rig.slots.toList.zip (channels.toList.zip rest)).map fun (slot, own, pose) =>
    { slot := slot, channels := own, rest := pose.matrix : Track }
  let ⟨tracks, frames, w2⟩ ← sampleFrom rig a config a.duration 0 { tracks := tracks }
  let w3 := lateKeys a "variant" (a.variantKeys.map (·.time))
  let w4 := lateKeys a "command" (a.commandKeys.map (·.time))
  let modified := (tracks.filter (·.modified)).map (·.slot.node.uuid)
  -- which nodes are moved at all is known only now
  let frames := frames.toList.map fun f =>
    { f with nodes := f.nodes.filter fun n => n.1 ∈ modified }
  let clip : Clip := {
    name := a.name
    pathName := names.path
    storageName := names.storage
    duration := a.duration
    loopMode := a.loopMode
    loopDelay := a.loopDelayTicks
    modifiedNodes := modified
    frames := frames.filter (!·.isEmpty) }
  return (clip, w1 ++ w2.toList ++ w3 ++ w4)

end Marionette
