import Marionette.Config
import Marionette.Datapack
import Marionette.Frame
import Marionette.RuntimeNames

/-!
# Generated functions

What the functions of a rig are generated from, and where they go.

- `Stage`: a rig with its settings, its name space and its poses at rest.
- `ClipPaths`: the functions of one animation.
- `GeneratedFunction`: a function with its commands.
-/

namespace Marionette

/-- A function with its commands. -/
abbrev GeneratedFunction := FunctionPath × List Command

/-- A rig that is set up for a name space. -/
structure Stage where
  /-- The rig. -/
  rig : Rig
  /-- Settings. -/
  config : Config
  /-- Names of the playback state. -/
  names : RuntimeNames
  /-- Poses at rest, in the order of the nodes. -/
  rest : List Pose

namespace Stage

variable (s : Stage)

/-- A function of the rig. -/
def function (path : String) : FunctionPath :=
  ⟨s.names.namespaceName, path⟩

/-- The function that shows a variant. -/
def variantApply (storageName : String) : FunctionPath :=
  s.function s!"variants/{storageName}/apply"

/-- The default interpolation duration as a score. -/
def defaultInterp : Int32 :=
  Int32.ofNat s.config.interpolationDuration

/-- Goes on as the entity of a node, from the root. -/
def onNode (storageName : String) : List Clause :=
  [.onPassengers, .ifEntity (Selector.this.tagged (s.names.nodeTag storageName))]

/-- Commands during which frames only change poses. -/
def suppressed (commands : List Command) : List Command :=
  [Command.tagAdd .this s.names.suppressTag] ++ commands ++
    [Command.tagRemove .this s.names.suppressTag]

/-- Takes the interpolation duration over to the entities of the nodes. -/
def sync : Command :=
  .function (s.function "sync_interpolation")

end Stage

/-- Sets a score of the executing entity. -/
def setOwn (objective : String) (value : Int32) : Command :=
  .scoreSet .this objective value

/-- Copies a score of the executing entity to another. -/
def copyOwn (target source : String) : Command :=
  .copyScore .this target .this source

/-- Goes on if a score of the executing entity lies in a range. -/
def ifOwn (objective : String) (range : ScoreRange) : Clause :=
  .ifScore .this objective range

/-- The functions of one animation, all below a common path. -/
structure ClipPaths where
  /-- The common path. -/
  root : FunctionPath

namespace ClipPaths

/-- The functions of an animation of a name space. -/
def ofClip (namespaceName : String) (clip : Clip) : ClipPaths :=
  ⟨⟨namespaceName, s!"animations/{clip.pathName}"⟩⟩

variable (p : ClipPaths)

/-- A function that controls playback. -/
def control (name : String) : FunctionPath := p.root.join name

/-- Applies the frame of exactly the current tick. -/
def dispatch : FunctionPath := p.root.join "dispatch"

/-- Applies the latest frame up to the current tick. -/
def seek : FunctionPath := p.root.join "seek"

/-- A branch of the exact tree. -/
def branch (lo hi : Nat) : FunctionPath := p.root.join s!"tree/{lo}_{hi}"

/-- A branch of the seeking tree. -/
def seekBranch (lo hi : Nat) : FunctionPath := p.root.join s!"seek_tree/{lo}_{hi}"

/-- The frame of a tick. -/
def frame (tick : Nat) : FunctionPath := p.root.join s!"frames/{tick}"

/-- What happens at a tick beside the poses. -/
def effects (tick : Nat) : FunctionPath := p.root.join s!"frames/{tick}_effects"

end ClipPaths

end Marionette
