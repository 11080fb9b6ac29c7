import Marionette.Blueprint
import Marionette.Functions.Dispatch
import Marionette.Functions.Leaves
import Marionette.Functions.Playback
import Marionette.Functions.Rig
import Marionette.Sampling

/-!
# Compilation

- `Stage.clipPack`: all functions of one animation.
- `Output`: the pack of a rig with its compiled animations and the remarks made on the way.
- `compile`, `compileBlueprint`: a rig and its animations to a pack.
-/

namespace Marionette

/-- All functions of one animation: both trees, the frames and the controls. -/
def Stage.clipFunctions (s : Stage) (clip : Clip) (tree : DispatchTree) : List GeneratedFunction :=
  let paths := ClipPaths.ofClip s.names.namespaceName clip
  s.dispatchFunctions paths tree ++ s.leafFunctions paths tree ++ s.controlFunctions paths clip

/-- The pack of one animation. -/
def Stage.clipPack (s : Stage) (clip : Clip) (tree : DispatchTree) : Except BakeError Datapack :=
  ({} : Datapack).addFunctions (s.clipFunctions clip tree)

/-- A compiled animation with its dispatch tree. -/
structure CompiledClip where
  /-- The compiled animation. -/
  clip : Clip
  /-- Its dispatch tree. -/
  tree : DispatchTree
deriving Inhabited

/-- The result of a compilation. -/
structure Output where
  /-- Name space of the functions. -/
  namespaceName : String
  /-- All files. -/
  pack : Datapack
  /-- The animations in the author's order. -/
  clips : List CompiledClip
  /-- Remarks made on the way. -/
  remarks : List Diagnostic

/-- A compiled animation by the name that the author gave it. -/
def Output.clip? (o : Output) (name : String) : Option CompiledClip :=
  o.clips.find? fun c => c.clip.name == name

/-- Names for animations in order, with a warning for each that collides with one before it. -/
def allocateClipNames (paths storage : NameAllocator) :
    List Animation → List ClipNames × List Diagnostic
  | [] => ([], [])
  | a :: rest =>
    let ((path, renamedPath), paths) := paths.allocate (pathSafe a.name)
    let ((stored, renamedStorage), storage) := storage.allocate (storageSafe a.name)
    let remarks : List Diagnostic :=
      if renamedPath || renamedStorage then
        [.warning (some a.name) none
          s!"name collides with another animation; compiled as '{stored}'"]
      else []
    let (names, later) := allocateClipNames paths storage rest
    (⟨path, stored⟩ :: names, remarks ++ later)

/-- Compiles one animation. -/
def Stage.compileClip (s : Stage) (a : Animation) (names : ClipNames) :
    Except BakeError (CompiledClip × Datapack × List Diagnostic) := do
  let (clip, remarks) ← sample s.rig a s.config names
  let tree := DispatchTree.build clip.frames clip.duration
  let pack ← s.clipPack clip tree
  return (⟨clip, tree⟩, pack, remarks)

/-- Compiles every animation of a rig into one pack.  The name space is the configured one, or else
the safe form of the name of the rig. -/
def compile (rig : Rig) (animations : List Animation) (config : Config) :
    Except Failure Output := do
  orFail config.check
  let namespaceName := config.namespaceName.getD (storageSafe rig.name)
  let (names, w1) := allocateClipNames {} {} animations
  let rest ← orFail (restPoses rig config)
  let stage : Stage := ⟨rig, config, ⟨namespaceName⟩, rest⟩
  let compiled ← orFail ((animations.zip names).mapM fun (a, n) => stage.compileClip a n)
  let pack ← orFail (compiled.foldlM (fun pack c => pack.extend c.2.1) ({} : Datapack))
  let clips := compiled.map (·.1)
  let rigPack ← stage.rigPack (clips.map (·.clip))
  let pack ← orFail (pack.extend rigPack)
  return ⟨namespaceName, pack, clips, w1 ++ compiled.flatMap fun c => c.2.2⟩

/-- Compiles a blueprint with its own settings. -/
def compileBlueprint (b : Blueprint) : Except Failure Output := do
  let rig ← orFail b.rig
  compile rig b.animations b.settings

end Marionette
