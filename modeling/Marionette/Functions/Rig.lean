import Marionette.Functions.Basic
import Marionette.Functions.Leaves

/-!
# Functions of a whole rig

- `Stage.summonPayload`: the data of a new instance: the root with the entity of every node as a
  passenger, at rest.
- `Stage.tickFunctions`: objectives and the tick; `Stage.instanceFunctions`: summoning, removing,
  interpolation and variants.
- `Stage.rigPack`: these functions with the other files of the pack.
-/

namespace Marionette

/-- What keeps a pack from being made: a reason that the rig or an animation gives, or data with a
float that has no text. -/
inductive Failure where
  /-- A reason that the rig or an animation gives. -/
  | bake (e : BakeError)
  /-- A float that has no text. -/
  | unwritable (f : Datum.Fault)

/-- Turns a reason of a rig or an animation into a failure. -/
def orFail {α : Type} (x : Except BakeError α) : Except Failure α :=
  x.mapError .bake

/-- Turns data that has no text into a failure. -/
def orUnwritable {α : Type} (x : Except Datum.Fault α) : Except Failure α :=
  x.mapError .unwritable

/-- An item in the data of an entity. -/
def itemData (id : String) : Datum :=
  .compound [("id", .string id), ("count", .int 1)]

/-- Shown by a bone that nothing else is said about. -/
def defaultBoneItem : String := "minecraft:white_dye"

namespace Stage

variable (s : Stage)

/-- All roots of the rig. -/
def roots : Selector :=
  (Selector.entities.ofType s.config.rootEntity).tagged s.names.rootTag

/-- The variant that a new instance shows. -/
def defaultVariant? : Option Variant :=
  (s.rig.variants.find? fun v => v.1.isDefault).map (·.1)

/-- The item that a node shows under a variant, if it is a bone. -/
def boneItem? (node : RigNode) (variant : Option Variant) : Option String :=
  match node.kind with
  | .bone item =>
    some (((variant.bind fun v => v.model? node.uuid).orElse fun _ => item).getD defaultBoneItem)
  | _ => none

/-- The data of what a node shows. -/
def contents (node : RigNode) : Compound :=
  match node.kind with
  | .bone _ =>
    (boneItem? node s.defaultVariant?).toList.map fun model => ("item", itemData model)
  | .itemDisplay id => [("item", itemData id)]
  | .blockDisplay block => [("block_state", .compound [("Name", .string block)])]
  | .textDisplay text => [("text", .string (Json.escapedText text))]
  | .locator _ | .camera => []

/-- The data of the entity of a node at rest, if it has one. -/
def passenger? (slot : Slot) (rest : Pose) : Option Compound :=
  let node := slot.node
  if node.kind.hasEntity then
    some ([("id", .string node.kind.entityType),
        ("Tags", .strings [s.names.nodeTag slot.storageName, s.names.anyNodeTag])] ++
      s.contents node ++
      [("transformation", transformation rest.matrix),
        ("interpolation_duration", .int s.defaultInterp)])
  else none

/-- The data of a new instance. -/
def summonPayload : Compound :=
  let passengers := (s.rig.slots.toList.zip s.rest).filterMap fun (slot, pose) =>
    s.passenger? slot pose
  [("Tags", .strings [s.names.rootTag, s.names.newTag]),
    ("Passengers", .list (passengers.map .compound))]

/-- Creates every objective, and says in comments what names mean. -/
def loadBody (clips : List Clip) : List Command :=
  let v := s.names
  let objectives :=
    v.instanceObjectives ++ clips.flatMap fun c => v.animationObjectives c.storageName
  [Command.comment s!"runtime state of rig '{s.rig.name}'"] ++
    objectives.flatMap (fun (name, about) => [.comment s!"{name}: {about}", .objectiveAdd name]) ++
    [.comment s!"tag {v.rootTag}: rig root",
      .comment s!"tag {v.suppressTag}: frame side effects are skipped while present"] ++
    clips.map fun c => .comment s!"tag {v.playingTag c.storageName}: '{c.name}' is advancing"

/-- The tick of one instance: every animation that plays, and then the tween, so that the tick that
ends a tween does not also advance. -/
def onTickBody (clips : List Clip) : List Command :=
  let v := s.names
  let ticks := clips.map fun c =>
    Command.execute [.ifEntity (Selector.this.tagged (v.playingTag c.storageName))]
      (.function ((ClipPaths.ofClip v.namespaceName c).control "tick"))
  [Command.scoreAdd .this v.lifetime 1] ++ ticks ++
    [.execute [ifOwn v.tween (.atLeast 1)] (.function (s.function "tween_step"))]

/-- A tick of a tween.  When it ends, the interpolation duration goes back to the default. -/
def tweenStepBody : List Command :=
  let v := s.names
  [.scoreRemove .this v.tween 1,
    copyOwn v.interp v.tween,
    .execute [ifOwn v.tween (.atMost 0)] (setOwn v.interp s.defaultInterp),
    s.sync]

/-- Creates an instance and sets its scores. -/
def summonBody : List Command :=
  let fresh := (Selector.entities.ofType s.config.rootEntity).tagged s.names.newTag
  [.summon s.config.rootEntity s.summonPayload,
    .execute [.asEach fresh] (.function (s.function "init_instance"))]

/-- Sets the scores of a new instance. -/
def initBody (clips : List Clip) : List Command :=
  let v := s.names
  let own := clips.flatMap fun c =>
    [setOwn (v.localTime c.storageName) 0, setOwn (v.loopMode c.storageName) c.loopMode.score]
  [setOwn v.lifetime 0, setOwn v.frame 0, setOwn v.tween 0, setOwn v.interp s.defaultInterp] ++
    own ++ [.tagRemove .this v.newTag]

/-- Takes the interpolation duration over to the entities of the nodes. -/
def syncBody : List Command :=
  let v := s.names
  [.copyScore interpHolder v.interp .this v.interp,
    .execute [.onPassengers, .storeResultEntity "interpolation_duration"]
      (.scoreGet interpHolder v.interp)]

/-- Shows a variant. -/
def variantBody (variant : Variant) : List Command :=
  let apply := s.rig.slots.toList.filterMap fun slot =>
    (boneItem? slot.node (some variant)).map fun model =>
      Command.execute (s.onNode slot.storageName) (.dataMerge .this [("item", itemData model)])
  if apply.isEmpty then [.comment s!"variant '{variant.name}' has no bones"] else apply

/-- Objectives and the tick. -/
def tickFunctions (clips : List Clip) : List GeneratedFunction :=
  [(s.function "load", s.loadBody clips),
    (s.function "tick", [.execute [.asEach s.roots] (.function (s.function "on_tick"))]),
    (s.function "on_tick", s.onTickBody clips),
    (s.function "tween_step", s.tweenStepBody)]

/-- Summoning, removing, interpolation and variants. -/
def instanceFunctions (clips : List Clip) : List GeneratedFunction :=
  let pauses := clips.map fun c => Command.tagRemove .this (s.names.playingTag c.storageName)
  [(s.function "summon", s.summonBody),
    (s.function "init_instance", s.initBody clips),
    (s.function "remove", [.execute [.onPassengers] (.kill .this), .kill .this]),
    (s.function "pause_all", pauses),
    (s.function "sync_interpolation", s.syncBody)] ++
    s.rig.variants.map fun v => (s.variantApply v.2, s.variantBody v.1)

/-- A list of functions that the target runs at an event. -/
def functionTag (name : String) : Json :=
  .obj [("values", .arr [.str (s.function name).text])]

/-- What the target knows about the pack. -/
def packMeta : Json :=
  .obj [("pack", .obj [("description", .str s.config.description),
    ("pack_format", .int s.config.packFormat)])]

/-- All functions of the rig, and the other files of the pack. -/
def rigPack (clips : List Clip) : Except Failure Datapack := do
  let pack ← orFail (({} : Datapack).addFunctions (s.tickFunctions clips))
  let payload ← orUnwritable (Compound.render .indented s.summonPayload)
  let pack ← orFail (pack.addText s!"data/{s.names.namespaceName}/rigbake/summon.snbt"
    (payload ++ "\n"))
  let pack ← orFail (pack.addFunctions (s.instanceFunctions clips))
  let pack ← orFail (pack.addJson "data/minecraft/tags/function/tick.json" (s.functionTag "tick"))
  let pack ← orFail (pack.addJson "data/minecraft/tags/function/load.json" (s.functionTag "load"))
  orFail (pack.addJson "pack.mcmeta" s.packMeta)

end Stage

end Marionette
