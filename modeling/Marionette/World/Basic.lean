import Marionette.Datapack
import Marionette.Json.Record
import Marionette.World.Entity
import Std.Data.HashMap
import Std.Data.HashSet

/-!
# Simulated worlds

A world runs the functions of a pack: it has entities, objectives and scores, and it records the
commands of the author, which it does not interpret.

- `World`: the state of a world.
- `World.ofPack`: a world in which nothing has run yet.
- `World.score?`, `World.entity?`, `World.passengers` and others: what can be seen of a world.
- `SimError`: why a run stops.
-/

namespace Marionette

/-- Why a run stops. -/
inductive SimError where
  /-- A function that the pack does not have. -/
  | unknownFunction (path : FunctionPath)
  /-- Functions that call each other too deeply. -/
  | recursionLimit (path : FunctionPath) (limit : Nat)
  /-- A list of functions that cannot be read. -/
  | invalidTag (path reason : String)
  /-- A summoning that left no root. -/
  | nothingSummoned (path : FunctionPath)
  /-- An objective that has not been created. -/
  | unknownObjective (objective : String)
  /-- A result that has to be kept in the data of an entity that was never created. -/
  | strayExecutor (id : Nat)

/-- The reason in words. -/
def SimError.message : SimError → String
  | .unknownFunction path => s!"Unknown function {path.text}"
  | .recursionLimit path limit => s!"Call depth exceeded {limit} while entering {path.text}"
  | .invalidTag path reason => s!"Malformed function tag {path}: {reason}"
  | .nothingSummoned path => s!"{path.text} did not summon a root entity"
  | .unknownObjective objective => s!"Objective '{objective}' was used before it was created"
  | .strayExecutor id => s!"entity {id} was never created"

/-- The name of the kind of error. -/
def SimError.kindName : SimError → String
  | .unknownFunction _ => "UnknownFunction"
  | .recursionLimit _ _ => "RecursionLimit"
  | .invalidTag _ _ => "InvalidTag"
  | .nothingSummoned _ => "NothingSummoned"
  | .unknownObjective _ => "UnknownObjective"
  | .strayExecutor _ => "StrayExecutor"

/-- Who owns a score: an entity or a name. -/
inductive Owner where
  /-- The entity of a number. -/
  | entity (id : Nat)
  /-- A name that stands for no entity. -/
  | fake (name : String)
deriving DecidableEq, Hashable, Repr

/-- A command of the author that was reached. -/
structure RawOutput where
  /-- The executing entity. -/
  executor : Option Nat
  /-- The command. -/
  command : String
deriving DecidableEq, Repr

/-- Functions may call each other this deep. -/
def defaultMaxDepth : Nat := 512

/-- The state of a world. -/
structure World where
  /-- The functions of the pack. -/
  functions : Std.HashMap FunctionPath (List Command)
  /-- Functions that run at every tick. -/
  tickFunctions : List FunctionPath
  /-- Functions that run at the start. -/
  loadFunctions : List FunctionPath
  /-- All entities that were ever created. -/
  entities : Array Entity := #[]
  /-- Objectives that were created. -/
  objectives : Std.HashSet String := {}
  /-- Scores by owner and objective. -/
  scores : Std.HashMap (Owner × String) Int32 := {}
  /-- Answers to conditions of the author; a condition without an answer holds. -/
  conditions : Std.HashMap String Bool := {}
  /-- Commands of the author, in the order in which they were reached. -/
  output : Array RawOutput := #[]
  /-- Functions may call each other this deep. -/
  maxDepth : Nat := defaultMaxDepth
  /-- Ticks since the start. -/
  gameTime : Nat := 0

namespace World

/-- Reads a name with a name space and a path, both of them not empty. -/
def functionId (file id : String) : Except SimError FunctionPath :=
  match (FunctionPath.ofText? id).filter fun f => !f.namespaceName.isEmpty && !f.path.isEmpty with
  | some f => .ok f
  | none => .error (.invalidTag file s!"'{id}' is not a namespaced function id")

/-- The file that lists the functions of an event. -/
def tagFile (name : String) : String :=
  s!"data/minecraft/tags/function/{name}.json"

/-- The functions that a pack runs at an event. -/
def readTag (pack : Datapack) (name : String) : Except SimError (List FunctionPath) :=
  let file := tagFile name
  match pack.get? file with
  | some (.text contents) =>
    match Decoder.ofRecordText ["values"] 1
        (fun j => Json.field j "values" (Decoder.list Decoder.text)) contents with
    | .ok ids => ids.mapM (functionId file)
    | .error fault => .error (.invalidTag file fault.message)
  | _ => .ok []

/-- The world of a pack, in which nothing has run yet. -/
def ofPack (pack : Datapack) : Except SimError World := do
  return {
    functions := Std.HashMap.ofList pack.functions
    tickFunctions := ← readTag pack "tick"
    loadFunctions := ← readTag pack "load" }

variable (w : World)

/-- An entity, also one that was removed. -/
def entity? (id : Nat) : Option Entity := w.entities[id]?

/-- The entities that are alive, in the order of creation. -/
def living : List Entity := w.entities.toList.filter (·.alive)

/-- What rides an entity and is alive. -/
def passengers (id : Nat) : List Entity :=
  match w.entity? id with
  | none => []
  | some e => (e.passengers.filterMap w.entity?).filter (·.alive)

/-- The first passenger with a tag. -/
def findPassenger? (id : Nat) (tag : String) : Option Entity :=
  (w.passengers id).find? fun p => p.hasTag tag

/-- An entity has a tag. -/
def hasTag (id : Nat) (tag : String) : Bool := (w.entity? id).any fun e => e.hasTag tag

/-- An objective was created. -/
def hasObjective (objective : String) : Bool := w.objectives.contains objective

/-- The score of an owner. -/
def ownerScore? (owner : Owner) (objective : String) : Option Int32 := w.scores[(owner, objective)]?

/-- The score of an entity. -/
def score? (id : Nat) (objective : String) : Option Int32 := w.ownerScore? (.entity id) objective

/-- The score of a name that stands for no entity. -/
def fakeScore? (name objective : String) : Option Int32 := w.ownerScore? (.fake name) objective

/-- The entities that a selector picks for an executing entity, in the order of creation. -/
def select (s : Selector) (executor : Option Nat) : List Nat :=
  match s.base with
  | .this => ((executor.bind w.entity?).toList.filter fun e => e.matches s).map (·.id)
  | .entities => (w.entities.toList.filter fun e => e.matches s).map (·.id)

/-- The owners of scores that a holder stands for. -/
def owners (h : Holder) (executor : Option Nat) : List Owner :=
  match h with
  | .fake name => [.fake name]
  | .entity s => (w.select s executor).map .entity

/-- The first score that a holder stands for. -/
def firstScore? (h : Holder) (executor : Option Nat) (objective : String) : Option Int32 :=
  (w.owners h executor).head?.bind fun o => w.ownerScore? o objective

/-- Sets the score of an owner. -/
def setOwnerScore (owner : Owner) (objective : String) (value : Int32) : World :=
  { w with scores := w.scores.insert (owner, objective) value }

/-- Changes an entity. -/
def modifyEntity (id : Nat) (f : Entity → Entity) : World :=
  { w with entities := w.entities.modify id f }

/-- The answer to a condition of the author. -/
def setCondition (condition : String) (passes : Bool) : World :=
  { w with conditions := w.conditions.insert condition passes }

/-- Takes the recorded commands out. -/
def takeOutput : Array RawOutput × World := (w.output, { w with output := #[] })

mutual

/-- Creates an entity and what rides it; gives its number too. -/
def spawn (entities : Array Entity) (vehicle : Option Nat) : EntityPlan → Array Entity × Nat
  | .mk entityType tags data passengers =>
    let id := entities.size
    let own : Entity :=
      { id := id, entityType := entityType, tags := tags, data := data, vehicle := vehicle }
    (seat (entities.push own) id passengers, id)

/-- Creates what rides an entity, one after the other. -/
def seat (entities : Array Entity) (vehicle : Nat) : List EntityPlan → Array Entity
  | [] => entities
  | plan :: rest =>
    let (entities, id) := spawn entities (some vehicle) plan
    seat (entities.modify vehicle fun e => { e with passengers := e.passengers ++ [id] })
      vehicle rest

end

/-- Removes an entity that is alive: it leaves its vehicle, what rides it stays behind, and its
scores are gone. -/
def kill (id : Nat) : World :=
  match w.entity? id with
  | none => w
  | some e =>
    if !e.alive then w
    else
      let gone := w.entities.modify id fun e =>
        { e with alive := false, vehicle := none, passengers := [] }
      let left := match e.vehicle with
        | none => gone
        | some v => gone.modify v fun e => { e with passengers := e.passengers.filter (· != id) }
      let freed := e.passengers.foldl
        (fun es p => es.modify p fun e => { e with vehicle := none }) left
      { w with entities := freed, scores := w.scores.filter fun k _ => k.1 != .entity id }

end World

end Marionette
