import Marionette.World.Basic

/-!
# Running functions

A run changes the world step by step; where it stops with an error, what it has done so far stays.

- `Run`: runs with a result.
- `World.runCommand`, `World.runClauses`: one command, and the clauses of an `execute` command.
- `World.callFunction`: a function, up to a depth of calls.
- `World.load`, `World.tick`, `World.run`, `World.summon`: what a caller can do.
-/

namespace Marionette

/-- A run that changes a world, and gives a result or stops. -/
abbrev Run (α : Type) := ExceptT SimError (StateM World) α

/-- The result of a command: a number, or nothing if it failed. -/
abbrev Outcome := Option Int32

/-- The number of things that a command did; doing nothing counts as failing. -/
def Outcome.ofCount (n : Nat) : Outcome :=
  if n = 0 then none else some (Int32.ofNat n)

/-- Combines a score with another. -/
def ScoreOp.apply (op : ScoreOp) (old source : Int32) : Int32 :=
  match op with
  | .assign => source
  | .add => old + source
  | .sub => old - source
  | .min => if source < old then source else old
  | .max => if old < source then source else old

namespace World

/-- Stops unless an objective was created. -/
def requireObjective (objective : String) : Run Unit := do
  if !(← get).hasObjective objective then throw (.unknownObjective objective)

/-- Changes the scores of owners in order; the result is the last new score. -/
def updateOwners (objective : String) (f : Option Int32 → Int32) :
    List Owner → Outcome → Run Outcome
  | [], last => return last
  | owner :: rest, _ => do
    let value := f ((← get).ownerScore? owner objective)
    modify fun w => w.setOwnerScore owner objective value
    updateOwners objective f rest (some value)

/-- Changes the scores that a holder stands for. -/
def updateScores (h : Holder) (objective : String) (executor : Option Nat)
    (f : Option Int32 → Int32) : Run Outcome := do
  requireObjective objective
  updateOwners objective f ((← get).owners h executor) none

/-- Combines the score of an owner with those of other owners in order. -/
def combineFrom (target : Owner) (targetObjective : String) (op : ScoreOp)
    (sourceObjective : String) : List Owner → Outcome → Run Outcome
  | [], last => return last
  | source :: rest, _ => do
    let w ← get
    let value := op.apply ((w.ownerScore? target targetObjective).getD 0)
      ((w.ownerScore? source sourceObjective).getD 0)
    set (w.setOwnerScore target targetObjective value)
    combineFrom target targetObjective op sourceObjective rest (some value)

/-- Combines the scores of owners with those of other owners, for each target all sources. -/
def combineAll (targetObjective : String) (op : ScoreOp) (sources : List Owner)
    (sourceObjective : String) : List Owner → Outcome → Run Outcome
  | [], last => return last
  | target :: rest, last => do
    let last ← combineFrom target targetObjective op sourceObjective sources last
    combineAll targetObjective op sources sourceObjective rest last

/-- Removes scores of owners, of one objective or of all. -/
def resetScores (w : World) (owners : List Owner) (objective : Option String) : World :=
  { w with scores := w.scores.filter fun k _ =>
      !(owners.contains k.1 && objective.all fun o => o == k.2) }

/-- Adds a tag to entities, and counts those that did not have it. -/
def addTags (w : World) (ids : List Nat) (tag : String) : World × Nat :=
  ids.foldl (fun (w, n) id =>
    if w.hasTag id tag then (w, n)
    else (w.modifyEntity id fun e => { e with tags := insertTag tag e.tags }, n + 1)) (w, 0)

/-- Removes a tag from entities, and counts those that had it. -/
def removeTags (w : World) (ids : List Nat) (tag : String) : World × Nat :=
  ids.foldl (fun (w, n) id =>
    if w.hasTag id tag then
      (w.modifyEntity id fun e => { e with tags := e.tags.filter (· != tag) }, n + 1)
    else (w, n)) (w, 0)

/-- Changes entities in order; the result is their number. -/
def changeEntities (ids : List Nat) (f : Entity → Entity) : Run Outcome := do
  modify fun w => ids.foldl (fun w id => w.modifyEntity id f) w
  return .ofCount ids.length

/-- Goes on as each of several entities; the result is the number of those that succeed. -/
def fork (go : Option Nat → Run Outcome) : List Nat → Nat → Run Outcome
  | [], succeeded => return .ofCount succeeded
  | id :: rest, succeeded => do
    let outcome ← go (some id)
    fork go rest (if outcome.isSome then succeeded + 1 else succeeded)

/-- Keeps a result in the data of the executing entity, also of one that was removed. -/
def storeInEntity (executor : Option Nat) (path : String) (value : Int32) : Run Unit := do
  match executor with
  | none => return
  | some id =>
    if ((← get).entity? id).isNone then throw (.strayExecutor id)
    modify fun w => w.modifyEntity id fun e => { e with data := e.data.insert path (.int value) }

/-- Goes through clauses from left to right and runs what is behind them, once or several times.
Places are not simulated, so clauses that only change the place have no effect. -/
def runClauses (behind : Option Nat → Run Outcome) : List Clause → Option Nat → Run Outcome
  | [], executor => behind executor
  | clause :: rest, executor => do
    match clause with
    | .score negate holder objective range =>
      requireObjective objective
      let found := ((← get).firstScore? holder executor objective).any range.contains
      -- a missing score is in no range
      if found != negate then runClauses behind rest executor else return none
    | .entity negate selector =>
      let found := !((← get).select selector executor).isEmpty
      if found != negate then runClauses behind rest executor else return none
    | .asEach selector => fork (runClauses behind rest) ((← get).select selector executor) 0
    | .onPassengers =>
      let w ← get
      let riders := executor.toList.flatMap fun id => (w.passengers id).map (·.id)
      fork (runClauses behind rest) riders 0
    | .atEach _ | .positionedLocal _ | .rotatedRelative _ _ => runClauses behind rest executor
    | .storeResultEntity path =>
      -- the result of what stands behind is kept also where that fails, as zero
      let outcome ← runClauses behind rest executor
      storeInEntity executor path (outcome.getD 0)
      return outcome
    | .storeResultScore holder objective =>
      let outcome ← runClauses behind rest executor
      let _ ← updateScores holder objective executor fun _ => outcome.getD 0
      return outcome
    | .raw condition =>
      if (← get).conditions.getD condition true then runClauses behind rest executor
      else return none

/-- Runs a command; `call` runs a function. -/
def runCommand (call : FunctionPath → Option Nat → Run Outcome) :
    Command → Option Nat → Run Outcome
  | .comment _, _ => return some 0
  | .objectiveAdd name, _ => do
    let w ← get
    if w.hasObjective name then return none
    set { w with objectives := w.objectives.insert name }
    return some 1
  | .scoreSet holder objective value, executor =>
    updateScores holder objective executor fun _ => value
  | .scoreAdd holder objective value, executor =>
    updateScores holder objective executor fun old => old.getD 0 + value
  | .scoreRemove holder objective value, executor =>
    updateScores holder objective executor fun old => old.getD 0 - value
  | .scoreOperation target targetObjective op source sourceObjective, executor => do
    requireObjective targetObjective
    requireObjective sourceObjective
    let w ← get
    combineAll targetObjective op (w.owners source executor) sourceObjective
      (w.owners target executor) none
  | .scoreGet holder objective, executor => do
    requireObjective objective
    return (← get).firstScore? holder executor objective
  | .scoreReset holder objective, executor => do
    let owners := (← get).owners holder executor
    modify fun w => w.resetScores owners objective
    return some (Int32.ofNat owners.length)
  | .tagAdd target tag, executor => do
    let w ← get
    let (w, n) := w.addTags (w.select target executor) tag
    set w
    return .ofCount n
  | .tagRemove target tag, executor => do
    let w ← get
    let (w, n) := w.removeTags (w.select target executor) tag
    set w
    return .ofCount n
  | .function path, executor => call path executor
  -- the clauses may change who runs the command
  | .execute clauses run, executor =>
    runClauses (fun executor => runCommand call run executor) clauses executor
  | .dataMerge target data, executor => do
    changeEntities ((← get).select target executor) fun e =>
      { e with data := Compound.merge e.data data }
  | .teleport target offset yaw pitch, executor => do
    changeEntities ((← get).select target executor) fun e =>
      { e with teleport := some (offset, yaw, pitch) }
  | .summon entityType data, _ => do
    modify fun w => { w with entities := (spawn w.entities none (.ofData entityType data)).1 }
    return some 1
  | .kill selector, executor => do
    let ids := (← get).select selector executor
    modify fun w => ids.foldl kill w
    return .ofCount ids.length
  | .raw text, executor => do
    modify fun w => { w with output := w.output.push ⟨executor, text⟩ }
    return some 1

/-- Runs commands in order. -/
def runAll (run : Command → Run Outcome) : List Command → Run Unit
  | [] => return
  | command :: rest => do
    let _ ← run command
    runAll run rest

/-- Runs a function, with at most `depth` functions inside each other; the result is the number of
its commands. -/
def callFunction : Nat → FunctionPath → Option Nat → Run Outcome
  | 0, path, _ => do throw (.recursionLimit path (← get).maxDepth)
  | depth + 1, path, executor => do
    match (← get).functions[path]? with
    | none => throw (.unknownFunction path)
    | some commands =>
      runAll (fun command => runCommand (callFunction depth) command executor) commands
      return some (Int32.ofNat commands.length)

/-- Runs a function as an entity, or as none. -/
def run (path : FunctionPath) (executor : Option Nat) : Run Unit := do
  let _ ← callFunction (← get).maxDepth path executor

/-- Runs functions in order, as no entity. -/
def runEach : List FunctionPath → Run Unit
  | [] => return
  | path :: rest => do
    run path none
    runEach rest

/-- Runs the functions of the start. -/
def load : Run Unit := do
  runEach (← get).loadFunctions

/-- Lets a tick pass. -/
def tick : Run Unit := do
  modify fun w => { w with gameTime := w.gameTime + 1 }
  runEach (← get).tickFunctions

/-- Lets ticks pass. -/
def ticks : Nat → Run Unit
  | 0 => return
  | n + 1 => do
    tick
    ticks n

/-- Sets a score from outside. -/
def setScore (id : Nat) (objective : String) (value : Int32) : Run Unit := do
  requireObjective objective
  modify fun w => w.setOwnerScore (.entity id) objective value

/-- Summons an instance of a rig, and gives the number of its root: the first new entity that rides
nothing. -/
def summon (namespaceName : String) : Run Nat := do
  let before := (← get).entities.size
  let path : FunctionPath := ⟨namespaceName, "summon"⟩
  run path none
  match ((← get).entities.toList.drop before).find? fun e => e.vehicle.isNone with
  | some root => return root.id
  | none => throw (.nothingSummoned path)

end World

end Marionette
