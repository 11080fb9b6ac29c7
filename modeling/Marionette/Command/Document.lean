import Marionette.Command.Basic
import Marionette.Datum.Decode

/-!
# Commands in documents

- `Command.decode`, and decoders for what commands refer to.  A case is an object with one member
  that is named for it.
-/

namespace Marionette

namespace FunctionPath

/-- Reads the name of a function. -/
def decode : Decoder FunctionPath := Decoder.record ["namespace", "path"] 2 fun j => do
  return ⟨← Json.field j "namespace" Decoder.text, ← Json.field j "path" Decoder.text⟩

end FunctionPath

namespace Selector

/-- Reads a selector. -/
def decode : Decoder Selector := Decoder.record ["base", "entity_type", "tags"] 1 fun j => do
  return {
    base := ← Json.field j "base" (Decoder.choice [("This", .this), ("Entities", .entities)])
    entityType := ← Json.field? j "entity_type" Decoder.text
    tags := ← Json.fieldOr j "tags" (Decoder.list (Decoder.pair Decoder.text Decoder.bool)) [] }

end Selector

/-- Reads the owner of a score. -/
def Holder.decode : Decoder Holder := fun j => do
  match ← Json.theCase j with
  | ("Entity", c) => return .entity (← Selector.decode c)
  | ("Fake", c) => return .fake (← Decoder.text c)
  | _ => .error (.mismatch "a holder")

/-- Reads a range of scores. -/
def ScoreRange.decode : Decoder ScoreRange := Decoder.record ["min", "max"] 2 fun j => do
  return ⟨← Json.field? j "min" Decoder.int32, ← Json.field? j "max" Decoder.int32⟩

/-- Reads an operation on scores. -/
def ScoreOp.decode : Decoder ScoreOp :=
  Decoder.choice [("Assign", .assign), ("Add", .add), ("Sub", .sub), ("Min", .min), ("Max", .max)]

/-- Reads yaw and pitch. -/
def turnDecode : Decoder (Float × Float) :=
  Decoder.pair Decoder.double Decoder.double

namespace Clause

/-- The fields of the clauses that have fields. -/
def layouts : List (String × List String) :=
  [("Score", ["negate", "holder", "objective", "range"]), ("Entity", ["negate", "selector"]),
    ("StoreResultEntity", ["path"]), ("StoreResultScore", ["holder", "objective"])]

/-- Reads a clause by its name and its contents. -/
def decodeCase (name : String) (c : Json) : Except DecodeFault Clause := do
  match name with
  | "OnPassengers" => return (fun _ => onPassengers) (← Decoder.null c)
  | "Score" =>
    return score (← Json.field c "negate" Decoder.bool) (← Json.field c "holder" Holder.decode)
      (← Json.field c "objective" Decoder.text) (← Json.field c "range" ScoreRange.decode)
  | "Entity" =>
    return entity (← Json.field c "negate" Decoder.bool) (← Json.field c "selector" Selector.decode)
  | "As" => return asEach (← Selector.decode c)
  | "At" => return atEach (← Selector.decode c)
  | "PositionedLocal" => return positionedLocal (← Vec3.decode c)
  | "RotatedRelative" =>
    let (yaw, pitch) ← turnDecode c
    return rotatedRelative yaw pitch
  | "StoreResultEntity" => return storeResultEntity (← Json.field c "path" Decoder.text)
  | "StoreResultScore" =>
    return storeResultScore (← Json.field c "holder" Holder.decode)
      (← Json.field c "objective" Decoder.text)
  | "Raw" => return raw (← Decoder.text c)
  | _ => .error (.mismatch "a clause")

/-- Reads a clause. -/
def decode : Decoder Clause
  | .str "OnPassengers" => .ok onPassengers
  | j => do
    let (name, c) ← Json.theRecordCase layouts j
    decodeCase name c

end Clause

namespace Command

/-- The fields of the commands that have fields. -/
def layouts : List (String × List String) :=
  [("ObjectiveAdd", ["name"]), ("ScoreSet", ["holder", "objective", "value"]),
    ("ScoreAdd", ["holder", "objective", "value"]),
    ("ScoreRemove", ["holder", "objective", "value"]),
    ("ScoreOperation", ["target", "target_objective", "op", "source", "source_objective"]),
    ("ScoreGet", ["holder", "objective"]), ("ScoreReset", ["holder", "objective"]),
    ("TagAdd", ["target", "tag"]), ("TagRemove", ["target", "tag"]),
    ("Execute", ["clauses", "run"]),
    ("DataMerge", ["target", "data"]), ("Teleport", ["target", "local", "rotation"]),
    ("Summon", ["entity", "data"])]

/-- Reads a command that is not run under clauses. -/
def decodeSimple (name : String) (c : Json) : Except DecodeFault Command := do
  let text (field : String) := Json.field c field Decoder.text
  let holder (field : String) := Json.field c field Holder.decode
  let selector (field : String) := Json.field c field Selector.decode
  let value := Json.field c "value" Decoder.int32
  match name with
  | "ObjectiveAdd" => return objectiveAdd (← text "name")
  | "ScoreSet" => return scoreSet (← holder "holder") (← text "objective") (← value)
  | "ScoreAdd" => return scoreAdd (← holder "holder") (← text "objective") (← value)
  | "ScoreRemove" => return scoreRemove (← holder "holder") (← text "objective") (← value)
  | "ScoreOperation" =>
    return scoreOperation (← holder "target") (← text "target_objective")
      (← Json.field c "op" ScoreOp.decode) (← holder "source") (← text "source_objective")
  | "ScoreGet" => return scoreGet (← holder "holder") (← text "objective")
  | "ScoreReset" =>
    return scoreReset (← holder "holder") (← Json.field? c "objective" Decoder.text)
  | "TagAdd" => return tagAdd (← selector "target") (← text "tag")
  | "TagRemove" => return tagRemove (← selector "target") (← text "tag")
  | "Function" => return function (← FunctionPath.decode c)
  | "DataMerge" => return dataMerge (← selector "target") (← Json.field c "data" Compound.decode)
  | "Teleport" =>
    let (yaw, pitch) ← Json.field c "rotation" turnDecode
    return teleport (← selector "target") (← Json.field c "local" Vec3.decode) yaw pitch
  | "Summon" => return summon (← text "entity") (← Json.field c "data" Compound.decode)
  | "Kill" => return kill (← Selector.decode c)
  | "Raw" => return raw (← Decoder.text c)
  | "Comment" => return comment (← Decoder.text c)
  | _ => .error (.mismatch "a command")

/-- Reads a command that is nested less than `fuel` levels deep. -/
def decodeNested : Nat → Decoder Command
  | 0, _ => .error (.mismatch "a command that is not nested too deeply")
  | fuel + 1, j => do
    let (name, c) ← Json.theRecordCase layouts j
    if name = "Execute" then
      return execute (← Json.field c "clauses" (Decoder.list Clause.decode))
        (← Json.field c "run" (decodeNested fuel))
    else decodeSimple name c

/-- Reads a command.  A document is never nested deeper than `Json.maxDepth`. -/
def decode : Decoder Command :=
  decodeNested (Json.maxDepth + 1)

end Command

end Marionette
