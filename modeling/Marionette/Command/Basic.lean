import Marionette.Datum.Printer
import Marionette.Geometry.Vec3

/-!
# Commands

Functions are lists of commands.  The structure of a command is kept until it is written, so that a
simulated world runs exactly what is written.

- `FunctionPath`, `Selector`, `Holder`, `ScoreRange`: what commands refer to.
- `Clause`: a part of an `execute` command.
- `Command`: one line of a function.
- `Command.text`: the line as it is written.
-/

namespace Marionette

/-- The name of a function. -/
structure FunctionPath where
  /-- Name space. -/
  namespaceName : String
  /-- Path within the name space. -/
  path : String
deriving DecidableEq, Repr, Hashable, Inhabited

namespace FunctionPath

/-- A path below another. -/
def join (f : FunctionPath) (segment : String) : FunctionPath :=
  ⟨f.namespaceName, f.path ++ "/" ++ segment⟩

/-- The name as commands write it. -/
def text (f : FunctionPath) : String :=
  f.namespaceName ++ ":" ++ f.path

/-- Reads a name as commands write it: it is split at its first colon, and both parts may be
empty. -/
def ofText? (s : String) : Option FunctionPath :=
  match s.toList.dropWhile (· != ':') with
  | [] => none
  | _ :: path => some ⟨String.ofList (s.toList.takeWhile (· != ':')), String.ofList path⟩

/-- The file of the function within a pack. -/
def filePath (f : FunctionPath) : String :=
  s!"data/{f.namespaceName}/function/{f.path}.mcfunction"

end FunctionPath

/-- Which entities a selector starts from. -/
inductive SelectorBase where
  /-- The executing entity. -/
  | this
  /-- All entities. -/
  | entities
deriving DecidableEq, Repr, Inhabited

/-- Picks entities. -/
structure Selector where
  /-- Where to start. -/
  base : SelectorBase
  /-- Only entities of a type. -/
  entityType : Option String := none
  /-- Only entities with a tag, or without it where the second part is true. -/
  tags : List (String × Bool) := []
deriving DecidableEq, Repr, Inhabited

namespace Selector

/-- The executing entity. -/
def this : Selector := { base := .this }

/-- All entities. -/
def entities : Selector := { base := .entities }

/-- Only entities of a type. -/
def ofType (s : Selector) (entityType : String) : Selector :=
  { s with entityType := some entityType }

/-- Only entities with a tag. -/
def tagged (s : Selector) (tag : String) : Selector :=
  { s with tags := s.tags ++ [(tag, false)] }

/-- Only entities without a tag. -/
def notTagged (s : Selector) (tag : String) : Selector :=
  { s with tags := s.tags ++ [(tag, true)] }

/-- The filters of a selector. -/
def filters (s : Selector) : List String :=
  (s.entityType.toList.map fun t => "type=" ++ t) ++
    s.tags.map fun t => "tag=" ++ (if t.2 then "!" else "") ++ t.1

/-- The selector as commands write it. -/
def text (s : Selector) : String :=
  let base := match s.base with
    | .this => "@s"
    | .entities => "@e"
  if s.filters.isEmpty then base else base ++ "[" ++ String.intercalate "," s.filters ++ "]"

end Selector

/-- Who owns a score. -/
inductive Holder where
  /-- Entities. -/
  | entity (selector : Selector)
  /-- A name that stands for no entity. -/
  | fake (name : String)
deriving DecidableEq, Repr, Inhabited

namespace Holder

/-- The executing entity. -/
def this : Holder := .entity .this

/-- The holder as commands write it. -/
def text : Holder → String
  | entity selector => selector.text
  | fake name => name

end Holder

/-- Scores between two bounds, both included; a bound may be open. -/
structure ScoreRange where
  /-- Least score. -/
  min : Option Int32
  /-- Greatest score. -/
  max : Option Int32
deriving DecidableEq, Repr, Inhabited

namespace ScoreRange

/-- A single score. -/
def exact (v : Int32) : ScoreRange := ⟨some v, some v⟩

/-- Scores between two bounds. -/
def between (lo hi : Int32) : ScoreRange := ⟨some lo, some hi⟩

/-- Scores from a bound on. -/
def atLeast (lo : Int32) : ScoreRange := ⟨some lo, none⟩

/-- Scores up to a bound. -/
def atMost (hi : Int32) : ScoreRange := ⟨none, some hi⟩

/-- The score lies in the range. -/
def contains (r : ScoreRange) (v : Int32) : Bool :=
  (r.min.all fun m => m ≤ v) && r.max.all fun m => v ≤ m

/-- The range as commands write it. -/
def text (r : ScoreRange) : String :=
  let number (v : Int32) := toString v.toInt
  match r.min, r.max with
  | some a, some b => if a = b then number a else number a ++ ".." ++ number b
  | some a, none => number a ++ ".."
  | none, some b => ".." ++ number b
  | none, none => ".."

end ScoreRange

/-- How a score is combined with another. -/
inductive ScoreOp where
  | assign | add | sub | min | max
deriving DecidableEq, Repr, Inhabited

/-- The sign of an operation. -/
def ScoreOp.sign : ScoreOp → String
  | .assign => "="
  | .add => "+="
  | .sub => "-="
  | .min => "<"
  | .max => ">"

/-- A part of an `execute` command. -/
inductive Clause where
  /-- Goes on if a score lies in a range, or else if it does not. -/
  | score (negate : Bool) (holder : Holder) (objective : String) (range : ScoreRange)
  /-- Goes on if an entity is picked, or else if none is. -/
  | entity (negate : Bool) (selector : Selector)
  /-- Goes on as each picked entity. -/
  | asEach (selector : Selector)
  /-- Goes on at each picked entity. -/
  | atEach (selector : Selector)
  /-- Goes on as each passenger of the executing entity. -/
  | onPassengers
  /-- Goes on at an offset along the own axes. -/
  | positionedLocal (offset : Vec3)
  /-- Goes on turned by yaw and pitch. -/
  | rotatedRelative (yaw pitch : Float)
  /-- Keeps the result in the data of the executing entity. -/
  | storeResultEntity (path : String)
  /-- Keeps the result in a score. -/
  | storeResultScore (holder : Holder) (objective : String)
  /-- A clause of the author, kept as it is. -/
  | raw (text : String)
deriving Repr, Inhabited

/-- A coordinate as commands write it: minus zero is written as zero. -/
def coordinate (v : Float) : String :=
  Decimal.doubleText (if v == 0 then 0 else v)

/-- An offset along the own axes as commands write it. -/
def localText (v : Vec3) : String :=
  s!"^{coordinate v.x} ^{coordinate v.y} ^{coordinate v.z}"

/-- A turn as commands write it. -/
def turnText (yaw pitch : Float) : String :=
  s!"~{coordinate yaw} ~{coordinate pitch}"

namespace Clause

/-- Goes on if a score lies in a range. -/
def ifScore (holder : Holder) (objective : String) (range : ScoreRange) : Clause :=
  score false holder objective range

/-- Goes on unless a score lies in a range. -/
def unlessScore (holder : Holder) (objective : String) (range : ScoreRange) : Clause :=
  score true holder objective range

/-- Goes on if an entity is picked. -/
def ifEntity (selector : Selector) : Clause := entity false selector

/-- Goes on unless an entity is picked. -/
def unlessEntity (selector : Selector) : Clause := entity true selector

/-- The word in front of a test. -/
def testWord (negate : Bool) : String :=
  if negate then "unless" else "if"

/-- The clause as commands write it. -/
def text : Clause → String
  | score negate holder objective range =>
    s!"{testWord negate} score {holder.text} {objective} matches {range.text}"
  | entity negate selector => s!"{testWord negate} entity {selector.text}"
  | asEach selector => s!"as {selector.text}"
  | atEach selector => s!"at {selector.text}"
  | onPassengers => "on passengers"
  | positionedLocal offset => s!"positioned {localText offset}"
  | rotatedRelative yaw pitch => s!"rotated {turnText yaw pitch}"
  | storeResultEntity path => s!"store result entity @s {path} int 1"
  | storeResultScore holder objective => s!"store result score {holder.text} {objective}"
  | raw text => text

end Clause

/-- One line of a function. -/
inductive Command where
  /-- Creates an objective. -/
  | objectiveAdd (name : String)
  /-- Sets scores. -/
  | scoreSet (holder : Holder) (objective : String) (value : Int32)
  /-- Adds to scores. -/
  | scoreAdd (holder : Holder) (objective : String) (value : Int32)
  /-- Subtracts from scores. -/
  | scoreRemove (holder : Holder) (objective : String) (value : Int32)
  /-- Combines scores with others. -/
  | scoreOperation (target : Holder) (targetObjective : String) (op : ScoreOp) (source : Holder)
      (sourceObjective : String)
  /-- Looks a score up. -/
  | scoreGet (holder : Holder) (objective : String)
  /-- Removes scores, of one objective or of all. -/
  | scoreReset (holder : Holder) (objective : Option String)
  /-- Adds a tag. -/
  | tagAdd (target : Selector) (tag : String)
  /-- Removes a tag. -/
  | tagRemove (target : Selector) (tag : String)
  /-- Runs a function. -/
  | function (path : FunctionPath)
  /-- Runs a command under clauses. -/
  | execute (clauses : List Clause) (run : Command)
  /-- Merges data into entities. -/
  | dataMerge (target : Selector) (data : Compound)
  /-- Moves entities along their own axes and turns them. -/
  | teleport (target : Selector) (offset : Vec3) (yaw pitch : Float)
  /-- Creates an entity. -/
  | summon (entity : String) (data : Compound)
  /-- Removes entities. -/
  | kill (selector : Selector)
  /-- A command of the author, kept as it is. -/
  | raw (text : String)
  /-- A line that does nothing. -/
  | comment (text : String)
deriving Inhabited

namespace Command

/-- Copies a score. -/
def copyScore (target : Holder) (targetObjective : String) (source : Holder)
    (sourceObjective : String) : Command :=
  scoreOperation target targetObjective .assign source sourceObjective

/-- The command is a comment. -/
def isComment : Command → Bool
  | comment _ => true
  | _ => false

/-- The line as it is written; data with a float that is not finite cannot be. -/
def text : Command → Except Datum.Fault String
  | objectiveAdd name => .ok s!"scoreboard objectives add {name} dummy"
  | scoreSet holder objective value =>
    .ok s!"scoreboard players set {holder.text} {objective} {value.toInt}"
  | scoreAdd holder objective value =>
    .ok s!"scoreboard players add {holder.text} {objective} {value.toInt}"
  | scoreRemove holder objective value =>
    .ok s!"scoreboard players remove {holder.text} {objective} {value.toInt}"
  | scoreOperation target targetObjective op source sourceObjective =>
    let left := s!"{target.text} {targetObjective}"
    .ok s!"scoreboard players operation {left} {op.sign} {source.text} {sourceObjective}"
  | scoreGet holder objective => .ok s!"scoreboard players get {holder.text} {objective}"
  | scoreReset holder (some objective) =>
    .ok s!"scoreboard players reset {holder.text} {objective}"
  | scoreReset holder none => .ok s!"scoreboard players reset {holder.text}"
  | tagAdd target tag => .ok s!"tag {target.text} add {tag}"
  | tagRemove target tag => .ok s!"tag {target.text} remove {tag}"
  | function path => .ok s!"function {path.text}"
  | execute clauses run => do
    let head := String.join (clauses.map fun c => " " ++ c.text)
    let tail ← run.text
    return s!"execute{head} run {tail}"
  | dataMerge target data => do
    let written ← data.render .compact
    return s!"data merge entity {target.text} {written}"
  | teleport target offset yaw pitch =>
    .ok s!"tp {target.text} {localText offset} {turnText yaw pitch}"
  | summon entity data => do
    let written ← data.render .compact
    return s!"summon {entity} ~ ~ ~ {written}"
  | kill selector => .ok s!"kill {selector.text}"
  | raw text => .ok text
  | comment text => .ok s!"# {text}"

end Command

end Marionette
