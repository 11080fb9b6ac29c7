import Marionette.Command.Basic
import Marionette.Error
import Marionette.Json.Printer
import Std.Data.TreeMap

/-!
# Packs

A pack holds every generated file under its path, in the order of the paths.

- `PackFile`: a function or a text; `PackFile.contents` is what is written.
- `Datapack`: the files of a pack; `add`, `addFunction`, `addJson` and `extend` refuse a path that
  is taken.
- `addUntilTaken`: keeps what was added before such a path.
-/

namespace Marionette

/-- A file of a pack. -/
inductive PackFile where
  /-- A function with its commands. -/
  | function (path : FunctionPath) (commands : List Command)
  /-- Any other text. -/
  | text (contents : String)
deriving Inhabited

/-- The contents of a file: a function has one command on a line. -/
def PackFile.contents : PackFile → Except Datum.Fault String
  | .function _ commands => do
    let lines ← commands.mapM Command.text
    return String.join (lines.map fun line => line ++ "\n")
  | .text contents => .ok contents

/-- The files of a pack, in the order of their paths. -/
structure Datapack where
  /-- Each file under its path. -/
  files : Std.TreeMap String PackFile := {}
deriving Inhabited

namespace Datapack

/-- Adds a file under a path that is not taken. -/
def add (p : Datapack) (path : String) (file : PackFile) : Except BakeError Datapack :=
  if p.files.contains path then .error (.duplicateOutput path)
  else .ok ⟨p.files.insert path file⟩

/-- Adds a function. -/
def addFunction (p : Datapack) (path : FunctionPath) (commands : List Command) :
    Except BakeError Datapack :=
  p.add path.filePath (.function path commands)

/-- Adds functions in order. -/
def addFunctions (p : Datapack) (functions : List (FunctionPath × List Command)) :
    Except BakeError Datapack :=
  functions.foldlM (fun p f => p.addFunction f.1 f.2) p

/-- Adds a text. -/
def addText (p : Datapack) (path contents : String) : Except BakeError Datapack :=
  p.add path (.text contents)

/-- Adds a document over several lines, with a line end after it. -/
def addJson (p : Datapack) (path : String) (value : Json) : Except BakeError Datapack :=
  p.addText path (value.pretty ++ "\n")

/-- The files with their paths, in order. -/
def toList (p : Datapack) : List (String × PackFile) := p.files.toList

/-- Adds files in order, up to the first one whose path is taken: the pack with the files before
that one, and the reason why it stopped. -/
def addUntilTaken (p : Datapack) : List (String × PackFile) → Datapack × Except BakeError Unit
  | [] => (p, .ok ())
  | (path, file) :: rest =>
    match p.add path file with
    | .ok added => added.addUntilTaken rest
    | .error e => (p, .error e)

/-- Adds every file of another pack, in the order of the paths. -/
def extend (p other : Datapack) : Except BakeError Datapack :=
  let (extended, result) := p.addUntilTaken other.toList
  result.map fun _ => extended

/-- The number of files. -/
def size (p : Datapack) : Nat := p.files.size

/-- The paths in order. -/
def paths (p : Datapack) : List String := p.files.keys

/-- The file of a path. -/
def get? (p : Datapack) (path : String) : Option PackFile := p.files[path]?

/-- The commands of a function. -/
def function? (p : Datapack) (path : FunctionPath) : Option (List Command) :=
  match p.get? path.filePath with
  | some (.function _ commands) => some commands
  | _ => none

/-- All functions, in the order of their files. -/
def functions (p : Datapack) : List (FunctionPath × List Command) :=
  p.toList.filterMap fun f => match f.2 with
    | .function path commands => some (path, commands)
    | .text _ => none

end Datapack

end Marionette
