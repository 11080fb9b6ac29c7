import Marionette.Bisection
import Marionette.Compile
import Marionette.Disk
import Marionette.Json.Record

/-!
# Emission

A pack is written into a directory, file by file, and then the list of its files.  Files that the
list of an earlier emission names and the new pack does not write are removed.

- `Manifest`: the list of written files; `Manifest.contains`.
- `Progress`: how many files are done.
- `readManifest`: the list that an earlier emission left.
- `emit`: writes a pack.
-/

namespace Marionette

/-- The files of one emission, relative to its directory. -/
structure Manifest where
  /-- Paths in order, that of the list itself included. -/
  files : List String
deriving DecidableEq, Repr

namespace Manifest

/-- The list names a path.  It is searched by bisection, so its paths have to be in order. -/
def contains (m : Manifest) (path : String) : Bool :=
  let files := m.files.toArray
  let place := Bisection.narrow (fun i => (files[i]?).any fun f => !(path < f)) files.size 0
  files[place]? == some path

/-- Reads a list of files from a text. -/
def ofText (s : String) : Except DecodeFault Manifest :=
  Decoder.ofRecordText ["files"] 1
    (fun j => (Json.field j "files" (Decoder.list Decoder.text)).map Manifest.mk) s

/-- The list as it is written. -/
def text (m : Manifest) : String :=
  (Json.obj [("files", .ofTexts m.files)]).pretty ++ "\n"

end Manifest

/-- How many files are done. -/
structure Progress where
  /-- Files to be written. -/
  total : Nat := 0
  /-- Files written so far. -/
  completed : Nat := 0
deriving DecidableEq, Repr

namespace Progress

/-- The share that is done; zero before the start. -/
def fraction (p : Progress) : Float :=
  if p.total = 0 then 0 else p.completed.toFloat / p.total.toFloat

/-- Starts with a number of files. -/
def start (total : Nat) : Progress := ⟨total, 0⟩

/-- Some files are done. -/
def advance (p : Progress) (completed : Nat) : Progress := { p with completed := completed }

end Progress

/-- What an emission changes. -/
structure EmitState where
  /-- Files and directories. -/
  disk : Disk
  /-- How many files are done. -/
  progress : Progress := {}

/-- A step of an emission; where it fails, what has been written stays. -/
abbrev Emit (α : Type) := ExceptT Failure (StateM EmitState) α

/-- The failure to read or write a file. -/
def ioFailure (path reason : String) : Failure := .bake (.ioError path reason)

/-- The list that an earlier emission left, if any. -/
def readManifest (d : Disk) (dir : List Step) (config : Config) :
    Except BakeError (Option Manifest) :=
  let path := config.manifestName
  match d.find? dir (Route.ofText path) with
  | none => .ok none
  | some (.directory _) => .error (.ioError path "is a directory")
  | some (.file contents) =>
    match Manifest.ofText contents with
    | .ok m => .ok (some m)
    | .error fault => .error (.serializationError fault.message)

/-- Writes one file with the directories above it. -/
def emitFile (dir : List Step) (path contents : String) : Emit Unit := do
  let s ← get
  let (disk, written) := s.disk.write dir (Route.ofText path) contents
  set { s with disk := disk }
  if !written then throw (ioFailure path "cannot be written")

/-- Reports how many files are done. -/
def report (completed : Nat) : Emit Unit :=
  modify fun s => { s with progress := s.progress.advance completed }

/-- Writes files in order; `done` have been written before. -/
def emitFiles (dir : List Step) : Nat → List (String × PackFile) → Emit Unit
  | _, [] => return
  | done, (path, file) :: rest => do
    let contents ← liftM (orUnwritable file.contents)
    emitFile dir path contents
    report (done + 1)
    emitFiles dir (done + 1) rest

/-- Paths of an earlier emission that the new one does not write and that may be removed. -/
def stalePaths (previous : Option Manifest) (m : Manifest) : List String :=
  match previous with
  | none => []
  | some p => p.files.filter fun f => !m.contains f && isRelativeInside f

/-- The list of the files of a pack. -/
def manifestOf (pack : Datapack) (config : Config) : Manifest :=
  ⟨pack.paths.filter (· < config.manifestName) ++ [config.manifestName] ++
    pack.paths.filter (config.manifestName < ·)⟩

/-- Writes a pack into a directory and gives the list of its files. -/
def emit (pack : Datapack) (dir : List Step) (config : Config) : Emit Manifest := do
  if (pack.get? config.manifestName).isSome then
    throw (.bake (.duplicateOutput config.manifestName))
  let previous ← liftM (orFail (readManifest (← get).disk dir config))
  let m := manifestOf pack config
  let total := pack.size + 1
  modify fun s => { s with progress := .start total }
  emitFiles dir 0 pack.toList
  emitFile dir config.manifestName m.text
  report total
  let stale := (stalePaths previous m).map Route.ofText
  modify fun s => { s with disk := stale.foldl (fun d r => d.removeFile dir r) s.disk }
  return m

end Marionette
