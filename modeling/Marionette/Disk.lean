import Marionette.Text.Blank

/-!
# Files and directories

A file system without links.  A path is read step by step from a directory: empty steps and single
dots change nothing, and two dots lead up.  A path that is too long as a text, or that holds the
null character, names nothing and can hold nothing.

- `Route`: the steps of a path; `Route.ofText` reads them.
- `Disk`: files and directories; `Disk.get?` tells what stands at a place.
- `Disk.put`, `Disk.erase`: change what stands at a place.
- `Disk.createDirectories`, `Disk.write`, `Disk.read?`, `Disk.removeFile`: the operations on paths.
- `isRelativeInside`: paths that stay below the directory that they are joined onto.
-/

namespace Marionette

/-- One step of a path. -/
inductive Step where
  /-- Down to an entry of a directory. -/
  | down (name : String)
  /-- Up to the directory above. -/
  | up
deriving DecidableEq, Repr

/-- A path below some directory. -/
structure Route where
  /-- The path as it is written. -/
  text : String
  /-- The path of the directory above what the path names. -/
  above : String
  /-- The path starts at the root of the file system. -/
  absolute : Bool
  /-- The steps. -/
  steps : List Step
  /-- The path can only name a directory: it ends with a separator or with a single dot. -/
  directoryOnly : Bool
deriving DecidableEq, Repr

/-- The pieces of a path between separators; there is an empty one for every needless separator. -/
def pathPieces (path : String) : List String :=
  (Text.splitChars '/' path.toList).map String.ofList

/-- A piece of a path that leads nowhere else. -/
def isIdlePiece (piece : String) : Bool :=
  piece = "" || piece = "."

/-- The pieces without those at the end that lead nowhere else. -/
def dropIdleEnd (pieces : List String) : List String :=
  (pieces.reverse.dropWhile isIdlePiece).reverse

/-- The steps of a path. -/
def Route.ofText (path : String) : Route :=
  let pieces := pathPieces path
  { text := path
    above := String.intercalate "/" (dropIdleEnd (dropIdleEnd pieces).dropLast)
    absolute := path.startsWith "/"
    steps := (pieces.filter fun piece => !isIdlePiece piece).map fun piece =>
      if piece = ".." then .up else .down piece
    directoryOnly := pieces.getLast?.any isIdlePiece }

/-- A path that stays below the directory that it is joined onto: it has a piece, starts neither at
the root nor with a single dot, and never goes up. -/
def isRelativeInside (path : String) : Bool :=
  let pieces := (pathPieces path).filter (· != "")
  !path.startsWith "/" && pieces.head?.any (· != ".") && pieces.all (· != "..")

/-- What stands at a place. -/
inductive DiskEntry where
  /-- A file with its contents. -/
  | file (contents : String)
  /-- A directory with its entries. -/
  | directory (entries : List (String × DiskEntry))

namespace DiskEntry

/-- The entry is a directory. -/
def isDirectory : DiskEntry → Bool
  | file _ => false
  | directory _ => true

/-- The entries of a directory; a file has none. -/
def entries : DiskEntry → List (String × DiskEntry)
  | file _ => []
  | directory es => es

/-- What stands at a place below an entry. -/
def get? (e : DiskEntry) : List String → Option DiskEntry
  | [] => some e
  | name :: rest => (e.entries.lookup name).bind fun child => child.get? rest

/-- The entries with another value for a name; a new name comes last. -/
def setEntry (name : String) (entry : DiskEntry) :
    List (String × DiskEntry) → List (String × DiskEntry)
  | [] => [(name, entry)]
  | (n, e) :: rest => if n = name then (n, entry) :: rest else (n, e) :: setEntry name entry rest

/-- Puts something at a place whose directory is there. -/
def put (e : DiskEntry) (place : List String) (new : DiskEntry) : DiskEntry :=
  match place with
  | [] => new
  | name :: rest =>
    match e with
    | file contents => file contents
    | directory es =>
      directory (setEntry name (((es.lookup name).getD (directory [])).put rest new) es)

/-- Leaves a place empty. -/
def erase (e : DiskEntry) (place : List String) : DiskEntry :=
  match place, e with
  | [], e => e
  | _, file contents => file contents
  | [name], directory es => directory (es.filter fun entry => entry.1 != name)
  | name :: rest, directory es =>
    match es.lookup name with
    | none => directory es
    | some child => directory (setEntry name (child.erase rest) es)

mutual

/-- The places of all files below an entry. -/
def filePlaces : DiskEntry → List (List String)
  | file _ => [[]]
  | directory es => filePlacesOf es

/-- The places of all files below the entries of a directory. -/
def filePlacesOf : List (String × DiskEntry) → List (List String)
  | [] => []
  | (name, e) :: rest => (filePlaces e).map (name :: ·) ++ filePlacesOf rest

end

end DiskEntry

/-- A file system. -/
structure Disk where
  /-- The directory at the root. -/
  root : DiskEntry := .directory []
deriving Inhabited

namespace Disk

/-- What stands at a place below the root. -/
def get? (d : Disk) (place : List String) : Option DiskEntry :=
  d.root.get? place

/-- Puts something at a place. -/
def put (d : Disk) (place : List String) (entry : DiskEntry) : Disk :=
  ⟨d.root.put place entry⟩

/-- Leaves a place empty. -/
def erase (d : Disk) (place : List String) : Disk :=
  ⟨d.root.erase place⟩

/-- A directory stands at a place. -/
def isDirectory (d : Disk) (place : List String) : Bool :=
  (d.get? place).any DiskEntry.isDirectory

/-- The most bytes that the name of an entry can have. -/
def maxNameSize : Nat := 255

/-- The most bytes that a path can have as a text. -/
def maxPathSize : Nat := 4095

/-- A name that an entry can have. -/
def isEntryName (name : String) : Bool :=
  name.utf8ByteSize ≤ maxNameSize

/-- The bytes of the text of a path from the root. -/
def pathSize : List Step → Nat
  | [] => 0
  | .down name :: rest => 1 + name.utf8ByteSize + pathSize rest
  | .up :: rest => 3 + pathSize rest

/-- A path that can be asked for below a directory: it has no null character and is not too long
as a text. -/
def isPath (base : List Step) (r : Route) (text : String) : Bool :=
  text.toList.all (· != '\x00') &&
    (if r.absolute then 0 else pathSize base + 1) + text.utf8ByteSize ≤ maxPathSize

/-- The steps of a path from the root. -/
def stepsFrom (base : List Step) (r : Route) : List Step :=
  if r.absolute then r.steps else base ++ r.steps

/-- The place that steps lead to from a directory, if they pass through directories only. -/
def walk? (d : Disk) (place : List String) : List Step → Option (List String)
  | [] => some place
  | .up :: rest => walk? d place.dropLast rest
  | .down name :: rest =>
    let next := place ++ [name]
    if d.isDirectory next then walk? d next rest else none

/-- The place that a path names below a directory; what is on the way has to be directories. -/
def resolve? (d : Disk) (base : List Step) (r : Route) : Option (List String) :=
  if !isPath base r r.text then none
  else
    let steps := stepsFrom base r
    match steps.getLast? with
    | some (.down name) => (d.walk? [] steps.dropLast).map (· ++ [name])
    | _ => d.walk? [] steps

/-- What a path names below a directory. -/
def find? (d : Disk) (base : List Step) (r : Route) : Option DiskEntry := do
  let entry ← d.get? (← d.resolve? base r)
  if r.directoryOnly && !entry.isDirectory then none else some entry

/-- The contents of a file. -/
def read? (d : Disk) (base : List Step) (r : Route) : Option String :=
  match d.find? base r with
  | some (.file contents) => some contents
  | _ => none

/-- Follows steps from a place and creates the directories that are missing.  Where that is not
possible the directories created so far stay, and the flag is false. -/
def createFrom (d : Disk) (place : List String) : List Step → Disk × Bool
  | [] => (d, true)
  | .up :: rest => createFrom d place.dropLast rest
  | .down name :: rest =>
    let next := place ++ [name]
    match d.get? next with
    | some (.directory _) => createFrom d next rest
    | some (.file _) => (d, false)
    | none =>
      if isEntryName name then createFrom (d.put next (.directory [])) next rest else (d, false)

/-- Creates the directory above what a path names, with everything on the way.  Nothing is created
for a path that cannot be asked for. -/
def createDirectories (d : Disk) (base : List Step) (r : Route) : Disk × Bool :=
  if isPath base r r.above then createFrom d [] (stepsFrom base r).dropLast else (d, false)

/-- Writes a file in a directory that is there; gives nothing if that is not possible. -/
def writeFile? (d : Disk) (base : List Step) (r : Route) (contents : String) : Option Disk := do
  match (stepsFrom base r).getLast? with
  | some (.down name) =>
    let place ← d.resolve? base r
    if r.directoryOnly || d.isDirectory place || !isEntryName name then none
    else some (d.put place (.file contents))
  | _ => none

/-- Writes a file and creates the directories above it.  Where that is not possible the flag is
false. -/
def write (d : Disk) (base : List Step) (r : Route) (contents : String) : Disk × Bool :=
  match d.createDirectories base r with
  | (d, false) => (d, false)
  | (d, true) =>
    match d.writeFile? base r contents with
    | some d => (d, true)
    | none => (d, false)

/-- Removes a file; what is no file stays. -/
def removeFile (d : Disk) (base : List Step) (r : Route) : Disk :=
  match d.read? base r, d.resolve? base r with
  | some _, some place => d.erase place
  | _, _ => d

/-- The places of all files. -/
def filePlaces (d : Disk) : List (List String) :=
  d.root.filePlaces

end Disk

end Marionette
