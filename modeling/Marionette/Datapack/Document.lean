import Marionette.Command.Document
import Marionette.Datapack

/-!
# Files of packs in documents

- `PackItem`: a file that is not in a pack yet: a function, a text, or a document.
- `PackItem.Refusal`: why a file is not added to a pack.
- `PackItem.addTo`, `PackItem.pack`: add a file to a pack, or several files to an empty one.
-/

namespace Marionette

/-- A file that is not in a pack yet. -/
inductive PackItem where
  /-- A function with its commands, by its name as commands write it. -/
  | function (name : String) (commands : List Command)
  /-- A text. -/
  | text (path contents : String)
  /-- A document in its generic form. -/
  | document (path : String) (value : Json)

namespace PackItem

/-- Reads a file; the member that holds its path tells what it is. -/
def decode : Decoder PackItem := fun j =>
  let asFunction : Except DecodeFault PackItem := do
    return .function (← Json.field j "function" Decoder.text)
      (← Json.field j "commands" (Decoder.list Command.decode))
  let asText : Except DecodeFault PackItem := do
    return .text (← Json.field j "text" Decoder.text) (← Json.field j "contents" Decoder.text)
  let asDocument : Except DecodeFault PackItem := do
    return .document (← Json.field j "json" Decoder.text) (← Json.field j "value" .ok).sorted
  asFunction <|> asText <|> asDocument

/-- Why a file is not added to a pack. -/
inductive Refusal where
  /-- The pack does not take it. -/
  | bake (e : BakeError)
  /-- What names a function has no colon, so there is no path for it. -/
  | noFunctionName (name : String)

/-- The path that a name stands for. -/
def functionPath (name : String) : Except Refusal FunctionPath :=
  match FunctionPath.ofText? name with
  | some path => .ok path
  | none => .error (.noFunctionName name)

/-- Adds a file to a pack. -/
def addTo (p : Datapack) : PackItem → Except Refusal Datapack
  | function name commands => do
    (p.addFunction (← functionPath name) commands).mapError .bake
  | text path contents => (p.addText path contents).mapError .bake
  | document path value => (p.addJson path value).mapError .bake

/-- The pack of several files. -/
def pack (items : List PackItem) : Except Refusal Datapack :=
  items.foldlM addTo {}

end PackItem

end Marionette
