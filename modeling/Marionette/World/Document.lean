import Marionette.Animation.Document
import Marionette.World.Basic

/-!
# Worlds in documents

- `Entity.encode`: writes an entity with its data as text.
- `RawOutput.encode`: writes a recorded command.
-/

namespace Marionette

/-- Writes an entity.  Its data is written as text, which is not possible for every float. -/
def Entity.encode (e : Entity) : Except Datum.Fault Json := do
  let data ← e.data.render .compact
  let number (n : Nat) : Json := .int n
  let turned (t : Vec3 × Float × Float) : Json :=
    .arr [.ofDoubles t.1.toList, .ofDoubles [t.2.1, t.2.2]]
  return .obj [("id", number e.id), ("type", .str e.entityType), ("tags", .ofTexts e.tags),
    ("data", .str data), ("vehicle", .ofOption number e.vehicle),
    ("passengers", .arr (e.passengers.map number)), ("alive", .bool e.alive),
    ("teleport", .ofOption turned e.teleport),
    ("transformation", .ofOption .ofSingles e.transformation?)]

/-- Writes a recorded command with the number of the executing entity. -/
def RawOutput.encode (o : RawOutput) : Json :=
  .arr [.ofOption (fun (n : Nat) => .int n) o.executor, .str o.command]

end Marionette
