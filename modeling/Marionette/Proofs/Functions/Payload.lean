import Marionette.Functions.Rig
import Marionette.Proofs.Datum.Compound
import Marionette.Proofs.World.Spawning

/-!
# The data of a new instance

- `Stage.bodies`: the nodes with entities, each with its pose at rest.
- `Stage.ofData_summonPayload`: the data of a new instance says to summon a root with the entities
  of these nodes as passengers.
- `mem_tagsOf_bodyData`, `get?_bodyData_transformation`: what the entity of a node starts with.
-/

namespace Marionette

namespace Stage

variable (s : Stage)

/-- The nodes with entities, each with its pose at rest. -/
def bodies : List (Slot × Pose) :=
  (s.rig.slots.toList.zip s.rest).filter fun b => b.1.node.kind.hasEntity

/-- The data of the entity of a node at rest. -/
def bodyData (b : Slot × Pose) : Compound :=
  [("id", .string b.1.node.kind.entityType),
      ("Tags", .strings [s.names.nodeTag b.1.storageName, s.names.anyNodeTag])] ++
    s.contents b.1.node ++
    [("transformation", transformation b.2.matrix),
      ("interpolation_duration", .int s.defaultInterp)]

/-- The plan of the entity of a node. -/
def bodyPlan (b : Slot × Pose) : EntityPlan :=
  .mk b.1.node.kind.entityType (tagsOf (s.bodyData b)) (ownData (s.bodyData b)) []

variable {s} {b : Slot × Pose}

theorem passenger?_eq (s : Stage) (b : Slot × Pose) :
    s.passenger? b.1 b.2 = if b.1.node.kind.hasEntity then some (s.bodyData b) else none := rfl

/-- What a node shows is an item, a block or a text. -/
theorem fst_mem_contents {e : String × Datum} {node : RigNode} (he : e ∈ s.contents node) :
    e.1 ∈ ["item", "block_state", "text"] := by
  unfold contents at he
  split at he
  · obtain ⟨model, -, rfl⟩ := List.mem_map.1 he
    simp
  · rw [List.mem_singleton.1 he]
    simp
  · rw [List.mem_singleton.1 he]
    simp
  · rw [List.mem_singleton.1 he]
    simp
  · cases he
  · cases he

theorem fst_mem_bodyData {e : String × Datum} (he : e ∈ s.bodyData b) :
    e.1 ∈ ["id", "Tags", "item", "block_state", "text", "transformation",
      "interpolation_duration"] := by
  simp only [bodyData, List.mem_append, List.mem_cons, List.not_mem_nil, or_false] at he
  rcases he with ((rfl | rfl) | he) | rfl | rfl
  · simp
  · simp
  · have := fst_mem_contents he
    simp only [List.mem_cons, List.not_mem_nil, or_false] at this ⊢
    tauto
  · simp
  · simp

theorem mem_tagsOf_bodyData {t : String} :
    t ∈ tagsOf (s.bodyData b) ↔ t = s.names.nodeTag b.1.storageName ∨ t = s.names.anyNodeTag := by
  have htags : Compound.get? (s.bodyData b) "Tags" =
      some (.strings [s.names.nodeTag b.1.storageName, s.names.anyNodeTag]) := rfl
  rw [mem_tagsOf htags]
  simp

theorem get?_bodyData_transformation (s : Stage) (b : Slot × Pose) :
    Compound.get? (ownData (s.bodyData b)) "transformation" =
      some (transformation b.2.matrix) := by
  have hkeys : "transformation" ≠ "id" ∧ "transformation" ≠ "Passengers" ∧
      "transformation" ≠ "Tags" := by simp
  rw [ownData, Compound.get?_erase_of_ne _ hkeys.1, Compound.get?_erase_of_ne _ hkeys.2.1,
    Compound.get?_erase_of_ne _ hkeys.2.2]
  have hcontents : ∀ entries : Compound, (∀ e ∈ entries, e.1 ∈ ["item", "block_state", "text"]) →
      ∀ rest, Compound.get? (entries ++ rest) "transformation" =
        Compound.get? rest "transformation" := by
    intro entries h rest
    induction entries with
    | nil => rfl
    | cons e entries ih =>
      obtain ⟨hkey, hentries⟩ := List.forall_mem_cons.1 h
      rw [List.cons_append, Compound.get?_cons, if_neg, ih hentries]
      intro heq
      rw [heq] at hkey
      simp at hkey
  show Compound.get? ((s.contents b.1.node) ++ _) "transformation" = _
  rw [hcontents _ fun e he => fst_mem_contents he]
  rfl

theorem ofEach_bodyData (bs : List (Slot × Pose)) :
    EntityPlan.ofEach (bs.map fun b => .compound (s.bodyData b)) = bs.map s.bodyPlan := by
  induction bs with
  | nil => rw [List.map_nil, EntityPlan.ofEach, List.map_nil]
  | cons b rest ih =>
    have hid : (Compound.get? (s.bodyData b) "id").bind Datum.text? =
        some b.1.node.kind.entityType := rfl
    have hnone : EntityPlan.passengersOf (s.bodyData b) = [] := by
      refine EntityPlan.passengersOf_eq_nil fun e he heq => ?_
      have hkey := fst_mem_bodyData he
      rw [heq] at hkey
      simp at hkey
    rw [List.map_cons, EntityPlan.ofEach]
    simp only [hid, hnone, ih]
    rfl

/-- The data of a new instance says to summon a root and what rides it. -/
theorem ofData_summonPayload (s : Stage) (entityType : String) :
    EntityPlan.ofData entityType s.summonPayload =
      .mk entityType (tagsOf s.summonPayload) (ownData s.summonPayload)
        (s.bodies.map s.bodyPlan) := by
  have hbodies : ((s.rig.slots.toList.zip s.rest).filterMap fun b => s.passenger? b.1 b.2) =
      s.bodies.map s.bodyData := by
    rw [bodies, ← List.filterMap_eq_filter, List.map_filterMap]
    refine List.filterMap_congr fun b _ => ?_
    rw [passenger?_eq, Option.guard]
    split <;> rfl
  have hpassengers : EntityPlan.passengersOf s.summonPayload = s.bodies.map s.bodyPlan := by
    unfold summonPayload
    rw [EntityPlan.passengersOf, if_neg (by simp), EntityPlan.passengersOf, if_pos rfl,
      EntityPlan.ofItems]
    dsimp only
    rw [hbodies, List.map_map]
    exact ofEach_bodyData s.bodies
  rw [EntityPlan.ofData, hpassengers]

theorem mem_tagsOf_summonPayload {t : String} :
    t ∈ tagsOf s.summonPayload ↔ t = s.names.rootTag ∨ t = s.names.newTag := by
  have htags : Compound.get? s.summonPayload "Tags" =
      some (.strings [s.names.rootTag, s.names.newTag]) := rfl
  rw [mem_tagsOf htags]
  simp

end Stage

end Marionette
