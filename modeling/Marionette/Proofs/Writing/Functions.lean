import Marionette.Proofs.Functions.Data
import Marionette.Proofs.Functions.PackExists
import Marionette.Proofs.Instance.Places
import Marionette.Proofs.Lines.Commands
import Marionette.Proofs.Narrowing

/-!
# Functions that can be written

A command has no text if there is a float in its data that is not finite.  The floats in the data of
functions are the matrices of display entities.

- `Command.exists_text_iff`, `PackFile.exists_contents_iff`: what can be written.
- `Pose.IsWritable`: the entries of a matrix are in the range of single precision.
- `Rig.TakesWritable`: a frame takes display entities to such poses only.
- `Stage.isFinite_frameBody_iff`: then the function of the frame can be written, and only then.
- `Stage.isFinite_summonPayload_iff`: new instances can be written if the poses at rest can, and
  only then.
-/

namespace Marionette

/-! ### What can be written -/

/-- A command has a text only if the floats in its data have one. -/
theorem Command.isFinite_of_text {c : Command} {t : String} (h : c.text = .ok t) : c.IsFinite := by
  induction c generalizing t with
  | execute clauses run ih =>
    obtain ⟨tail, htail, -⟩ := exists_of_bind_ok h
    exact ih htail
  | dataMerge target data | summon entity data =>
    obtain ⟨written, hwritten, -⟩ := exists_of_bind_ok h
    exact (Compound.exists_render_iff .compact).1 ⟨written, hwritten⟩
  | _ => trivial

theorem Command.exists_text_iff {c : Command} : (∃ t, c.text = .ok t) ↔ c.IsFinite := by
  constructor
  · rintro ⟨t, ht⟩
    exact isFinite_of_text ht
  · exact IsFinite.exists_text

theorem Command.isFinite_iff {c : Command} :
    c.IsFinite ↔ ∀ data ∈ c.data, ∀ e ∈ data, e.2.IsFinite := by
  induction c with
  | execute clauses run ih => exact ih
  | dataMerge target data | summon entity data =>
    rw [Command.data, List.forall_mem_singleton]
    rfl
  | _ => exact iff_of_true trivial (List.forall_mem_nil _)

/-- A function can be written if and only if all its data can. -/
theorem PackFile.exists_contents_iff (path : FunctionPath) (commands : List Command) :
    (∃ text, (PackFile.function path commands).contents = .ok text) ↔
      ∀ data ∈ commands.flatMap Command.data, ∀ e ∈ data, e.2.IsFinite := by
  have hcommands : (∀ c ∈ commands, c.IsFinite) ↔
      ∀ data ∈ commands.flatMap Command.data, ∀ e ∈ data, e.2.IsFinite := by
    rw [List.forall_mem_flatMap]
    exact forall₂_congr fun c _ => c.isFinite_iff
  rw [← hcommands]
  constructor
  · rintro ⟨text, htext⟩ c hc
    obtain ⟨lines, hlines, -⟩ := exists_of_bind_ok htext
    obtain ⟨line, -, hline⟩ := exists_of_mem_left (forall₂_of_mapM_ok hlines) hc
    exact Command.isFinite_of_text hline
  · intro hfinite
    obtain ⟨lines, hlines⟩ := exists_mapM_ok fun c hc => (hfinite c hc).exists_text
    exact ⟨_, by rw [contents, hlines]; rfl⟩

/-- The entries of the matrix of a pose are in the range of single precision. -/
def Pose.IsWritable (p : Pose) : Prop :=
  ∀ x ∈ p.matrix.toList, -singleLimit < x ∧ x < singleLimit

theorem Pose.isWritable_iff {p : Pose} :
    p.IsWritable ↔ ∀ x ∈ p.matrix.toList, (toSingle x).isFinite = true :=
  forall₂_congr fun _ _ => isFinite_toSingle_iff.symm

/-- A frame takes display entities only to poses that can be written. -/
def Rig.TakesWritable (rig : Rig) (f : Frame) : Prop :=
  ∀ slot ∈ rig.slots.toList, slot.node.kind.isMatrix = true →
    ∀ e, f.entry? slot.node.uuid = some e → e.pose.IsWritable

namespace Stage

variable {s : Stage} {paths : ClipPaths} {frame : Frame}

/-! ### Frames -/

theorem isFinite_poseData_iff {pose : Pose} {restore : Bool} :
    (∀ e ∈ s.poseData pose restore, e.2.IsFinite) ↔ pose.IsWritable := by
  have hduration : ∀ v : Int32, ∀ e ∈ [("interpolation_duration", Datum.int v)], e.2.IsFinite :=
    fun v => List.forall_mem_singleton.2 trivial
  have hmatrix : (transformation pose.matrix).IsFinite ↔ pose.IsWritable := by
    rw [Pose.isWritable_iff]
    simp [transformation, Datum.floats, Datum.IsFinite, Datum.allFinite_iff]
  rw [poseData, List.forall_mem_append, List.forall_mem_cons, hmatrix]
  constructor
  · rintro ⟨⟨hpose, -⟩, -⟩
    exact hpose
  · intro hpose
    refine ⟨⟨hpose, List.forall_mem_singleton.2 trivial⟩, ?_⟩
    split
    · exact hduration 0
    · split
      · exact hduration _
      · exact List.forall_mem_nil _

/-- The function of a frame can be written if and only if the frame takes display entities to poses
that can be written. -/
theorem isFinite_frameBody_iff (before : List Frame) :
    (∀ data ∈ (s.frameBody paths (s.flagsAfter (s.rig.slots.toList.map fun slot => (slot, false))
        before) frame).flatMap Command.data, ∀ e ∈ data, e.2.IsFinite) ↔
      s.rig.TakesWritable frame := by
  have hslots : (s.flagsAfter (s.rig.slots.toList.map fun slot => (slot, false)) before).map (·.1) =
      s.rig.slots.toList := by
    rw [map_fst_flagsAfter, List.map_map]
    exact List.map_id _
  rw [data_frameBody, List.forall_mem_flatMap]
  generalize s.flagsAfter _ before = flags at hslots ⊢
  rw [Rig.TakesWritable, ← hslots, List.forall_mem_map]
  refine forall₂_congr fun b _ => ?_
  constructor
  · intro h hmatrix e he
    exact isFinite_poseData_iff.1 (h _ (mem_newPose_iff.2 ⟨hmatrix, e, he, rfl⟩))
  · rintro h data hdata
    obtain ⟨hmatrix, e, he, rfl⟩ := mem_newPose_iff.1 hdata
    exact isFinite_poseData_iff.2 (h hmatrix e he)

/-! ### Instances -/

theorem isFinite_summonPayload_iff : (∀ e ∈ s.summonPayload, e.2.IsFinite) ↔ s.IsFiniteAtRest :=
  (Compound.exists_render_iff .indented).symm.trans exists_render_summonPayload_iff

end Stage

end Marionette
