import Marionette.Proofs.Datum.Compound
import Marionette.Proofs.Instance.FrameLaws

/-!
# Where frames bring nodes

- `Look.place`: where an entity of a node is, by its transformation or by its last teleport.
- `NodeKind.goTo`: where a pose brings it.
- `Instance.look_posed`: how a node takes its pose.
- `Instance.placeOf_framed`: a frame brings just the nodes that it has entries for to their places.
-/

namespace Marionette

/-- Where an entity of a node is. -/
structure Place where
  /-- Its transformation. -/
  transformation : Option Datum
  /-- Offset, yaw and pitch of its last teleport. -/
  teleport : Option (Vec3 × Float × Float)

/-- A node with an entity goes to a pose. -/
def NodeKind.goTo (kind : NodeKind) (pose : Pose) (place : Place) : Place :=
  if kind.isMatrix then { place with transformation := some (transformation pose.matrix) }
  else { place with teleport := some (pose.offset, pose.yaw, pose.pitch) }

/-- The nodes that are written as a matrix have entities. -/
theorem NodeKind.hasEntity_of_isMatrix {kind : NodeKind} (h : kind.isMatrix = true) :
    kind.hasEntity = true := by
  cases kind <;> first | rfl | cases h

namespace Look

/-- Where an entity of a node is. -/
def place (look : Look) : Place :=
  ⟨Compound.get? look.data "transformation", look.teleport⟩

theorem place_poseData (look : Look) (s : Stage) (pose : Pose) (restore : Bool) :
    (look.merged (s.poseData pose restore)).place =
      { look.place with transformation := some (transformation pose.matrix) } := by
  have hrest : ∀ e ∈ (s.poseData pose restore).tail, e.1 ≠ "transformation" := by
    intro e he
    unfold Stage.poseData at he
    simp only [List.cons_append, List.nil_append, List.tail_cons, List.mem_cons] at he
    rcases he with rfl | he
    · simp
    · split at he
      · rw [List.mem_singleton.1 he]
        simp
      · split at he
        · rw [List.mem_singleton.1 he]
          simp
        · cases he
  have hget : Compound.get? (look.data.merge (s.poseData pose restore)) "transformation" =
      some (transformation pose.matrix) :=
    Compound.get?_merge_list look.data _ hrest
  exact congrArg (fun t => Place.mk t look.teleport) hget

theorem place_item (look : Look) (item : Datum) :
    (look.merged [("item", item)]).place = look.place := by
  have hget : Compound.get? (look.data.merge [("item", item)]) "transformation" =
      Compound.get? look.data "transformation" :=
    Compound.get?_merge_of_ne look.data (by simp)
  exact congrArg (fun t => Place.mk t look.teleport) hget

theorem place_timed (look : Look) (v : Int32) : (look.timed v).place = look.place := by
  have hget : Compound.get? (look.data.insert "interpolation_duration" (.int v))
      "transformation" = Compound.get? look.data "transformation" := by
    rw [Compound.get?_insert, if_neg (by simp)]
  exact congrArg (fun t => Place.mk t look.teleport) hget

theorem place_moved (look : Look) (offset : Vec3) (yaw pitch : Float) :
    (look.moved offset yaw pitch).place =
      { look.place with teleport := some (offset, yaw, pitch) } :=
  rfl

end Look

namespace Instance

variable {I : Instance} {sc : Scene} {slot : Slot} {frame : Frame} {name : String}
  {r : Nat}

/-- Of all nodes of the rig, a passenger carries the tag of this one only. -/
def Embodies (I : Instance) (r : Nat) (slot : Slot) : Prop :=
  ∀ other ∈ I.stage.rig.slots.toList,
    I.isNode r other.storageName = decide (other.storageName = slot.storageName)

/-- Where a passenger is. -/
def placeOf (sc : Scene) (r : Nat) : Place := (sc.look r).place

/-- Going over passengers and changing each of those that pass a test: what becomes of
one of them. -/
theorem look_foldl_relook (test : Nat → Bool) (g : Look → Look) (sc : Scene) {rs : List Nat}
    (hdistinct : rs.Nodup) (id : Nat) :
    (rs.foldl (fun sc r => if test r then sc.relook r g else sc) sc).look id =
      if id ∈ rs ∧ test id then g (sc.look id) else sc.look id := by
  induction rs generalizing sc with
  | nil => simp
  | cons r rs ih =>
    obtain ⟨hr, hrs⟩ := List.nodup_cons.1 hdistinct
    rw [List.foldl_cons, ih _ hrs]
    by_cases hid : id = r
    · subst hid
      cases test id <;> simp [hr]
    · have hsame : (if test r then sc.relook r g else sc).look id = sc.look id := by
        split
        · rw [Scene.relook_look, if_neg hid]
        · rfl
      simp [hsame, hid]

/-- Changing the looks of a node changes those of its entities. -/
theorem look_relookNode (hr : r ∈ I.riders) (g : Look → Look) :
    (I.relookNode name g sc).look r =
      if I.isNode r name then g (sc.look r) else sc.look r := by
  refine (look_foldl_relook (I.isNode · name) g sc (List.nodup_cons.1 I.distinct).2 r).trans ?_
  simp [hr]

/-- What an entity of a node looks like in a pose. -/
def posedLook (I : Instance) (slot : Slot) (pose : Pose) (restore : Bool) (look : Look) : Look :=
  if slot.node.kind.isMatrix then look.merged (I.stage.poseData pose restore)
  else look.moved pose.offset pose.yaw pose.pitch

theorem place_posedLook (pose : Pose) (restore : Bool) (look : Look) :
    (I.posedLook slot pose restore look).place = slot.node.kind.goTo pose look.place := by
  unfold posedLook NodeKind.goTo
  split
  · exact look.place_poseData I.stage pose restore
  · rfl

theorem look_updated (hr : r ∈ I.riders) (pose : Pose) (restore : Bool) :
    (I.updated slot pose restore sc).look r =
      if I.isNode r slot.storageName ∧ slot.node.kind.hasEntity then
        I.posedLook slot pose restore (sc.look r)
      else sc.look r := by
  unfold updated posedLook
  by_cases hmatrix : slot.node.kind.isMatrix = true
  · rw [if_pos hmatrix, if_pos hmatrix, look_relookNode hr, NodeKind.hasEntity_of_isMatrix hmatrix]
    simp
  · rw [if_neg hmatrix, if_neg hmatrix]
    by_cases hentity : slot.node.kind.hasEntity = true
    · rw [if_pos hentity, look_relookNode hr]
      simp [hentity]
    · rw [if_neg hentity, if_neg fun h => hentity h.2]

/-- The pose of a node leaves the entities of other nodes as they are. -/
theorem look_posed_of_ne (hr : r ∈ I.riders) {flag : Slot × Bool}
    (hname : I.isNode r flag.1.storageName = false) (sc : Scene) :
    (match frame.entry? flag.1.node.uuid with
      | none => sc
      | some entry => I.updated flag.1 entry.pose flag.2 sc).look r = sc.look r := by
  cases frame.entry? flag.1.node.uuid with
  | none => rfl
  | some entry => exact (look_updated hr _ _).trans (if_neg fun h => by rw [hname] at h; cases h.1)

/-- A node takes its pose, where no two nodes share a name. -/
theorem look_posed (hr : r ∈ I.riders) {flags : List (Slot × Bool)} {restore : Bool}
    (hnames : (flags.map fun flag => flag.1.storageName).Nodup) (hslot : (slot, restore) ∈ flags)
    (hname : ∀ flag ∈ flags, I.isNode r flag.1.storageName =
      decide (flag.1.storageName = slot.storageName))
    (hentity : slot.node.kind.hasEntity = true) :
    (I.posed frame flags sc).look r =
      match frame.entry? slot.node.uuid with
      | none => sc.look r
      | some entry => I.posedLook slot entry.pose restore (sc.look r) := by
  induction flags generalizing sc with
  | nil => cases hslot
  | cons flag rest ih =>
    obtain ⟨hflag, hrest⟩ := List.nodup_cons.1 hnames
    obtain ⟨hfirst, hothers⟩ := List.forall_mem_cons.1 hname
    have hposed : I.posed frame (flag :: rest) sc =
        I.posed frame rest (match frame.entry? flag.1.node.uuid with
          | none => sc
          | some entry => I.updated flag.1 entry.pose flag.2 sc) := rfl
    rw [hposed]
    rcases List.mem_cons.1 hslot with rfl | hslot
    · -- the node itself; the others have other names
      have hrest : ∀ sc : Scene, (I.posed frame rest sc).look r = sc.look r := by
        intro sc
        refine foldl_same (fun sc : Scene => sc.look r) fun other hother sc => ?_
        refine look_posed_of_ne hr ((hothers other hother).trans (decide_eq_false fun heq => ?_)) sc
        exact hflag (List.mem_map.2 ⟨other, hother, heq⟩)
      rw [hrest]
      cases frame.entry? slot.node.uuid with
      | none => rfl
      | some entry =>
        exact (look_updated hr _ _).trans (if_pos ⟨hfirst.trans (decide_eq_true rfl), hentity⟩)
    · have hne : I.isNode r flag.1.storageName = false := by
        refine hfirst.trans (decide_eq_false fun heq => hflag (List.mem_map.2 ⟨_, hslot, heq.symm⟩))
      rw [ih hrest hslot hothers, look_posed_of_ne hr hne sc]

theorem placeOf_relook {id : Nat} {g : Look → Look} (hg : ∀ look, (g look).place = look.place) :
    placeOf (sc.relook id g) r = placeOf sc r := by
  unfold placeOf
  rw [Scene.relook_look]
  split
  · exact hg _
  · rfl

theorem placeOf_synced (sc : Scene) : placeOf (I.synced sc) r = placeOf sc r :=
  synced_same (placeOf · r) fun _ _ _ => placeOf_relook fun look => look.place_timed _

end Instance

/-- The flags follow the nodes. -/
theorem Stage.map_fst_flagsBefore (s : Stage) (tree : DispatchTree) (frame : Frame) :
    (s.flagsBefore tree frame).map (·.1) = s.rig.slots.toList := by
  rw [flagsBefore, map_fst_flagsAfter, List.map_map]
  exact List.map_id _

namespace Instance

variable {I : Instance} {sc : Scene} {slot : Slot} {frame : Frame} {r : Nat}

/-- Only the poses of a frame bring anything anywhere. -/
theorem placeOf_framed_eq_posed (tree : DispatchTree) (frame : Frame) (sc : Scene) :
    placeOf (I.framed tree frame sc) r =
      placeOf (I.posed frame (I.stage.flagsBefore tree frame) sc) r := by
  unfold framed
  dsimp only
  split
  · rfl
  · exact happenings_same (placeOf · r) (fun id item sc => placeOf_relook fun look =>
      look.place_item item) fun _ _ _ => rfl

/-- A frame brings just the nodes that it has entries for to their places. -/
theorem placeOf_framed (hr : r ∈ I.riders) (tree : DispatchTree)
    (hnames : (I.stage.rig.slots.toList.map (·.storageName)).Nodup)
    (hslot : slot ∈ I.stage.rig.slots.toList) (hname : I.Embodies r slot)
    (hentity : slot.node.kind.hasEntity = true) :
    placeOf (I.framed tree frame sc) r =
      match frame.entry? slot.node.uuid with
      | none => placeOf sc r
      | some entry => slot.node.kind.goTo entry.pose (placeOf sc r) := by
  have hflags := I.stage.map_fst_flagsBefore tree frame
  have hown : ∀ flag ∈ I.stage.flagsBefore tree frame, I.isNode r flag.1.storageName =
      decide (flag.1.storageName = slot.storageName) := fun flag hflag =>
    hname flag.1 (hflags ▸ List.mem_map_of_mem hflag)
  rw [← hflags] at hnames hslot
  rw [List.map_map] at hnames
  obtain ⟨⟨_, restore⟩, hflag, rfl⟩ := List.mem_map.1 hslot
  have hposed : placeOf (I.posed frame (I.stage.flagsBefore tree frame) sc) r = _ :=
    congrArg Look.place (look_posed hr hnames hflag hown hentity)
  rw [placeOf_framed_eq_posed, hposed]
  cases frame.entry? _ with
  | none => rfl
  | some entry => exact place_posedLook _ _ _

end Instance

end Marionette
