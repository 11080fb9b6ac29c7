import Marionette.Proofs.Sampling.Lossless

/-!
# Poses of entries

An entry holds the pose that is read from the animation at its tick.

- `Animation.poseAt?`: the pose of a node at a tick, as it is read from the animation.
- `sampleNode_pose`, `sampleTick_pose`: the entries of a tick hold these poses.
- `poseAt?_of_entryAt?`: so do the entries of a clip that is sampled.
- `exists_entry_zero_of_sample`: a moved node that has an entity has an entry at the first tick.
-/

namespace Marionette

/-- The pose of a node at a tick.  Only nodes that are written as a matrix jump or step. -/
def Animation.poseAt? (a : Animation) (rig : Rig) (config : Config) (tick place : Nat) :
    Option Pose :=
  match assignChannels rig a (Array.replicate rig.size {}) a.animators with
  | .ok (channels, _) => do
    let (markers, worlds) := sceneAt rig config (rig.slots.toList.zip channels.toList) tick
    let slot ← rig.slots[place]?
    let marker ← markers[place]?
    let world ← worlds[place]?
    Pose.ofMatrix? world (if slot.node.kind.isMatrix then marker else .none) config.precisionScale
  | .error _ => none

variable {rig : Rig} {a : Animation} {config : Config} {precision : Float} {tick : Nat}
  {remarks : List Diagnostic} {track track' : Track} {tracks tracks' : List Track} {marker : Marker}
  {world : Mat4} {e : NodeEntry}

/-- A pose has the marker that it is made with. -/
theorem Pose.marker_of_ofMatrix? {pose : Pose}
    (h : ofMatrix? world marker precision = some pose) : pose.marker = marker := by
  unfold ofMatrix? at h
  split at h
  · cases h
  · cases h
    rfl

/-- The entry of a node holds the pose that is read. -/
theorem sampleNode_pose
    (h : sampleNode a precision tick track marker world = .ok (track', some e, remarks)) :
    Pose.ofMatrix? world (if track.slot.node.kind.isMatrix then marker else .none) precision =
      some e.pose := by
  unfold sampleNode at h
  dsimp only at h
  split at h
  next pose hpose =>
    -- what happens beside the pose decides whether there is an entry, and not which pose it has
    split at h
    next =>
      generalize locatorEffect a track.slot.node.uuid track.channels.commands track.repetition tick
        = found at h
      obtain ⟨effect, repetition, notes⟩ := found
      dsimp only at h
      split at h <;> cases h
      exact hpose
    next =>
      split at h <;> cases h
      exact hpose
  next => cases h

/-- The entry of a node at a tick holds the pose that is read. -/
theorem sampleTick_pose {frame : Frame}
    (h : sampleTick rig a config tick tracks = .ok (tracks', frame, remarks))
    (hnodup : (tracks.map (·.slot.node.uuid)).Nodup) {place : Nat}
    (htrack : tracks[place]? = some track) (he : Frame.entry? frame track.slot.node.uuid = some e) :
    ∃ marker world, (sceneAt rig config (tracks.map Track.keyed) tick).1[place]? = some marker ∧
      (sceneAt rig config (tracks.map Track.keyed) tick).2[place]? = some world ∧
      Pose.ofMatrix? world (if track.slot.node.kind.isMatrix then marker else .none)
        config.precisionScale = some e.pose := by
  obtain ⟨-, -, -, hread⟩ := sampleTick_at h hnodup
  obtain ⟨marker, world, track'', here, hmarker, hworld, -, hread⟩ := hread htrack
  rw [he] at hread
  exact ⟨marker, world, hmarker, hworld, sampleNode_pose hread⟩

section Sample

variable {names : ClipNames} {clip : Clip} {place : Nat} {slot : Slot}

/-- The entries of a clip that is sampled hold the poses that are read from the animation. -/
theorem poseAt?_of_entryAt? (hrig : rig.IsBuilt)
    (h : sample rig a config names = .ok (clip, remarks)) (hslot : rig.slots[place]? = some slot)
    (hmem : slot.node.uuid ∈ clip.modifiedNodes) (htick : tick < clip.duration)
    (he : clip.entryAt? slot.node.uuid tick = some e) :
    a.poseAt? rig config tick place = some e.pose := by
  obtain ⟨channels, w1, rest, tracksAt, frameAt, hchannels, hsize, hrest, hstart, hrun,
      hrecords, -⟩ :=
    exists_run_of_sample hrig h
  have hkeyed : (tracksAt tick).map Track.keyed = rig.slots.toList.zip channels.toList := by
    rw [hrun.keyed_eq tick (Nat.le_of_lt htick), hstart,
      startTracks_keyed (hsize.trans (restPoses_eq hrest).1.symm)]
  obtain ⟨remarks, hstep⟩ := hrun.step tick htick
  rw [hrecords.entryAt?_eq hmem htick] at he
  -- the track of the node
  obtain ⟨hplace, -⟩ := Array.getElem?_eq_some_iff.1 hslot
  obtain ⟨own, hown⟩ : ∃ own, channels.toList[place]? = some own :=
    ⟨_, List.getElem?_eq_getElem (by rw [Array.length_toList, hsize]; exact hplace)⟩
  have hboth : ((tracksAt tick).map Track.keyed)[place]? = some (slot, own) := by
    rw [hkeyed]
    exact List.getElem?_zip_eq_some.2 ⟨by rwa [Array.getElem?_toList], hown⟩
  rw [List.getElem?_map] at hboth
  obtain ⟨track, htrack, hsame⟩ := Option.map_eq_some_iff.1 hboth
  obtain rfl : track.slot = slot := congrArg Prod.fst hsame
  obtain ⟨marker, world, hmarker, hworld, hpose⟩ :=
    sampleTick_pose hstep
      (hrun.nodup_of_keyed_eq (hrun.keyed_eq tick (Nat.le_of_lt htick))) htrack he
  rw [hkeyed] at hmarker hworld
  rw [Animation.poseAt?, hchannels]
  dsimp only
  rw [hslot, hmarker, hworld]
  exact hpose

/-- A moved node that has an entity has an entry at the first tick, which holds the pose that is
read there. -/
theorem exists_entry_zero_of_sample (hrig : rig.IsBuilt)
    (h : sample rig a config names = .ok (clip, remarks)) (hslot : rig.slots[place]? = some slot)
    (hmem : slot.node.uuid ∈ clip.modifiedNodes) (hentity : slot.node.kind.hasEntity = true)
    (hduration : 0 < clip.duration) :
    ∃ e, clip.entryAt? slot.node.uuid 0 = some e ∧ a.poseAt? rig config 0 place = some e.pose := by
  obtain ⟨matrix, track, entry, hrun, rfl, -, -, -, hentry⟩ :=
    exists_trackRun_of_sample hrig h hslot
  have hkind : (track 0).slot.node.kind ≠ .locator false := by
    intro hkind
    rw [hkind] at hentity
    cases hentity
  obtain ⟨e, he⟩ := hrun.exists_entry_zero hkind hduration
  have he := (hentry hmem 0 hduration).trans he
  exact ⟨e, he, poseAt?_of_entryAt? hrig h hslot hmem hduration he⟩

end Sample

end Marionette
