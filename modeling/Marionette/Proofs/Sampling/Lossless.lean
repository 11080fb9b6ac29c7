import Marionette.Proofs.DispatchTree.Lookup
import Marionette.Proofs.Frame
import Marionette.Proofs.Sampling.Runs

/-!
# Frames lose no pose

A frame holds a node only where the node changes, and a node that is never moved is left out of all
frames.  What is left out can be told from what is kept.

- `Animation.matrixAt?`: the rounded matrix of a node at a tick, as it is read from the animation.
- `Rig.restMatrix?`: its rounded matrix in the rig that is not animated.
- `Clip.Records`: a clip holds the frames of its ticks, as far as something changes in them.
- `Clip.TakesOver`: what a clip has from its animation as it is; `takesOver_of_sample`.
- `sample_isSparse`: every tick has at most one frame.
- `sample_lossless`: a moved node has the matrix of its latest entry, and every other node has its
  matrix at rest.
-/

namespace Marionette

/-- The matrix of a node at a tick, rounded. -/
def Animation.matrixAt? (a : Animation) (rig : Rig) (config : Config) (tick place : Nat) :
    Option Mat4 :=
  match assignChannels rig a (Array.replicate rig.size {}) a.animators with
  | .ok (channels, _) =>
    let (_, worlds) := sceneAt rig config (rig.slots.toList.zip channels.toList) tick
    worlds[place]?.map (·.rounded config.precisionScale)
  | .error _ => none

/-- The matrix of a node at rest, rounded. -/
def Rig.restMatrix? (rig : Rig) (config : Config) (place : Nat) : Option Mat4 :=
  match restPoses rig config with
  | .ok poses => poses[place]?.map (·.matrix)
  | .error _ => none

variable {rig : Rig} {a : Animation} {config : Config} {tick count : Nat}
  {remarks : List Diagnostic}

/-! ### The frames of a clip -/

/-- A frame with the entries of some nodes only. -/
def Frame.restrict (f : Frame) (uuids : List Uuid) : Frame :=
  { f with nodes := f.nodes.filter fun n => n.1 ∈ uuids }

theorem Frame.entry?_restrict {f : Frame} {uuids : List Uuid} {uuid : Uuid} (h : uuid ∈ uuids) :
    Frame.entry? (f.restrict uuids) uuid = f.entry? uuid := by
  unfold entry? restrict
  rw [List.find?_filter]
  congr 2
  funext n
  by_cases hn : n.1 = uuid
  · simp [hn, h]
  · simp [hn]

theorem Frame.entry?_restrict_of_not_mem {f : Frame} {uuids : List Uuid} {uuid : Uuid}
    (h : uuid ∉ uuids) : Frame.entry? (f.restrict uuids) uuid = none := by
  unfold entry? restrict
  rw [List.find?_eq_none.2, Option.map_none]
  intro n hn heq
  have hkept := (List.mem_filter.1 hn).2
  rw [of_decide_eq_true heq] at hkept
  exact h (of_decide_eq_true hkept)

theorem Frame.entry?_eq_none_of_isEmpty {f : Frame} (h : f.isEmpty = true) (uuid : Uuid) :
    f.entry? uuid = none := by
  unfold isEmpty at h
  rw [Bool.and_eq_true, Bool.and_eq_true, List.isEmpty_iff] at h
  unfold entry?
  rw [h.1.1, List.find?_nil, Option.map_none]

theorem Frame.isEmpty_restrict {f : Frame} {uuids : List Uuid} (h : f.isEmpty = true) :
    (f.restrict uuids).isEmpty = true := by
  unfold isEmpty restrict at *
  rw [Bool.and_eq_true, Bool.and_eq_true, List.isEmpty_iff] at h ⊢
  exact ⟨⟨by rw [h.1.1]; rfl, h.1.2⟩, h.2⟩

section Frames

variable {clip : Clip} {frameAt : Nat → Frame}

/-- The frames of the ticks before the end, without entries of nodes that are not moved, and without
frames in which nothing changes. -/
structure Clip.Records (clip : Clip) (frameAt : Nat → Frame) : Prop where
  tick : ∀ tick < clip.duration, (frameAt tick).tick = tick
  frames : clip.frames = ((((List.range' 0 clip.duration).map frameAt).filter (!·.isEmpty)).map
    (·.restrict clip.modifiedNodes)).filter (!·.isEmpty)

theorem Clip.Records.mem_iff (h : clip.Records frameAt) {f : Frame} :
    f ∈ clip.frames ↔ ∃ tick < clip.duration,
      f = (frameAt tick).restrict clip.modifiedNodes ∧ f.isEmpty = false := by
  rw [h.frames]
  constructor
  · intro hf
    obtain ⟨hf, hfull⟩ := List.mem_filter.1 hf
    obtain ⟨g, hg, rfl⟩ := List.mem_map.1 hf
    obtain ⟨tick, htick, rfl⟩ := List.mem_map.1 (List.mem_filter.1 hg).1
    have hlt := (List.mem_range'_1.1 htick).2
    exact ⟨tick, by omega, rfl, by simpa using hfull⟩
  · rintro ⟨tick, htick, rfl, hfull⟩
    refine List.mem_filter.2 ⟨List.mem_map_of_mem (List.mem_filter.2 ⟨?_, ?_⟩), ?_⟩
    · exact List.mem_map_of_mem (List.mem_range'_1.2 (by omega))
    · by_contra hempty
      rw [Frame.isEmpty_restrict (by simpa using hempty)] at hfull
      cases hfull
    · rw [hfull]
      rfl

/-- Every tick has at most one frame. -/
theorem Clip.Records.isSparse (h : clip.Records frameAt) : clip.IsSparse := by
  constructor
  case nodup =>
    have hticks : ((List.range' 0 clip.duration).map frameAt).map (·.tick) =
        List.range' 0 clip.duration := by
      rw [List.map_map]
      conv_rhs => rw [← List.map_id (List.range' 0 clip.duration)]
      refine List.map_congr_left fun tick htick => h.tick tick ?_
      have := List.mem_range'_1.1 htick
      omega
    have hrestrict : ∀ fs : List Frame,
        (fs.map (·.restrict clip.modifiedNodes)).map (·.tick) = fs.map (·.tick) :=
      fun fs => by rw [List.map_map]; rfl
    have hsublist : (clip.frames.map (·.tick)).Sublist
        (((List.range' 0 clip.duration).map frameAt).map (·.tick)) := by
      rw [h.frames]
      refine (List.filter_sublist.map _).trans ?_
      rw [hrestrict]
      exact List.filter_sublist.map _
    rw [hticks] at hsublist
    exact hsublist.nodup List.nodup_range'
  case lt =>
    intro f hf
    obtain ⟨tick, htick, rfl, -⟩ := h.mem_iff.1 hf
    exact (h.tick tick htick).symm ▸ htick

/-- The frame of a tick is what was made at the tick, if anything is left of it. -/
theorem Clip.Records.frameAt?_eq (h : clip.Records frameAt) {tick : Nat}
    (htick : tick < clip.duration) :
    clip.frameAt? tick =
      if ((frameAt tick).restrict clip.modifiedNodes).isEmpty then none
      else some ((frameAt tick).restrict clip.modifiedNodes) := by
  have hfind : ∀ f, clip.frameAt? tick = some f ↔ f ∈ clip.frames ∧ f.tick = tick :=
    fun f => DispatchTree.find?_tick_eq_some_iff h.isSparse.nodup
  split_ifs with hempty
  · cases hframe : clip.frameAt? tick with
    | none => rfl
    | some f =>
      obtain ⟨hmem, hf⟩ := (hfind f).1 hframe
      obtain ⟨tick', htick', rfl, hfull⟩ := h.mem_iff.1 hmem
      obtain rfl : tick' = tick := (h.tick tick' htick').symm.trans hf
      cases hempty.symm.trans hfull
  · exact (hfind _).2 ⟨h.mem_iff.2 ⟨tick, htick, rfl, Bool.of_not_eq_true hempty⟩,
      h.tick tick htick⟩

/-- For a node that is moved, the entry of a tick is the one that was made at the tick. -/
theorem Clip.Records.entryAt?_eq (h : clip.Records frameAt) {uuid : Uuid}
    (huuid : uuid ∈ clip.modifiedNodes) {tick : Nat} (htick : tick < clip.duration) :
    clip.entryAt? uuid tick = Frame.entry? (frameAt tick) uuid := by
  unfold entryAt?
  rw [h.frameAt?_eq htick, ← Frame.entry?_restrict huuid]
  split_ifs with hempty
  · exact (Frame.entry?_eq_none_of_isEmpty hempty uuid).symm
  · rfl

/-- A node that is not moved has no entries. -/
theorem Clip.Records.entryAt?_eq_none (h : clip.Records frameAt) {uuid : Uuid}
    (huuid : uuid ∉ clip.modifiedNodes) (tick : Nat) : clip.entryAt? uuid tick = none := by
  unfold entryAt?
  cases hframe : clip.frameAt? tick with
  | none => rfl
  | some f =>
    obtain ⟨tick', -, rfl, -⟩ := h.mem_iff.1 (List.mem_of_find?_eq_some hframe)
    exact Frame.entry?_restrict_of_not_mem huuid

end Frames

/-! ### Animations that are sampled -/

section Sample

variable {names : ClipNames} {clip : Clip}

/-- The tracks that sampling begins with. -/
def startTracks (rig : Rig) (channels : Array Channels) (rest : List Pose) : List Track :=
  (rig.slots.toList.zip (channels.toList.zip rest)).map fun (slot, own, pose) =>
    { slot := slot, channels := own, rest := pose.matrix }

/-- What sampling goes through. -/
theorem sample_eq (h : sample rig a config names = .ok (clip, remarks)) :
    ∃ channels w1 rest r,
      assignChannels rig a (Array.replicate rig.size {}) a.animators = .ok (channels, w1) ∧
      restPoses rig config = .ok rest ∧
      sampleFrom rig a config a.duration 0 { tracks := startTracks rig channels rest } = .ok r ∧
      clip.modifiedNodes = (r.tracks.filter (·.modified)).map (·.slot.node.uuid) ∧
      clip.frames =
        (r.frames.toList.map (·.restrict clip.modifiedNodes)).filter (!·.isEmpty) := by
  unfold sample at h
  obtain ⟨-, -, h⟩ := exists_of_bind_ok h
  obtain ⟨⟨channels, w1⟩, hchannels, h⟩ := exists_of_bind_ok h
  obtain ⟨rest, hrest, h⟩ := exists_of_bind_ok h
  obtain ⟨r, hrun, h⟩ := exists_of_bind_ok h
  cases h
  exact ⟨channels, w1, rest, r, hchannels, hrest, hrun, rfl, rfl⟩

/-- What a clip has from its animation, and from the names that were handed out for it. -/
structure Clip.TakesOver (clip : Clip) (a : Animation) (names : ClipNames) : Prop where
  name : clip.name = a.name
  pathName : clip.pathName = names.path
  storageName : clip.storageName = names.storage
  duration : clip.duration = a.duration
  loopMode : clip.loopMode = a.loopMode
  loopDelay : clip.loopDelay = a.loopDelayTicks

/-- Sampling takes over what it does not read tick by tick. -/
theorem takesOver_of_sample (h : sample rig a config names = .ok (clip, remarks)) :
    clip.TakesOver a names := by
  unfold sample at h
  obtain ⟨-, -, h⟩ := exists_of_bind_ok h
  obtain ⟨⟨channels, w1⟩, -, h⟩ := exists_of_bind_ok h
  obtain ⟨rest, -, h⟩ := exists_of_bind_ok h
  obtain ⟨r, -, h⟩ := exists_of_bind_ok h
  cases h
  exact ⟨rfl, rfl, rfl, rfl, rfl, rfl⟩

/-- Only animations that can be played are compiled. -/
theorem check_of_sample (h : sample rig a config names = .ok (clip, remarks)) :
    a.check = .ok () := by
  obtain ⟨_, hcheck, -⟩ := exists_of_bind_ok h
  exact hcheck

/-- A length that is not refused is kept in ticks as it is, and is a score. -/
theorem Animation.lengthTicks_of_checkDuration {seconds : Float}
    (h : a.checkDuration seconds = .ok ()) :
    (lengthTicks seconds : Int) = max (secondsToTick seconds) 0 ∧
    lengthTicks seconds ≤ 2147483647 := by
  have hplayable : isPlayable seconds = true := by
    unfold checkDuration at h
    split at h
    · assumption
    · cases h
  have hticks : secondsToTick seconds ≤ maxTicks := by
    simp only [isPlayable, Bool.and_eq_true, decide_eq_true_eq] at hplayable
    exact hplayable.2
  unfold maxTicks at hticks
  unfold lengthTicks
  omega

/-- The lengths of such animations are scores. -/
theorem Animation.duration_le_of_check (h : a.check = .ok ()) : a.duration ≤ 2147483647 := by
  obtain ⟨_, hlength, -⟩ := exists_of_bind_ok h
  exact (lengthTicks_of_checkDuration hlength).2

theorem startTracks_keyed {channels : Array Channels} {rest : List Pose}
    (hlength : channels.size = rest.length) :
    (startTracks rig channels rest).map Track.keyed = rig.slots.toList.zip channels.toList := by
  have hsplit : (startTracks rig channels rest).map Track.keyed =
      (rig.slots.toList.zip (channels.toList.zip rest)).map (Prod.map id Prod.fst) := by
    rw [startTracks, List.map_map]
    rfl
  rw [hsplit, ← List.zip_map_right, List.map_fst_zip (Nat.le_of_eq hlength)]

theorem startTracks_uuids {channels : Array Channels} {rest : List Pose}
    (hchannels : channels.size = rig.size) (hrest : rest.length = rig.size) :
    (startTracks rig channels rest).map (·.slot.node.uuid) =
      rig.slots.toList.map (·.node.uuid) := by
  have huuids : (startTracks rig channels rest).map (·.slot.node.uuid) =
      ((rig.slots.toList.zip channels.toList).map Prod.fst).map (·.node.uuid) := by
    rw [← startTracks_keyed (hchannels.trans hrest.symm), List.map_map, List.map_map]
    rfl
  rw [huuids, List.map_fst_zip (Nat.le_of_eq hchannels.symm)]

/-- A node begins with its keys and its pose at rest. -/
theorem exists_startTrack {channels : Array Channels} {rest : List Pose} {place : Nat}
    {slot : Slot} (hchannels : channels.size = rig.size) (hrest : rest.length = rig.size)
    (hslot : rig.slots[place]? = some slot) :
    ∃ own pose, channels[place]? = some own ∧ rest[place]? = some pose ∧
      (startTracks rig channels rest)[place]? =
        some { slot := slot, channels := own, rest := pose.matrix } := by
  obtain ⟨hplace, -⟩ := Array.getElem?_eq_some_iff.1 hslot
  have hslot : rig.slots.toList[place]? = some slot := by rwa [Array.getElem?_toList]
  obtain ⟨own, hown⟩ : ∃ own, channels.toList[place]? = some own :=
    ⟨_, List.getElem?_eq_getElem (by rw [Array.length_toList, hchannels]; exact hplace)⟩
  obtain ⟨pose, hpose⟩ : ∃ pose, rest[place]? = some pose :=
    ⟨_, List.getElem?_eq_getElem (by rw [hrest]; exact hplace)⟩
  have hitem : (rig.slots.toList.zip (channels.toList.zip rest))[place]? =
      some (slot, own, pose) :=
    List.getElem?_zip_eq_some.2 ⟨hslot, List.getElem?_zip_eq_some.2 ⟨hown, hpose⟩⟩
  refine ⟨own, pose, by rwa [Array.getElem?_toList] at hown, hpose, ?_⟩
  rw [startTracks, List.getElem?_map, hitem]
  rfl

/-- A clip that is sampled comes from a run over all its ticks, and holds the nodes that are moved
in it. -/
theorem exists_run_of_sample (hrig : rig.IsBuilt)
    (h : sample rig a config names = .ok (clip, remarks)) :
    ∃ channels w1 rest tracksAt frameAt,
      assignChannels rig a (Array.replicate rig.size {}) a.animators = .ok (channels, w1) ∧
      channels.size = rig.size ∧ restPoses rig config = .ok rest ∧
      tracksAt 0 = startTracks rig channels rest ∧
      SamplerRun rig a config clip.duration tracksAt frameAt ∧ clip.Records frameAt ∧
      clip.modifiedNodes =
        ((tracksAt clip.duration).filter (·.modified)).map (·.slot.node.uuid) := by
  obtain ⟨channels, w1, rest, r, hchannels, hrest, hsampled, hmodified, hframes⟩ := sample_eq h
  have hduration := (takesOver_of_sample h).duration
  have hsize : channels.size = rig.size := by
    rw [size_assignChannels hchannels, Array.size_replicate]
  obtain ⟨tracksAt, frameAt, hstart, hend, hticks, hrecorded⟩ := exists_run_of_sampleFrom hsampled
  change tracksAt 0 = startTracks rig channels rest at hstart
  have hrun : SamplerRun rig a config clip.duration tracksAt frameAt := by
    constructor
    case step => exact fun tick htick => hticks tick (Nat.zero_le _) (by omega)
    case nodup =>
      rw [hstart, startTracks_uuids hsize (restPoses_eq hrest).1]
      exact hrig.nodup_uuids
  refine ⟨channels, w1, rest, tracksAt, frameAt, hchannels, hsize, hrest, hstart, hrun, ?_, ?_⟩
  · constructor
    case tick => exact hrun.tick_frameAt
    case frames =>
      rw [hframes, hrecorded, hduration]
      rfl
  · rw [hmodified, ← hend, hduration, Nat.zero_add]

/-- Every tick of a clip that is sampled has at most one frame. -/
theorem sample_isSparse (hrig : rig.IsBuilt)
    (h : sample rig a config names = .ok (clip, remarks)) : clip.IsSparse := by
  obtain ⟨-, -, -, -, frameAt, -, -, -, -, -, hrecords, -⟩ := exists_run_of_sample hrig h
  exact hrecords.isSparse

/-- Nodes that are not moved have no entries in a clip that is sampled. -/
theorem entryAt?_of_sample (hrig : rig.IsBuilt)
    (h : sample rig a config names = .ok (clip, remarks)) :
    ∀ uuid ∉ clip.modifiedNodes, ∀ tick, clip.entryAt? uuid tick = none := by
  obtain ⟨-, -, -, -, frameAt, -, -, -, -, -, hrecords, -⟩ := exists_run_of_sample hrig h
  exact fun _ huuid => hrecords.entryAt?_eq_none huuid

/-- The latest entry of a node has the matrix of the tick. -/
theorem Track.Run.exists_latestAt? {precision : Float} {matrix : Nat → Mat4} {track : Nat → Track}
    {entry : Nat → Option NodeEntry} (h : Track.Run a precision count matrix track entry)
    (hkind : (track 0).slot.node.kind ≠ .locator false) {uuid : Uuid}
    (hentry : ∀ tick < count, clip.entryAt? uuid tick = entry tick) :
    ∀ tick < count, ∃ e, clip.latestAt? uuid tick = some e ∧ e.pose.matrix = matrix tick := by
  intro tick htick
  induction tick with
  | zero =>
    obtain ⟨e, he⟩ := h.exists_entry_zero hkind htick
    exact ⟨e, (hentry 0 htick).trans he, ((h.reads 0 htick).kept e he).1⟩
  | succ tick ih =>
    rw [Clip.latestAt?, hentry _ htick]
    cases he : entry (tick + 1) with
    | some e => exact ⟨e, rfl, ((h.reads _ htick).kept e he).1⟩
    | none =>
      obtain ⟨e, hlatest, hmatrix⟩ := ih (Nat.lt_of_succ_lt htick)
      exact ⟨e, hlatest, hmatrix.trans (h.eq_of_entry_eq_none hkind htick he)⟩

/-- A node is in the list of moved nodes if its track says so at the end. -/
theorem SamplerRun.mem_modified_iff {tracksAt : Nat → List Track} {frameAt : Nat → Frame}
    (h : SamplerRun rig a config count tracksAt frameAt) {track : Track}
    (htrack : track ∈ tracksAt count) :
    track.slot.node.uuid ∈ ((tracksAt count).filter (·.modified)).map (·.slot.node.uuid) ↔
      track.modified = true := by
  constructor
  · intro hmem
    obtain ⟨t, ht, huuid⟩ := List.mem_map.1 hmem
    obtain ⟨ht, hmodified⟩ := List.mem_filter.1 ht
    have hnodup := h.nodup_of_keyed_eq (h.keyed_eq count (Nat.le_refl _))
    rwa [← List.inj_on_of_nodup_map hnodup ht htrack huuid]
  · exact fun hmodified => List.mem_map_of_mem (List.mem_filter.2 ⟨htrack, hmodified⟩)

/-- What happens to a node while a clip is sampled, and what the clip has of it. -/
theorem exists_keyedRun_of_sample (hrig : rig.IsBuilt)
    (h : sample rig a config names = .ok (clip, remarks)) {place : Nat} {slot : Slot}
    (hslot : rig.slots[place]? = some slot) :
    ∃ channels w1 matrix track entry,
      assignChannels rig a (Array.replicate rig.size {}) a.animators = .ok (channels, w1) ∧
      channels[place]? = some (track 0).channels ∧
      Track.Run a config.precisionScale clip.duration matrix track entry ∧
      (track 0).slot = slot ∧
      (∀ tick, a.matrixAt? rig config tick place = some (matrix tick)) ∧
      rig.restMatrix? config place = some (track 0).rest ∧
      (slot.node.uuid ∈ clip.modifiedNodes ↔ (track clip.duration).modified = true) ∧
      (slot.node.uuid ∈ clip.modifiedNodes →
        ∀ tick < clip.duration, clip.entryAt? slot.node.uuid tick = entry tick) := by
  -- the run over all nodes, and in it the track of this one
  obtain ⟨channels, w1, rest, tracksAt, frameAt, hchannels, hsize, hrest, hstart, hrun, hrecords,
    hmodified⟩ := exists_run_of_sample hrig h
  obtain ⟨hlength, hrounded⟩ := restPoses_eq hrest
  obtain ⟨own, pose, hown, hpose, hfirst⟩ := exists_startTrack hsize hlength hslot
  rw [← hstart] at hfirst
  obtain ⟨world, track, hworld, hzero, hend, htrack⟩ :=
    hrun.exists_trackRun hfirst rfl rfl rfl (hrounded pose (List.mem_of_getElem? hpose))
  rw [hstart, startTracks_keyed (hsize.trans hlength.symm)] at hworld
  have hslotEnd : (track clip.duration).slot = slot := by
    rw [htrack.slot_eq _ (Nat.le_refl _), hzero]
  refine ⟨channels, w1, _, track, _, hchannels, by rw [hzero, hown], htrack, by rw [hzero], ?_, ?_,
    ?_, ?_⟩
  · intro tick
    rw [Animation.matrixAt?, hchannels]
    dsimp only
    rw [hworld tick]
    rfl
  · rw [Rig.restMatrix?, hrest, hzero]
    dsimp only
    rw [hpose]
    rfl
  · rw [hmodified, ← hslotEnd, hrun.mem_modified_iff (List.mem_of_getElem? hend)]
  · exact fun hmem tick htick => hrecords.entryAt?_eq hmem htick

/-- The same, where the keys do not matter. -/
theorem exists_trackRun_of_sample (hrig : rig.IsBuilt)
    (h : sample rig a config names = .ok (clip, remarks)) {place : Nat} {slot : Slot}
    (hslot : rig.slots[place]? = some slot) :
    ∃ matrix track entry,
      Track.Run a config.precisionScale clip.duration matrix track entry ∧
      (track 0).slot = slot ∧
      (∀ tick, a.matrixAt? rig config tick place = some (matrix tick)) ∧
      rig.restMatrix? config place = some (track 0).rest ∧
      (slot.node.uuid ∈ clip.modifiedNodes ↔ (track clip.duration).modified = true) ∧
      (slot.node.uuid ∈ clip.modifiedNodes →
        ∀ tick < clip.duration, clip.entryAt? slot.node.uuid tick = entry tick) := by
  obtain ⟨-, -, matrix, track, entry, -, -, hrun⟩ := exists_keyedRun_of_sample hrig h hslot
  exact ⟨matrix, track, entry, hrun⟩

/-- Frames lose no pose: whatever rig is built and whatever clip is sampled, a moved node has an
entry at the first tick, and at every tick it has the matrix of its latest entry.  Every other node
has its matrix at rest. -/
theorem sample_lossless (name : String) (nodes : List RigNode) (variants : List Variant)
    (a : Animation) (config : Config) (names : ClipNames) :
    Ensures (Rig.build name nodes variants) fun rig =>
      Ensures (sample rig a config names) fun (clip, _) =>
        ∀ tick < clip.duration, ∀ (place : Nat) (slot : Slot), rig.slots[place]? = some slot →
          slot.node.kind ≠ .locator false →
            ∃ matrix, a.matrixAt? rig config tick place = some matrix ∧
              (slot.node.uuid ∈ clip.modifiedNodes →
                (∃ entry, clip.entryAt? slot.node.uuid 0 = some entry) ∧
                ∃ entry, clip.latestAt? slot.node.uuid tick = some entry ∧
                  entry.pose.matrix = matrix) ∧
              (slot.node.uuid ∉ clip.modifiedNodes →
                rig.restMatrix? config place = some matrix) := by
  refine Ensures.intro fun rig hbuild => Ensures.intro ?_
  rintro ⟨clip, remarks⟩ hclip tick htick place slot hslot hkind
  obtain ⟨matrix, track, entry, hrun, rfl, hmatrix, hrest, hmodified, hentry⟩ :=
    exists_trackRun_of_sample ⟨name, nodes, variants, hbuild⟩ hclip hslot
  have hpositive : 0 < clip.duration := Nat.zero_lt_of_lt htick
  refine ⟨matrix tick, hmatrix tick, ?_, ?_⟩
  · intro hmem
    constructor
    · obtain ⟨e, he⟩ := hrun.exists_entry_zero hkind hpositive
      exact ⟨e, (hentry hmem 0 hpositive).trans he⟩
    · exact hrun.exists_latestAt? hkind (hentry hmem) tick htick
  · intro hnot
    have hstill : (track clip.duration).modified = false := by
      rw [hmodified] at hnot
      exact Bool.of_not_eq_true hnot
    -- What is not moved at the end was not moved at the tick either.
    rw [hrun.at_rest hkind tick htick (hrun.modified_mono _ (Nat.le_refl _) htick hstill)]
    exact hrest

end Sample

end Marionette
