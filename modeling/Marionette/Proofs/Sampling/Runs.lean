import Marionette.Proofs.Rig
import Marionette.Proofs.Sampling.Tracks

/-!
# Runs of the sampler

- `assignChannels_cons_ok_iff`: animators are taken one after the other.
- `restPoses_eq`: there is a pose at rest for each node.
- `sampleTick_at`: what the sampler does at one tick.
- `SamplerRun`: the tracks before each tick, and the frame of each tick;
  `exists_run_of_sampleFrom` finds them.
- `SamplerRun.exists_trackRun`: what happens to one of the nodes.
-/

namespace Marionette

variable {rig : Rig} {a : Animation} {config : Config}

/-! ### One matrix and one marker for each node -/

theorem size_foldl_push {α β : Type} (next : Array β → α → β) (xs : List α) (start : Array β) :
    (xs.foldl (fun ys x => ys.push (next ys x)) start).size = start.size + xs.length := by
  induction xs generalizing start with
  | nil => rfl
  | cons x xs ih =>
    rw [List.foldl_cons, ih, Array.size_push, List.length_cons]
    omega

theorem size_markersAt (keyed : List (Slot × Channels)) (time : Float) :
    (markersAt keyed time).size = keyed.length :=
  (size_foldl_push _ keyed #[]).trans (Nat.zero_add _)

theorem size_worldMatrices (keyed : List (Slot × Channels)) (timeOf : Nat → Float) :
    (worldMatrices rig keyed timeOf).size = keyed.length :=
  (size_foldl_push _ keyed #[]).trans (Nat.zero_add _)

section Assign

variable {channels channels' : Array Channels} {animator : Animator} {animators : List Animator}
  {remarks : List Diagnostic}

/-- The keys of the first animator are put beside its node, and then those of the others. -/
theorem assignChannels_cons_ok_iff :
    assignChannels rig a channels (animator :: animators) = .ok (channels', remarks) ↔
      ∃ i later, rig.indexOf? animator.node = some i ∧
        assignChannels rig a
          (channels.setIfInBounds i (trimAnimator a (rig.slots.getD i default) animator).1)
          animators = .ok (channels', later) ∧
        remarks = (trimAnimator a (rig.slots.getD i default) animator).2 ++ later := by
  rw [assignChannels]
  cases rig.indexOf? animator.node with
  | none => exact ⟨(nomatch ·), fun ⟨_, _, hnone, _⟩ => nomatch hnone⟩
  | some i =>
    dsimp only
    constructor
    · intro h
      obtain ⟨⟨assigned, later⟩, hrest, h⟩ := exists_of_bind_ok h
      cases h
      exact ⟨i, later, rfl, hrest, rfl⟩
    · rintro ⟨_, later, ⟨⟩, hrest, rfl⟩
      rw [hrest]
      rfl

theorem size_assignChannels
    (h : assignChannels rig a channels animators = .ok (channels', remarks)) :
    channels'.size = channels.size := by
  induction animators generalizing channels remarks with
  | nil =>
    cases h
    rfl
  | cons animator animators ih =>
    obtain ⟨i, later, -, hrest, -⟩ := assignChannels_cons_ok_iff.1 h
    rw [ih hrest, Array.size_setIfInBounds]

end Assign

/-- The poses at rest have rounded matrices, one for each node. -/
theorem restPoses_eq {rest : List Pose} (h : restPoses rig config = .ok rest) :
    rest.length = rig.size ∧
      ∀ pose ∈ rest, ∃ world : Mat4, pose.matrix = world.rounded config.precisionScale := by
  have hposes := forall₂_of_mapM_ok h
  constructor
  · rw [← hposes.length_eq, List.length_zip, Array.length_toList, Array.length_toList,
      size_worldMatrices, List.length_map, Array.length_toList, Nat.min_self]
    rfl
  · intro pose hpose
    obtain ⟨p, -, hread⟩ := exists_of_mem_right hposes hpose
    split at hread
    split at hread
    · next pose hpose =>
      cases hread
      exact ⟨_, Pose.matrix_of_ofMatrix? hpose⟩
    · cases hread

/-! ### Runs of the sampler -/

variable {tick count : Nat} {tracks tracks' : List Track} {frame : Frame}
  {remarks : List Diagnostic}

/-- Every node is read with its marker and its matrix at the tick, and the frame holds the entries
in the order of the nodes. -/
theorem sampleTick_at
    (h : sampleTick rig a config tick tracks = .ok (tracks', frame, remarks))
    (hnodup : (tracks.map (·.slot.node.uuid)).Nodup) :
    frame.tick = tick ∧ tracks'.map Track.keyed = tracks.map Track.keyed ∧
      (frame.nodes.map (·.1)).Sublist (tracks.map (·.slot.node.uuid)) ∧
      ∀ {place : Nat} {track : Track}, tracks[place]? = some track →
        ∃ marker world track' here,
          (sceneAt rig config (tracks.map Track.keyed) tick).1[place]? = some marker ∧
          (sceneAt rig config (tracks.map Track.keyed) tick).2[place]? = some world ∧
          tracks'[place]? = some track' ∧
          sampleNode a config.precisionScale tick track marker world =
            .ok (track', Frame.entry? frame track.slot.node.uuid, here) := by
  obtain ⟨⟨tracks'', nodes, w1⟩, hnodes, h⟩ := exists_of_bind_ok h
  cases h
  change sampleNodes a config.precisionScale tick (tracks.zip
    ((sceneAt rig config (tracks.map Track.keyed) tick).1.toList.zip
      (sceneAt rig config (tracks.map Track.keyed) tick).2.toList)) = _ at hnodes
  -- There is a marker and a matrix for every track, so that no track is cut off.
  have hmarkers : (sceneAt rig config (tracks.map Track.keyed) tick).1.toList.length =
      tracks.length := by
    rw [Array.length_toList, sceneAt, size_markersAt, List.length_map]
  have hworlds : (sceneAt rig config (tracks.map Track.keyed) tick).2.toList.length =
      tracks.length := by
    rw [Array.length_toList, sceneAt, size_worldMatrices, List.length_map]
  generalize sceneAt rig config (tracks.map Track.keyed) tick = scene at hnodes hmarkers hworlds ⊢
  have htracks : (tracks.zip (scene.1.toList.zip scene.2.toList)).map Prod.fst = tracks := by
    refine List.map_fst_zip (Nat.le_of_eq ?_)
    rw [List.length_zip, hmarkers, hworlds, Nat.min_self]
  have huuids : ((tracks.zip (scene.1.toList.zip scene.2.toList)).map
      fun item => item.1.slot.node.uuid) = tracks.map (·.slot.node.uuid) := by
    conv_rhs => rw [← htracks, List.map_map]
    rfl
  refine ⟨rfl, ?_, huuids ▸ sampleNodes_sublist hnodes, ?_⟩
  · rw [sampleNodes_keyed hnodes]
    conv_rhs => rw [← htracks, List.map_map]
    rfl
  · intro place track htrack
    have hplace : place < tracks.length := (List.getElem?_eq_some_iff.1 htrack).1
    have hmarker := List.getElem?_eq_getElem (hmarkers ▸ hplace)
    have hworld := List.getElem?_eq_getElem (hworlds ▸ hplace)
    have hitem := List.getElem?_zip_eq_some (z := (track, _, _)) |>.2
      ⟨htrack, List.getElem?_zip_eq_some.2 ⟨hmarker, hworld⟩⟩
    obtain ⟨track', here, htrack', hread⟩ := sampleNodes_at hnodes (huuids.symm ▸ hnodup) hitem
    refine ⟨_, _, track', here, ?_, ?_, htrack', hread⟩
    · rw [← Array.getElem?_toList]
      exact hmarker
    · rw [← Array.getElem?_toList]
      exact hworld

/-- The tracks before each tick, and the frame of each tick; frames in which nothing changes are
left out. -/
theorem exists_run_of_sampleFrom {r r' : Recording}
    (h : sampleFrom rig a config count tick r = .ok r') :
    ∃ (tracks : Nat → List Track) (frames : Nat → Frame),
      tracks tick = r.tracks ∧ tracks (tick + count) = r'.tracks ∧
      (∀ t, tick ≤ t → t < tick + count →
        ∃ remarks, sampleTick rig a config t (tracks t) = .ok (tracks (t + 1), frames t, remarks)) ∧
      r'.frames.toList =
        r.frames.toList ++ ((List.range' tick count).map frames).filter (!·.isEmpty) := by
  induction count generalizing tick r with
  | zero =>
    cases h
    refine ⟨fun _ => r'.tracks, fun _ => default, rfl, rfl, ?_, ?_⟩
    · intro t hle hlt
      omega
    · rw [List.range'_zero, List.map_nil, List.filter_nil, List.append_nil]
  | succ count ih =>
    rw [sampleFrom] at h
    obtain ⟨⟨next, frame, here⟩, hfirst, h⟩ := exists_of_bind_ok h
    obtain ⟨tracks, frames, hstart, hend, hrun, hframes⟩ := ih h
    -- the run from the next tick on, with this tick put in front of it
    refine ⟨fun t => if t = tick then r.tracks else tracks t,
      fun t => if t = tick then frame else frames t, if_pos rfl, ?_, ?_, ?_⟩
    · dsimp only
      rw [if_neg (by omega), ← hend]
      congr 1
      omega
    · intro t hle hlt
      dsimp only
      rw [if_neg (show t + 1 ≠ tick by omega)]
      rcases Nat.eq_or_lt_of_le hle with rfl | hlater
      · rw [if_pos rfl, if_pos rfl, hstart]
        exact ⟨here, hfirst⟩
      · rw [if_neg (by omega), if_neg (by omega)]
        exact hrun t hlater (by omega)
    · have hlater : (List.range' (tick + 1) count).map
          (fun t => if t = tick then frame else frames t) =
            (List.range' (tick + 1) count).map frames := by
        refine List.map_congr_left fun t ht => ?_
        rw [if_neg (by have := List.mem_range'_1.1 ht; omega)]
      rw [List.range'_succ, List.map_cons, hlater, if_pos rfl, hframes]
      by_cases hempty : frame.isEmpty
      · rw [List.filter_cons_of_neg (by rw [hempty]; decide)]
        dsimp only
        rw [if_pos hempty]
      · rw [List.filter_cons_of_pos (by simpa using hempty)]
        dsimp only
        rw [if_neg hempty, Array.toList_push, List.append_assoc, List.singleton_append]

section Run

variable {tracksAt : Nat → List Track} {frameAt : Nat → Frame} {place : Nat} {first : Track}

/-- The nodes are read at the ticks before `count`, beginning with some tracks. -/
structure SamplerRun (rig : Rig) (a : Animation) (config : Config) (count : Nat)
    (tracksAt : Nat → List Track) (frameAt : Nat → Frame) : Prop where
  step : ∀ tick < count, ∃ remarks,
    sampleTick rig a config tick (tracksAt tick) = .ok (tracksAt (tick + 1), frameAt tick, remarks)
  nodup : ((tracksAt 0).map (·.slot.node.uuid)).Nodup

namespace SamplerRun

theorem nodup_of_keyed_eq (h : SamplerRun rig a config count tracksAt frameAt) {tracks : List Track}
    (hkeyed : tracks.map Track.keyed = (tracksAt 0).map Track.keyed) :
    (tracks.map (·.slot.node.uuid)).Nodup := by
  have huuids := congrArg (List.map (·.1.node.uuid)) hkeyed
  rw [List.map_map, List.map_map] at huuids
  exact huuids.symm ▸ h.nodup

/-- Nodes and keys stay as they are. -/
theorem keyed_eq (h : SamplerRun rig a config count tracksAt frameAt) :
    ∀ tick ≤ count, (tracksAt tick).map Track.keyed = (tracksAt 0).map Track.keyed := by
  intro tick htick
  induction tick with
  | zero => rfl
  | succ tick ih =>
    have hbefore := ih (Nat.le_of_succ_le htick)
    obtain ⟨remarks, hstep⟩ := h.step tick htick
    obtain ⟨-, hkeyed, -⟩ := sampleTick_at hstep (h.nodup_of_keyed_eq hbefore)
    rw [hkeyed, hbefore]

theorem uuids_eq (h : SamplerRun rig a config count tracksAt frameAt) {tick : Nat}
    (htick : tick ≤ count) :
    (tracksAt tick).map (·.slot.node.uuid) = (tracksAt 0).map (·.slot.node.uuid) := by
  have hkeyed := congrArg (List.map (·.1.node.uuid)) (h.keyed_eq tick htick)
  rwa [List.map_map, List.map_map] at hkeyed

theorem tick_frameAt (h : SamplerRun rig a config count tracksAt frameAt) :
    ∀ tick < count, (frameAt tick).tick = tick := by
  intro tick htick
  obtain ⟨remarks, hstep⟩ := h.step tick htick
  exact (sampleTick_at hstep (h.nodup_of_keyed_eq (h.keyed_eq tick (Nat.le_of_lt htick)))).1

/-- What happens to one of the nodes in the run. -/
theorem exists_trackRun (h : SamplerRun rig a config count tracksAt frameAt)
    (hfirst : (tracksAt 0)[place]? = some first) (hlast : first.last = none)
    (hmodified : first.modified = false) (hrepetition : first.repetition = none)
    (hrest : ∃ world : Mat4, first.rest = world.rounded config.precisionScale) :
    ∃ (world : Nat → Mat4) (track : Nat → Track),
      (∀ tick, (sceneAt rig config ((tracksAt 0).map Track.keyed) tick).2[place]? =
        some (world tick)) ∧
      track 0 = first ∧ (tracksAt count)[place]? = some (track count) ∧
      Track.Run a config.precisionScale count
        (fun tick => (world tick).rounded config.precisionScale)
        track (fun tick => Frame.entry? (frameAt tick) first.slot.node.uuid) := by
  obtain ⟨hplace, -⟩ := List.getElem?_eq_some_iff.1 hfirst
  have htracks : ∀ tick ≤ count, ∃ track, (tracksAt tick)[place]? = some track ∧
      track.slot = first.slot := by
    intro tick htick
    have hkeyed := h.keyed_eq tick htick
    have hsame := congrArg (·[place]?) hkeyed
    simp only [List.getElem?_map, hfirst, Option.map_some] at hsame
    obtain ⟨track, htrack, heq⟩ := Option.map_eq_some_iff.1 hsame
    exact ⟨track, htrack, congrArg Prod.fst heq⟩
  have hworlds : ∀ tick, ∃ world,
      (sceneAt rig config ((tracksAt 0).map Track.keyed) tick).2[place]? = some world := by
    intro tick
    have hsize : place < (sceneAt rig config ((tracksAt 0).map Track.keyed) tick).2.size := by
      rw [sceneAt, size_worldMatrices, List.length_map]
      exact hplace
    exact ⟨_, Array.getElem?_eq_getElem hsize⟩
  choose world hworld using hworlds
  -- beyond the last tick the track does not matter
  let track (tick : Nat) : Track := ((tracksAt tick)[place]?).getD first
  have htrack : ∀ tick ≤ count, (tracksAt tick)[place]? = some (track tick) ∧
      (track tick).slot = first.slot := by
    intro tick htick
    obtain ⟨t, ht, hslot⟩ := htracks tick htick
    have htrack : track tick = t := by
      show ((tracksAt tick)[place]?).getD first = t
      rw [ht, Option.getD_some]
    rw [htrack]
    exact ⟨ht, hslot⟩
  have hzero : track 0 = first := by
    show ((tracksAt 0)[place]?).getD first = first
    rw [hfirst, Option.getD_some]
  refine ⟨world, track, hworld, hzero, (htrack count (Nat.le_refl _)).1, ?_⟩
  constructor
  case step =>
    intro tick htick
    obtain ⟨remarks, hstep⟩ := h.step tick htick
    have hkeyed := h.keyed_eq tick (Nat.le_of_lt htick)
    obtain ⟨hnow, hslot⟩ := htrack tick (Nat.le_of_lt htick)
    obtain ⟨-, -, -, hread⟩ := sampleTick_at hstep (h.nodup_of_keyed_eq hkeyed)
    obtain ⟨marker, w, t, here, -, hw, ht, hread⟩ := hread hnow
    rw [hkeyed] at hw
    rw [hslot] at hread
    cases (hworld tick).symm.trans hw
    cases (htrack (tick + 1) htick).1.symm.trans ht
    exact ⟨marker, _, here, rfl, hread⟩
  case last => exact hzero ▸ hlast
  case modified => exact hzero ▸ hmodified
  case repetition => exact hzero ▸ hrepetition
  case rounded => exact fun tick => ⟨world tick, rfl⟩
  case rest => exact hzero ▸ hrest

end SamplerRun

end Run

end Marionette
