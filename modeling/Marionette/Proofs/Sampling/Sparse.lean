import Marionette.Proofs.Bisection
import Marionette.Proofs.Sampling.Lossless

/-!
# Frames are sparse and in order

- `Clip.searchFrame?_eq_some_iff`: in frames that are in order the search finds the frame of a tick;
  `Clip.searchFrame?_eq_frameAt?`.
- `Clip.IsOrdered`: frames are in the order of their ticks, entries in the order of the nodes, and
  nothing is kept without need; `Clip.Records.isOrdered`.
- `Track.Run.last_eq_latest`: the last matrix of a track is the one of its latest entry.
- `Track.Run.exists_reason`: a track has been moved by one of its entries.
- `sample_sparse`: all this holds of a clip that is sampled.
-/

namespace Marionette

variable {rig : Rig} {a : Animation} {config : Config} {names : ClipNames} {clip : Clip}
  {remarks : List Diagnostic} {count tick : Nat} {uuid : Uuid}

/-! ### Order -/

/-- In frames that are in the order of their ticks the search finds the frame of a tick, and none if
there is none. -/
theorem Clip.searchFrame?_eq_some_iff (h : clip.frames.Pairwise fun f g => f.tick < g.tick)
    {f : Frame} : clip.searchFrame? tick = some f ↔ f ∈ clip.frames ∧ f.tick = tick := by
  unfold searchFrame?
  dsimp only
  rw [Option.filter_eq_some_iff, decide_eq_true_eq]
  constructor
  · rintro ⟨hf, htick⟩
    exact ⟨List.mem_of_getElem? hf, htick⟩
  · rintro ⟨hf, rfl⟩
    obtain ⟨last, hlast, rfl⟩ := List.mem_iff_getElem.1 hf
    rw [Bisection.narrow_getElem h hlast fun i hi => by
      rw [List.getElem?_eq_getElem hi, Option.any_some, decide_eq_true_eq]]
    exact ⟨List.getElem?_eq_getElem hlast, rfl⟩

/-- In frames that are in order the search finds what going through all of them finds. -/
theorem Clip.searchFrame?_eq_frameAt? (h : clip.frames.Pairwise fun f g => f.tick < g.tick) :
    clip.searchFrame? tick = clip.frameAt? tick := by
  have hnodup : (clip.frames.map (·.tick)).Nodup := List.pairwise_map.2 (h.imp Nat.ne_of_lt)
  ext f
  rw [Clip.searchFrame?_eq_some_iff h, frameAt?, DispatchTree.find?_tick_eq_some_iff hnodup]

/-- Frames are in the order of their ticks and none is empty; their entries are in the order of the
nodes and belong to nodes that are moved. -/
structure Clip.IsOrdered (clip : Clip) (rig : Rig) : Prop where
  increasing : clip.frames.Pairwise fun f g => f.tick < g.tick
  lt : ∀ f ∈ clip.frames, f.tick < clip.duration
  full : ∀ f ∈ clip.frames, f.isEmpty = false
  moved : ∀ f ∈ clip.frames, ∀ n ∈ f.nodes, n.1 ∈ clip.modifiedNodes
  order : ∀ f ∈ clip.frames, (f.nodes.map (·.1)).Sublist (rig.slots.toList.map (·.node.uuid))

/-- Entries lie before the end. -/
theorem Clip.IsOrdered.lt_of_entryAt? (h : clip.IsOrdered rig) {e : NodeEntry}
    (he : clip.entryAt? uuid tick = some e) : tick < clip.duration := by
  obtain ⟨f, hf, -⟩ := Option.bind_eq_some_iff.1 he
  have htick := List.find?_some hf
  obtain rfl : f.tick = tick := of_decide_eq_true htick
  exact h.lt f (List.mem_of_find?_eq_some hf)

/-- What is left out of the frames of all ticks does not disturb their order. -/
theorem Clip.Records.isOrdered {frameAt : Nat → Frame} (h : clip.Records frameAt)
    (horder : ∀ tick < clip.duration,
      ((frameAt tick).nodes.map (·.1)).Sublist (rig.slots.toList.map (·.node.uuid))) :
    clip.IsOrdered rig := by
  constructor
  case increasing =>
    have hticks : ((List.range' 0 clip.duration).map frameAt).Pairwise
        fun f g => f.tick < g.tick := by
      refine List.pairwise_map.2 (List.Pairwise.imp_of_mem ?_ List.pairwise_lt_range')
      intro t t' ht ht' hlt
      rwa [h.tick t (by have := List.mem_range'_1.1 ht; omega),
        h.tick t' (by have := List.mem_range'_1.1 ht'; omega)]
    rw [h.frames]
    exact List.Pairwise.filter _ (List.pairwise_map.2 (List.Pairwise.filter _ hticks))
  case lt => exact h.isSparse.lt
  case full =>
    intro f hf
    obtain ⟨tick, -, -, hfull⟩ := h.mem_iff.1 hf
    exact hfull
  case moved =>
    intro f hf n hn
    obtain ⟨tick, -, rfl, -⟩ := h.mem_iff.1 hf
    exact of_decide_eq_true (List.mem_filter.1 hn).2
  case order =>
    intro f hf
    obtain ⟨tick, htick, rfl, -⟩ := h.mem_iff.1 hf
    exact (List.filter_sublist.map _).trans (horder tick htick)

/-! ### Entries of a node -/

namespace Track.Run

variable {precision : Float} {matrix : Nat → Mat4} {track : Nat → Track}
  {entry : Nat → Option NodeEntry}

/-- After each tick the last matrix is the one of the latest entry. -/
theorem last_eq_latest (h : Track.Run a precision count matrix track entry)
    (hentry : ∀ tick < count, clip.entryAt? uuid tick = entry tick) :
    ∀ tick < count, (track (tick + 1)).last = (clip.latestAt? uuid tick).map (·.pose.matrix) := by
  intro tick htick
  induction tick with
  | zero =>
    rw [Clip.latestAt?, hentry 0 htick]
    cases he : entry 0 with
    | some e =>
      obtain ⟨hmatrix, hlast, -⟩ := (h.reads 0 htick).kept e he
      rw [hlast, Option.map_some, hmatrix]
    | none => exact ((h.reads 0 htick).dropped he).1.trans h.last
  | succ tick ih =>
    rw [Clip.latestAt?, hentry _ htick]
    cases he : entry (tick + 1) with
    | some e =>
      obtain ⟨hmatrix, hlast, -⟩ := (h.reads _ htick).kept e he
      rw [hlast, Option.some_or, Option.map_some, hmatrix]
    | none =>
      rw [Option.none_or, ((h.reads _ htick).dropped he).1]
      exact ih (Nat.lt_of_succ_lt htick)

/-- An entry without an effect shows another matrix than the entry before it. -/
theorem ne_of_latest (h : Track.Run a precision count matrix track entry)
    (hentry : ∀ tick < count, clip.entryAt? uuid tick = entry tick) (htick : tick + 1 < count)
    {e e' : NodeEntry} (he : clip.latestAt? uuid tick = some e) (he' : entry (tick + 1) = some e')
    (heffect : e'.effect = none) : (e.pose.matrix == e'.pose.matrix) = false := by
  obtain ⟨hmatrix, -, hwhy, -⟩ := (h.reads _ htick).kept e' he'
  rw [h.last_eq_latest hentry tick (Nat.lt_of_succ_lt htick), he, heffect] at hwhy
  rw [hmatrix]
  exact (Bool.not_eq_true' _).mp hwhy

/-- What has been moved has an entry that moved it: one with an effect or away from its rest. -/
theorem exists_reason (h : Track.Run a precision count matrix track entry) :
    ∀ tick ≤ count, (track tick).modified = true →
      ∃ t < tick, ∃ e, entry t = some e ∧
        (e.effect.isSome = true ∨ ((track 0).rest == e.pose.matrix) = false) := by
  intro tick htick hmodified
  induction tick with
  | zero =>
    rw [h.modified] at hmodified
    cases hmodified
  | succ tick ih =>
    have hbefore (hmodified : (track tick).modified = true) :=
      ih (Nat.le_of_succ_le htick) hmodified
    cases he : entry tick with
    | none =>
      rw [((h.reads tick htick).dropped he).2.1] at hmodified
      obtain ⟨t, ht, hreason⟩ := hbefore hmodified
      exact ⟨t, Nat.lt_succ_of_lt ht, hreason⟩
    | some e =>
      obtain ⟨hmatrix, -, -, hwhy⟩ := (h.reads tick htick).kept e he
      rw [hwhy, h.rest_eq tick (Nat.le_of_succ_le htick), ← hmatrix] at hmodified
      rcases Bool.or_eq_true_iff.1 hmodified with hearlier | hnow
      · obtain ⟨t, ht, hreason⟩ := hbefore hearlier
        exact ⟨t, Nat.lt_succ_of_lt ht, hreason⟩
      · refine ⟨tick, Nat.lt_succ_self tick, e, he, ?_⟩
        rcases Bool.or_eq_true_iff.1 hnow with heffect | hfar
        · exact .inl heffect
        · exact .inr ((Bool.not_eq_true' _).mp (Bool.and_eq_true_iff.1 hfar).2)

end Track.Run

/-! ### Clips that are sampled -/

/-- Nodes that are moved are nodes of the rig. -/
theorem exists_slot_of_modified (hrig : rig.IsBuilt)
    (h : sample rig a config names = .ok (clip, remarks)) (huuid : uuid ∈ clip.modifiedNodes) :
    ∃ (place : Nat) (slot : Slot), rig.slots[place]? = some slot ∧ slot.node.uuid = uuid := by
  obtain ⟨channels, w1, rest, tracksAt, frameAt, -, hsize, hrest, hstart, hrun, -, hmodified⟩ :=
    exists_run_of_sample hrig h
  rw [hmodified] at huuid
  obtain ⟨track, htrack, rfl⟩ := List.mem_map.1 huuid
  have hmem : track.slot.node.uuid ∈ rig.slots.toList.map (·.node.uuid) := by
    rw [← startTracks_uuids hsize (restPoses_eq hrest).1, ← hstart, ← hrun.uuids_eq le_rfl]
    exact List.mem_map_of_mem (List.mem_filter.1 htrack).1
  obtain ⟨slot, hslot, heq⟩ := List.mem_map.1 hmem
  obtain ⟨place, hplace⟩ := List.getElem?_of_mem hslot
  exact ⟨place, slot, by rwa [Array.getElem?_toList] at hplace, heq⟩

/-- The frames of a clip that is sampled are in order. -/
theorem isOrdered_of_sample (hrig : rig.IsBuilt)
    (h : sample rig a config names = .ok (clip, remarks)) : clip.IsOrdered rig := by
  obtain ⟨channels, w1, rest, tracksAt, frameAt, -, hsize, hrest, hstart, hrun, hrecords, -⟩ :=
    exists_run_of_sample hrig h
  refine hrecords.isOrdered fun tick htick => ?_
  obtain ⟨here, hstep⟩ := hrun.step tick htick
  have huuids := hrun.uuids_eq (Nat.le_of_lt htick)
  obtain ⟨-, -, hsublist, -⟩ := sampleTick_at hstep (huuids ▸ hrun.nodup)
  rwa [huuids, hstart, startTracks_uuids hsize (restPoses_eq hrest).1] at hsublist

/-- Frames are sparse: whatever rig is built and whatever clip is sampled, frames and entries are in
order and none is empty.  Of two entries of a node that follow each other the later one runs
commands or shows another matrix, and every moved node runs commands or leaves its rest at some
tick.  A search finds the frame of a tick if there is one, and nothing otherwise. -/
theorem sample_sparse (name : String) (nodes : List RigNode) (variants : List Variant)
    (a : Animation) (config : Config) (names : ClipNames) :
    Ensures (Rig.build name nodes variants) fun rig =>
      Ensures (sample rig a config names) fun (clip, _) =>
        clip.IsOrdered rig ∧
          (∀ (uuid : Uuid) (t t' : Nat) (e e' : NodeEntry), t < t' →
            clip.entryAt? uuid t = some e → clip.entryAt? uuid t' = some e' →
            (∀ s, t < s → s < t' → clip.entryAt? uuid s = none) →
            e'.effect = none → (e.pose.matrix == e'.pose.matrix) = false) ∧
          (∀ uuid ∈ clip.modifiedNodes, ∃ (place : Nat) (slot : Slot) (rest : Mat4) (t : Nat)
            (e : NodeEntry), rig.slots[place]? = some slot ∧ slot.node.uuid = uuid ∧
              rig.restMatrix? config place = some rest ∧ clip.entryAt? uuid t = some e ∧
              (e.effect.isSome = true ∨ (rest == e.pose.matrix) = false)) ∧
          ∀ (tick : Nat) (f : Frame),
            clip.searchFrame? tick = some f ↔ f ∈ clip.frames ∧ f.tick = tick := by
  refine Ensures.intro fun rig hbuild => Ensures.intro ?_
  rintro ⟨clip, remarks⟩ hclip
  have hrig : rig.IsBuilt := ⟨name, nodes, variants, hbuild⟩
  have hordered := isOrdered_of_sample hrig hclip
  refine ⟨hordered, ?_, ?_, fun tick f => Clip.searchFrame?_eq_some_iff hordered.increasing⟩
  · intro uuid t t' e e' hlt he he' hnone heffect
    -- between two neighbouring entries the first one is the latest, and the second one differs
    -- from it
    by_cases huuid : uuid ∈ clip.modifiedNodes
    · obtain ⟨place, slot, hslot, rfl⟩ := exists_slot_of_modified hrig hclip huuid
      obtain ⟨matrix, track, entry, hrun, -, -, -, -, hentry⟩ :=
        exists_trackRun_of_sample hrig hclip hslot
      obtain ⟨tick, rfl⟩ : ∃ tick, t' = tick + 1 := ⟨t' - 1, by omega⟩
      have htick : tick + 1 < clip.duration := hordered.lt_of_entryAt? he'
      have hlatest : clip.latestAt? slot.node.uuid tick = some e :=
        Clip.latestAt?_eq_some_iff.2
          ⟨t, by omega, he, fun s hs hle => hnone s hs (by omega)⟩
      exact hrun.ne_of_latest (hentry huuid) htick hlatest
        ((hentry huuid _ htick).symm.trans he') heffect
    · cases (entryAt?_of_sample hrig hclip uuid huuid t).symm.trans he
  · intro uuid huuid
    obtain ⟨place, slot, hslot, rfl⟩ := exists_slot_of_modified hrig hclip huuid
    obtain ⟨matrix, track, entry, hrun, -, -, hrest, hmodified, hentry⟩ :=
      exists_trackRun_of_sample hrig hclip hslot
    -- a node is modified for a reason, which is an effect or a matrix other than at rest
    obtain ⟨t, ht, e, he, hreason⟩ := hrun.exists_reason _ le_rfl (hmodified.1 huuid)
    exact ⟨place, slot, _, t, e, hslot, rfl, hrest, (hentry huuid t ht).trans he, hreason⟩

end Marionette
