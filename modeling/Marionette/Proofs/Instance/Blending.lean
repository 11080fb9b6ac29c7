import Marionette.Proofs.Instance.Advancing
import Marionette.Proofs.Instance.Places
import Marionette.Proofs.Ride.Playing

/-!
# How nodes blend into their poses

A pose that is taken at once sets the interpolation duration of its node to zero, and the next pose
of the node sets it back.  Which poses have to set it back is decided in advance, in the order of
the ticks; where an animation starts again, all nodes are set back before.

- `Clip.snapsBefore`: the latest pose of a node before a tick is taken at once;
  `Stage.mem_flagsBefore`: the poses of a frame set the durations of just these nodes back.
- `Instance.interpOf_framed`: what a frame does to the interpolation duration of a node.
- `Instance.Blending`: an animation advances alone, and each node has the default duration unless
  its latest pose was taken at once.
- `Blending.onTicked`: so it is after every tick, and the nodes with poses at the tick have the
  durations that belong to these; `Blending.stopped`: what is left when an animation stops.
-/

namespace Marionette

/-! ### Poses that are taken at once -/

namespace Clip

/-- The latest pose of a node before a tick is taken at once. -/
def snapsBefore (clip : Clip) (uuid : Uuid) : Nat → Bool
  | 0 => false
  | tick + 1 => (clip.latestAt? uuid tick).any (·.pose.marker.isInstant)

theorem snapsBefore_succ (clip : Clip) (uuid : Uuid) (tick : Nat) :
    clip.snapsBefore uuid (tick + 1) =
      match clip.entryAt? uuid tick with
      | none => clip.snapsBefore uuid tick
      | some entry => entry.pose.marker.isInstant := by
  cases tick with
  | zero =>
    show (clip.entryAt? uuid 0).any _ = _
    cases clip.entryAt? uuid 0 <;> rfl
  | succ tick =>
    show ((clip.entryAt? uuid (tick + 1)).or (clip.latestAt? uuid tick)).any _ = _
    cases clip.entryAt? uuid (tick + 1) <;> rfl

end Clip

/-- Of frames in order, those before the next tick are those before a tick and the frame of this
tick. -/
theorem Increasing.takeWhile_succ {frames : List Frame} (h : Increasing frames) (tick : Nat) :
    frames.takeWhile (·.tick < tick + 1) =
      frames.takeWhile (·.tick < tick) ++
      (frames.find? fun f => decide (f.tick = tick)).toList := by
  induction frames with
  | nil => rfl
  | cons f rest ih =>
    obtain ⟨hf, hrest⟩ := List.pairwise_cons.1 h
    -- all later frames have larger ticks
    have hlater : ∀ n ≤ f.tick, rest.takeWhile (·.tick < n + 1) = [] := by
      intro n hn
      cases rest with
      | nil => rfl
      | cons g rest =>
        have hlt := hf g List.mem_cons_self
        exact List.takeWhile_cons_of_neg (by simp; omega)
    -- the first frame comes before the tick, at it, or after it
    rcases Nat.lt_trichotomy f.tick tick with hlt | rfl | hgt
    · rw [List.takeWhile_cons_of_pos (by simp; omega),
        List.takeWhile_cons_of_pos (by simpa using hlt), List.find?_cons_of_neg (by simp; omega),
        ih hrest, List.cons_append]
    · rw [List.takeWhile_cons_of_pos (by simp), List.takeWhile_cons_of_neg (by simp),
        List.find?_cons_of_pos (by simp), hlater _ (Nat.le_refl _)]
      rfl
    · have hnone : rest.find? (fun f => decide (f.tick = tick)) = none :=
        List.find?_eq_none.2 fun g hg => by
          have := hf g hg
          simp only [decide_eq_true_eq]
          omega
      rw [List.takeWhile_cons_of_neg (by simp; omega), List.takeWhile_cons_of_neg (by simp; omega),
        List.find?_cons_of_neg (by simp; omega), hnone]
      rfl

namespace Stage

variable {c : CompiledClip} {slot : Slot}

/-- The flag of a node before a tick. -/
theorem foldl_flagAfter (hbuilt : c.IsBuilt) (hsparse : c.clip.IsSparse)
    (hmatrix : slot.node.kind.isMatrix = true) (tick : Nat) :
    (c.tree.frames.takeWhile (·.tick < tick)).foldl (flagAfter slot) false =
      c.clip.snapsBefore slot.node.uuid tick := by
  have hinc : Increasing c.tree.frames := by
    rw [hbuilt, DispatchTree.frames_build]
    exact DispatchTree.increasing_distinctFrames _ _
  have hfind : ∀ tick, (c.tree.frames.find? fun f => decide (f.tick = tick)) =
      c.clip.frameAt? tick := by
    intro tick
    rw [hbuilt, DispatchTree.frames_build, ← DispatchTree.findFrame?_build]
    exact DispatchTree.findFrame?_build_of_nodup hsparse.nodup hsparse.lt tick
  induction tick with
  | zero =>
    have hnone : c.tree.frames.takeWhile (·.tick < 0) = [] := by
      cases c.tree.frames <;> rfl
    rw [hnone]
    rfl
  | succ tick ih =>
    rw [hinc.takeWhile_succ, hfind, List.foldl_append, ih, c.clip.snapsBefore_succ, Clip.entryAt?]
    cases c.clip.frameAt? tick with
    | none => rfl
    | some frame =>
      simp only [Option.toList_some, List.foldl_cons, List.foldl_nil, Option.bind_some]
      cases hentry : frame.entry? slot.node.uuid with
      | none => rw [flagAfter, hentry]
      | some entry =>
        rw [flagAfter, hentry]
        exact if_pos hmatrix

/-- A frame sets the durations of just those nodes back whose latest pose was taken at once. -/
theorem mem_flagsBefore (s : Stage) (hbuilt : c.IsBuilt) (hsparse : c.clip.IsSparse)
    (hslot : slot ∈ s.rig.slots.toList) (hmatrix : slot.node.kind.isMatrix = true) (frame : Frame) :
    (slot, c.clip.snapsBefore slot.node.uuid frame.tick) ∈ s.flagsBefore c.tree frame := by
  rw [flagsBefore, flagsAfter_eq, List.map_map, ← foldl_flagAfter hbuilt hsparse hmatrix]
  exact List.mem_map_of_mem hslot

/-- The interpolation duration that belongs to a pose. -/
def blend (s : Stage) (pose : Pose) : Datum :=
  .int (if pose.marker.isInstant then 0 else s.defaultInterp)

end Stage

/-- The interpolation duration of the data of an entity. -/
def Look.interp (look : Look) : Option Datum := Compound.get? look.data "interpolation_duration"

namespace Look

theorem interp_poseData (look : Look) (s : Stage) (pose : Pose) (restore : Bool) :
    (look.merged (s.poseData pose restore)).interp =
      if pose.marker.isInstant then some (.int 0)
      else if restore then some (.int s.defaultInterp)
      else look.interp := by
  have hfirst : Compound.get? (look.data.merge [("transformation", transformation pose.matrix),
      ("start_interpolation", .int (-1))]) "interpolation_duration" = look.interp :=
    Compound.get?_merge_of_ne look.data (by simp)
  show Compound.get? (look.data.merge (s.poseData pose restore)) "interpolation_duration" = _
  unfold Stage.poseData
  dsimp only
  rw [Compound.merge_append]
  split
  · exact Compound.get?_merge_int _ _ _
  · split
    · exact Compound.get?_merge_int _ _ _
    · rw [Compound.merge, hfirst]

theorem interp_timed (look : Look) (v : Int32) : (look.timed v).interp = some (.int v) :=
  (Compound.get?_insert look.data _ _ _).trans (if_pos rfl)

theorem interp_item (look : Look) (item : Datum) :
    (look.merged [("item", item)]).interp = look.interp :=
  Compound.get?_merge_of_ne look.data (by simp)

end Look

namespace Clip

/-- A tick that an animation with one of the loop modes goes on to play is not the last one there
is. -/
theorem lt_of_advance {clip : Clip} {mode : LoopMode} {time next : Int32}
    (h : clip.advance (some mode.score) time = (next, true)) : next.toInt < 2147483647 := by
  have hlt : ∀ {a b : Int32}, a < b → a.toInt < 2147483647 := by
    intro a b hab
    have hb := b.toInt_lt
    rw [Int32.lt_iff_toInt_lt] at hab
    omega
  unfold advance at h
  dsimp only at h
  split at h
  · rename_i hless
    exact (Prod.mk.inj h).1 ▸ hlt hless
  · cases mode with
    | loop =>
      rw [if_pos rfl] at h
      rw [← (Prod.mk.inj h).1]
      split
      · exact hlt ‹_›
      · decide
    | once => cases h
    | hold => cases h

end Clip

namespace Instance

variable {I : Instance} {c : CompiledClip} {sc : Scene} {slot : Slot} {r : Nat} {v : Int32}

/-- The interpolation duration of a passenger. -/
def interpOf (sc : Scene) (r : Nat) : Option Datum := (sc.look r).interp

/-- A passenger is the entity of a node that is written as a matrix. -/
structure IsMatrixBody (I : Instance) (r : Nat) (slot : Slot) : Prop where
  rider : r ∈ I.riders
  mem : slot ∈ I.stage.rig.slots.toList
  embodies : I.Embodies r slot
  isMatrix : slot.node.kind.isMatrix = true

theorem interpOf_synced (hr : r ∈ I.riders) (h : sc.score .interp = some v) :
    interpOf (I.synced sc) r = some (.int v) := by
  have hsynced : I.synced sc = I.riders.foldl (fun now r =>
      if (fun _ => true) r then now.relook r (·.timed v) else now) sc := by
    rw [synced, h]
    rfl
  rw [interpOf, hsynced, look_foldl_relook _ _ _ (List.nodup_cons.1 I.distinct).2, if_pos ⟨hr, rfl⟩]
  exact Look.interp_timed _ _

/-- What a frame does to the interpolation duration of a node: a pose that is taken at once sets it
to zero, and the next pose sets it back. -/
theorem interpOf_framed (hbody : I.IsMatrixBody r slot) (hbuilt : c.IsBuilt)
    (hsparse : c.clip.IsSparse) (hnames : (I.stage.rig.slots.toList.map (·.storageName)).Nodup)
    (frame : Frame) :
    interpOf (I.framed c.tree frame sc) r =
      match frame.entry? slot.node.uuid with
      | none => interpOf sc r
      | some entry =>
        if entry.pose.marker.isInstant || c.clip.snapsBefore slot.node.uuid frame.tick then
          some (I.stage.blend entry.pose)
        else interpOf sc r := by
  have hflags := I.stage.map_fst_flagsBefore c.tree frame
  have hown : ∀ flag ∈ I.stage.flagsBefore c.tree frame, I.isNode r flag.1.storageName =
      decide (flag.1.storageName = slot.storageName) := fun flag hflag =>
    hbody.embodies flag.1 (hflags ▸ List.mem_map_of_mem hflag)
  rw [← hflags, List.map_map] at hnames
  have hposed : interpOf (I.posed frame (I.stage.flagsBefore c.tree frame) sc) r = _ :=
    congrArg Look.interp (look_posed hbody.rider hnames
      (I.stage.mem_flagsBefore hbuilt hsparse hbody.mem hbody.isMatrix frame) hown
      (NodeKind.hasEntity_of_isMatrix hbody.isMatrix))
  have hframed : interpOf (I.framed c.tree frame sc) r =
      interpOf (I.posed frame (I.stage.flagsBefore c.tree frame) sc) r := by
    unfold framed
    dsimp only
    split
    · rfl
    · refine happenings_same (interpOf · r) (fun id item sc => ?_) fun _ _ _ => rfl
      unfold interpOf
      rw [Scene.relook_look]
      split
      · exact Look.interp_item _ _
      · rfl
  rw [hframed, hposed]
  cases frame.entry? slot.node.uuid with
  | none => rfl
  | some entry =>
    dsimp only
    rw [posedLook, if_pos hbody.isMatrix, Look.interp_poseData, Stage.blend]
    cases entry.pose.marker.isInstant <;> rfl

section

variable (hI : ArePlayable I.clips) (hc : c ∈ I.clips)
  (hnames : (I.stage.rig.slots.toList.map (·.storageName)).Nodup)

include hI hc hnames

/-- What the frame of a local time does to it. -/
theorem interpOf_dispatched (hbody : I.IsMatrixBody r slot) (v : Int32) :
    interpOf (I.dispatched c.tree (sc.set .frame v)) r =
      match if v.toInt < 0 then none else c.clip.entryAt? slot.node.uuid v.toInt.toNat with
      | none => interpOf sc r
      | some entry =>
        if entry.pose.marker.isInstant || c.clip.snapsBefore slot.node.uuid v.toInt.toNat then
          some (I.stage.blend entry.pose)
        else interpOf sc r := by
  unfold dispatched
  rw [Scene.set_score_self, Option.bind_some]
  by_cases hneg : v.toInt < 0
  · rw [if_pos hneg, if_pos hneg]
    rfl
  rw [if_neg hneg, if_neg hneg, Clip.entryAt?, ← hI.findFrame?_eq hc]
  cases hframe : c.tree.findFrame? v.toInt.toNat with
  | none => rfl
  | some frame =>
    have htick : frame.tick = v.toInt.toNat := by
      rw [hI.findFrame?_eq hc] at hframe
      simpa using List.find?_some hframe
    simp only [Option.bind_some]
    rw [← htick]
    exact interpOf_framed hbody (hI.areCompiled.built c hc) (hI.isSparse c hc) hnames frame

/-- Where the duration is the default one or has to be set back, the frame of a local time leads to
that of its pose, and to the same again. -/
theorem interp_dispatched (hbody : I.IsMatrixBody r slot) (v : Int32)
    (h : interpOf sc r = some (.int I.stage.defaultInterp) ∨
      c.clip.snapsBefore slot.node.uuid v.toInt.toNat = true) :
    (interpOf (I.dispatched c.tree (sc.set .frame v)) r = some (.int I.stage.defaultInterp) ∨
      c.clip.snapsBefore slot.node.uuid (v.toInt + 1).toNat = true) ∧
    ∀ (n : Nat) (entry : NodeEntry), v.toInt = n → c.clip.entryAt? slot.node.uuid n = some entry →
      interpOf (I.dispatched c.tree (sc.set .frame v)) r = some (I.stage.blend entry.pose) := by
  rw [interpOf_dispatched hI hc hnames hbody]
  by_cases hneg : v.toInt < 0
  · rw [if_pos hneg]
    refine ⟨?_, fun n _ hn _ => by omega⟩
    rw [show v.toInt.toNat = 0 by omega] at h
    rw [show (v.toInt + 1).toNat = 0 by omega]
    exact h
  obtain ⟨n, hn⟩ := Int.eq_ofNat_of_zero_le (Int.not_lt.1 hneg)
  rw [if_neg hneg, hn]
  rw [hn] at h
  rw [show ((n : Int) + 1).toNat = n + 1 by omega, c.clip.snapsBefore_succ, Int.toNat_natCast]
  rw [Int.toNat_natCast] at h
  cases hentry : c.clip.entryAt? slot.node.uuid n with
  | none =>
    refine ⟨h, fun m entry hm hsome => ?_⟩
    obtain rfl : n = m := by omega
    cases hentry.symm.trans hsome
  | some entry =>
    dsimp only
    -- otherwise the duration was the default one, which the pose leaves
    have hblend : (if entry.pose.marker.isInstant || c.clip.snapsBefore slot.node.uuid n then
        some (I.stage.blend entry.pose) else interpOf sc r) = some (I.stage.blend entry.pose) := by
      split
      · rfl
      · rename_i hnone
        obtain ⟨hplain, hsnap⟩ := Bool.or_eq_false_iff.1 (Bool.eq_false_iff.2 hnone)
        rw [h.resolve_right (by simp [hsnap]), Stage.blend, hplain]
        rfl
    rw [hblend]
    refine ⟨?_, fun m entry' hm hsome => ?_⟩
    · cases hinstant : entry.pose.marker.isInstant with
      | true => exact .inr rfl
      | false =>
        rw [Stage.blend, hinstant]
        exact .inl rfl
    · obtain rfl : n = m := by omega
      obtain rfl := Option.some.inj (hentry.symm.trans hsome)
      rfl

end

/-! ### From one tick to the next -/

/-- An animation with one of the loop modes is the only one that advances, outside of tweens and
with the default interpolation duration. -/
structure PlaysAlone (I : Instance) (c : CompiledClip) (sc : Scene) : Prop
    extends I.IsAlone c sc where
  interp : sc.score .interp = some I.stage.defaultInterp
  mode : ∃ mode : LoopMode, sc.score (modeKey c) = some mode.score
  root : sc.tagged .root = true

/-- An animation that advances does not touch the interpolation duration of its root. -/
theorem isBeside_interp (c : CompiledClip) : IsBeside c fun sc => sc.score .interp where
  time _ _ := by simp [timeKey]
  tween _ _ := by simp
  frame _ _ := by simp
  suppress _ := rfl
  release _ := rfl
  halt _ := rfl
  relook _ _ _ := rfl
  say _ _ _ := rfl

theorem PlaysAlone.advanced (h : I.PlaysAlone c sc) (hduration : c.clip.duration ≤ 2147483647)
    (hplaying : sc.tagged (playingKey c) = true) : I.PlaysAlone c (advanced I c sc) where
  toIsAlone := h.toIsAlone.advanced hduration hplaying
  interp := (advanced_same (isBeside_interp c) sc).trans h.interp
  mode := by
    obtain ⟨mode, hmode⟩ := h.mode
    have hlasting := isLasting_score (k := modeKey c) (.inr ⟨_, rfl⟩) [c]
    exact ⟨mode, (advanced_same (hlasting.beside c (.head _)) sc).trans hmode⟩
  root := (advanced_same ((isLasting_root [c]).beside c (.head _)) sc).trans h.root

/-- While the animation advances, each node has the default duration or will be set back at its next
pose. -/
structure Blending (I : Instance) (c : CompiledClip) (sc : Scene) : Prop
    extends I.PlaysAlone c sc where
  blends : sc.tagged (playingKey c) = true → ∀ slot r, I.IsMatrixBody r slot →
    interpOf sc r = some (.int I.stage.defaultInterp) ∨
      ((sc.score (timeKey c)).getD 0).toInt < 2147483647 ∧
        c.clip.snapsBefore slot.node.uuid (((sc.score (timeKey c)).getD 0).toInt + 1).toNat = true

/-- The nodes with poses at the current local time have the durations that belong to these. -/
def IsBlended (I : Instance) (c : CompiledClip) (sc : Scene) : Prop :=
  ∀ slot r, I.IsMatrixBody r slot → ∀ (time : Int32) (n : Nat) (entry : NodeEntry),
    sc.score (timeKey c) = some time → time.toInt = n →
    c.clip.entryAt? slot.node.uuid n = some entry →
      interpOf sc r = some (I.stage.blend entry.pose)

namespace Blending

/-- What was recorded does not matter. -/
theorem said (h : I.Blending c sc) (output : List RawOutput) :
    I.Blending c { sc with output := output } :=
  ⟨⟨⟨h.rest, h.others⟩, h.interp, h.mode, h.root⟩, h.blends⟩

section

variable (hI : ArePlayable I.clips) (hc : c ∈ I.clips)
  (hnames : (I.stage.rig.slots.toList.map (·.storageName)).Nodup)

include hI hc hnames

/-- The frame of a local time is applied, where each node has the default duration or will be set
back by it. -/
theorem dispatched {moved : Scene} {time : Int32}
    (h : I.PlaysAlone c (I.dispatched c.tree (moved.set .frame time)))
    (htime : moved.score (timeKey c) = some time) (hlt : time.toInt < 2147483647)
    (hblends : ∀ slot r, I.IsMatrixBody r slot →
      interpOf moved r = some (.int I.stage.defaultInterp) ∨
        c.clip.snapsBefore slot.node.uuid time.toInt.toNat = true) :
    I.Blending c (I.dispatched c.tree (moved.set .frame time)) ∧
      I.IsBlended c (I.dispatched c.tree (moved.set .frame time)) := by
  have hscore : (I.dispatched c.tree (moved.set .frame time)).score (timeKey c) = some time := by
    rw [dispatched_score, Scene.set_score_of_ne _ (k := .frame) (j := timeKey c) nofun, htime]
  refine ⟨⟨h, fun _ slot r hbody => ?_⟩, fun slot r hbody time' n entry htime' hn hentry => ?_⟩
  · rw [hscore, Option.getD_some]
    exact (interp_dispatched hI hc hnames hbody time (hblends slot r hbody)).1.imp_right fun h =>
      ⟨hlt, h⟩
  · obtain rfl := Option.some.inj (hscore.symm.trans htime')
    exact (interp_dispatched hI hc hnames hbody time (hblends slot r hbody)).2 n entry hn hentry

/-- A tick of the animation while it advances: if it goes on to play, the nodes have the durations
that belong to their poses. -/
theorem advanced (h : I.Blending c sc) (hplaying : sc.tagged (playingKey c) = true) :
    I.Blending c (advanced I c sc) ∧
      ((Instance.advanced I c sc).tagged (playingKey c) = true →
        I.IsBlended c (Instance.advanced I c sc)) := by
  have hduration := hI.duration_le c hc
  have hnow := h.toPlaysAlone.advanced hduration hplaying
  have hblends := h.blends hplaying
  obtain ⟨mode, hmode⟩ := h.mode
  cases hnext : c.clip.advance (sc.score (modeKey c)) ((sc.score (timeKey c)).getD 0) with
  | mk time goes =>
    obtain ⟨rfl, htime, hgo⟩ | ⟨rfl, rfl, -, hagain⟩ | ⟨-, -, -, hstop⟩ | ⟨-, -, -, hhold⟩ :=
      advanced_cases (I := I) hduration hplaying hnext
    · rw [hmode] at hnext
      rw [hgo] at hnow ⊢
      refine (dispatched hI hc hnames hnow (Scene.set_score_self _ _ _) (Clip.lt_of_advance hnext)
        fun slot r hbody => ?_).imp_right fun h _ => h
      -- the count does not overflow where there is something to set back
      refine (hblends slot r hbody).imp_right fun ⟨hlt, hsnaps⟩ => ?_
      have hsucc : time.toInt = ((sc.score (timeKey c)).getD 0).toInt + 1 := by
        have hle := ((sc.score (timeKey c)).getD 0).le_toInt
        rw [htime, Int32.toInt_add, show (1 : Int32).toInt = 1 from rfl,
          Int.bmod_eq_of_le (by omega) (by omega)]
      rw [hsucc]
      exact hsnaps
    · rw [hagain] at hnow ⊢
      have hinterp : (sc.set (timeKey c) 0).score .interp = some I.stage.defaultInterp :=
        (sc.set_score_of_ne (k := timeKey c) (j := .interp) nofun 0).trans h.interp
      refine (dispatched hI hc hnames hnow ?_ (by decide)
        fun _ _ hbody => .inl (interpOf_synced hbody.rider hinterp)).imp_right fun h _ => h
      rw [synced_score]
      exact Scene.set_score_self _ _ _
    · have hidle : (Instance.advanced I c sc).tagged (playingKey c) = false := by
        simp [hstop, stopped_tagged]
      rw [hidle]
      exact ⟨⟨hnow, fun hplaying => absurd (hidle.symm.trans hplaying) nofun⟩, nofun⟩
    · have hidle : (Instance.advanced I c sc).tagged (playingKey c) = false := by
        simp [hhold]
      rw [hidle]
      exact ⟨⟨hnow, fun hplaying => absurd (hidle.symm.trans hplaying) nofun⟩, nofun⟩

/-- A tick of the instance. -/
theorem onTicked (h : I.Blending c sc) :
    I.Blending c (onTicked I sc) ∧
      (sc.tagged (playingKey c) = true → (Instance.onTicked I sc).tagged (playingKey c) = true →
        I.IsBlended c (Instance.onTicked I sc)) := by
  have haged : I.Blending c (sc.set .lifetime ((sc.score .lifetime).getD 0 + 1)) :=
    ⟨⟨⟨h.rest, h.others⟩, h.interp, h.mode, h.root⟩, h.blends⟩
  rw [h.toIsAlone.onTicked_eq hc (hI.duration_le c hc) hI.areCompiled.nodup_storageNames]
  dsimp only
  split
  · rename_i hplaying
    exact (haged.advanced hI hc hnames hplaying).imp_right fun h _ => h
  · rename_i hidle
    exact ⟨haged, fun hplaying => absurd hplaying hidle⟩

/-- An animation that stops sets to zero the nodes whose first pose is taken at once, and leaves the
durations of all others as they are. -/
theorem stopped (h : I.Blending c sc) (hplaying : sc.tagged (playingKey c) = true)
    (hstops : (Instance.onTicked I sc).tagged (playingKey c) = false)
    (honce : sc.score (modeKey c) = some LoopMode.once.score) (hbody : I.IsMatrixBody r slot)
    {entry : NodeEntry} (hentry : c.clip.entryAt? slot.node.uuid 0 = some entry) :
    interpOf (Instance.onTicked I sc) r =
      if entry.pose.marker.isInstant then some (.int 0) else interpOf sc r := by
  let aged := sc.set .lifetime ((sc.score .lifetime).getD 0 + 1)
  have hplays : aged.tagged (playingKey c) = true := hplaying
  have hmode : aged.score (modeKey c) = some LoopMode.once.score :=
    (sc.set_score_of_ne (k := .lifetime) (j := modeKey c) nofun _).trans honce
  have hticked : Instance.onTicked I sc = Instance.advanced I c aged :=
    (h.toIsAlone.onTicked_eq hc (hI.duration_le c hc) hI.areCompiled.nodup_storageNames).trans
      (if_pos hplays)
  have hstopped : Instance.advanced I c aged = Instance.stopped I c aged := by
    cases hnext : c.clip.advance (aged.score (modeKey c)) ((aged.score (timeKey c)).getD 0) with
    | mk time goes =>
      -- of all cases of an advance only the end of one that plays once stops it
      obtain ⟨-, -, hgo⟩ | ⟨-, -, hloop, -⟩ | ⟨-, -, -, hstop⟩ | ⟨-, -, hhold, -⟩ :=
        advanced_cases (I := I) (hI.duration_le c hc) hplays hnext
      · have hgoes : (Instance.onTicked I sc).tagged (playingKey c) = true := by
          simp [hticked, hgo, hplays]
        cases hstops.symm.trans hgoes
      · cases hmode.symm.trans hloop
      · exact hstop
      · cases hmode.symm.trans hhold
  -- the first frame is applied without its effects, and at tick 0 there is nothing to snap before
  let start := ((aged.set (timeKey c) 0).set .tween 0).tag .suppress
  have hframe : interpOf (I.dispatched c.tree (start.set .frame 0)) r = _ :=
    interpOf_dispatched hI hc hnames hbody 0
  rw [if_neg (by decide), show Int32.toInt 0 = 0 from rfl, Int.toNat_zero, hentry] at hframe
  rw [hticked, hstopped]
  refine (hframe : interpOf (Instance.stopped I c aged) r = _).trans ?_
  cases hinstant : entry.pose.marker.isInstant with
  | true => simp [Stage.blend, hinstant]
  | false =>
    simp only [hinstant, Clip.snapsBefore, Bool.or_self, Bool.false_eq_true, if_false]
    rfl

end

end Blending

section

variable (hmode : ∃ mode : LoopMode, sc.score (modeKey c) = some mode.score)
  (hroot : sc.tagged .root = true)
  (hothers : ∀ c' ∈ I.clips, c'.clip.storageName ≠ c.clip.storageName →
    sc.tagged (playingKey c') = false)

include hmode hroot hothers

/-- Playing an animation sets all nodes back at its start. -/
theorem Blending.played : I.Blending c (played I c sc) where
  toIsAlone := .played hothers
  interp := by simp [Instance.played]
  mode := by
    obtain ⟨mode, hscore⟩ := hmode
    exact ⟨mode, by simpa [Instance.played, modeKey, timeKey] using hscore⟩
  root := by simp [Instance.played, hroot]
  blends _ _ _ hbody := .inl (interpOf_synced hbody.rider (Scene.set_score_self _ _ _))

/-- Going on sets all nodes back where the animation stands. -/
theorem Blending.resumed (hrest : inRange .tween (.atLeast 1) sc = false) :
    I.Blending c (resumed I c sc) where
  rest := by
    rw [inRange, Instance.resumed, synced_score]
    exact hrest
  interp := by simp [Instance.resumed]
  mode := by
    obtain ⟨mode, hscore⟩ := hmode
    exact ⟨mode, by simpa [Instance.resumed, modeKey] using hscore⟩
  others c' hc' hne := by
    have hkeys : playingKey c' ≠ playingKey c := fun heq => hne (TagKey.playing.inj heq)
    simp [Instance.resumed, hothers c' hc' hne, hkeys]
  root := by simp [Instance.resumed, hroot]
  blends _ _ _ hbody := .inl (interpOf_synced hbody.rider (Scene.set_score_self _ _ _))

end

end Instance

end Marionette
