import Marionette.Proofs.Frame
import Marionette.Proofs.Ride.Takes

/-!
# Frames on a ride

- `Ride.brings`: where an entry brings the passenger; `Ride.goes`: where a frame does.
- `Takes.nodeUpdate`, `TakesAll.updates`: the poses of a frame do just this.
- `Takes.effect`: what happens beside the poses moves no passenger.
- `Takes.applyFrame`: so a frame brings the passenger where its entry says.
- `Takes.dispatch`, `Takes.seek`: the frame of exactly the frame score, and the latest one up to it.
-/

namespace Marionette

namespace Ride

open World (Does DoesAll)

/-- Where an entry of its node brings the passenger.  Without one, it stays where it is. -/
def brings (R : Ride) (entry : Option NodeEntry) (place : Place) : Place :=
  match entry with
  | none => place
  | some entry => R.slot.node.kind.goTo entry.pose place

/-- Where a frame brings the passenger. -/
def goes (R : Ride) (frame : Option Frame) : Place → Place :=
  R.brings (frame.bind fun f => f.entry? R.slot.node.uuid)

variable {R : Ride} {d : Nat} {c : Command} {v : View} {frame : Frame} {slot : Slot}

/-- An entry makes up for one before it. -/
theorem brings_or (entry before : Option NodeEntry) (place : Place) :
    R.brings (entry.or before) place = R.brings entry (R.brings before place) := by
  cases entry with
  | none => rfl
  | some entry =>
    cases before with
    | none => rfl
    | some before => exact (NodeKind.goTo_goTo _ _ _ _).symm

/-! ### Poses -/

theorem Takes.nodeUpdate (hslot : slot ∈ R.stage.rig.slots.toList) {pose : Pose} {restore : Bool}
    (hc : R.stage.nodeUpdate slot pose restore = some c) :
    R.Takes d c v (if slot.storageName = R.slot.storageName then
      v.move (slot.node.kind.goTo pose v.place) else v) := by
  unfold Stage.nodeUpdate at hc
  unfold NodeKind.goTo
  by_cases hmatrix : slot.node.kind.isMatrix = true
  · rw [if_pos hmatrix] at hc ⊢
    obtain rfl := Option.some.inj hc
    refine changeNode hslot
      (f := fun e => { e with data := e.data.merge (R.stage.poseData pose restore) })
      (g := fun place => { place with transformation := some (transformation pose.matrix) })
      (fun _ => rfl) (fun e => e.look.place_poseData R.stage pose restore) ?_
    exact fun x w Q hx hq => Does.dataMerge_this hx hq
  · rw [if_neg hmatrix] at hc ⊢
    by_cases hentity : slot.node.kind.hasEntity = true
    · rw [if_pos hentity] at hc
      obtain rfl := Option.some.inj hc
      have hmove := changeNode (R := R) (d := d) (v := v) hslot
        (f := fun e => { e with teleport := some (pose.offset, pose.yaw, pose.pitch) })
        (g := fun place => { place with teleport := some (pose.offset, pose.yaw, pose.pitch) })
        (c := .teleport .this pose.offset pose.yaw pose.pitch) (fun _ => rfl) (fun _ => rfl)
        fun x w Q hx hq => Does.teleport_this hx hq
      exact fun w hw => Does.execute_atEach (hmove w hw)
    · rw [if_neg hentity] at hc
      cases hc

/-- Nodes are told apart by their names. -/
theorem slot_eq (hslot : slot ∈ R.stage.rig.slots.toList)
    (hname : slot.storageName = R.slot.storageName) : slot = R.slot :=
  List.inj_on_of_nodup_map R.nodup_names hslot R.mem hname

/-- The node of the passenger has an entity, so every pose moves it. -/
theorem TakesAll.nodeUpdate_self {pose : Pose} {restore : Bool} :
    R.TakesAll d (R.stage.nodeUpdate R.slot pose restore).toList v
      (v.move (R.slot.node.kind.goTo pose v.place)) := by
  obtain ⟨c, hc⟩ : ∃ c, R.stage.nodeUpdate R.slot pose restore = some c := by
    unfold Stage.nodeUpdate
    by_cases hmatrix : R.slot.node.kind.isMatrix = true
    · exact ⟨_, if_pos hmatrix⟩
    · exact ⟨_, (if_neg hmatrix).trans (if_pos R.hasEntity)⟩
  have hmoves := Takes.nodeUpdate (d := d) (v := v) R.mem hc
  rw [if_pos rfl] at hmoves
  rw [hc]
  exact TakesAll.single hmoves

theorem TakesAll.nodeUpdate_of_ne {pose : Pose} {restore : Bool}
    (hslot : slot ∈ R.stage.rig.slots.toList) (hne : R.slot ≠ slot) :
    R.TakesAll d (R.stage.nodeUpdate slot pose restore).toList v v := by
  cases hupdate : R.stage.nodeUpdate slot pose restore with
  | none => exact TakesAll.nil
  | some c =>
    have hstays := Takes.nodeUpdate (d := d) (v := v) hslot hupdate
    rw [if_neg fun hname => hne (slot_eq hslot hname).symm] at hstays
    exact TakesAll.single hstays

/-- The updates of other nodes leave the passenger where it is. -/
theorem TakesAll.updates_of_not_mem {flags : List (Slot × Bool)}
    (hslots : ∀ slot ∈ flags.map (·.1), slot ∈ R.stage.rig.slots.toList)
    (hnot : R.slot ∉ flags.map (·.1)) : R.TakesAll d (R.stage.updates frame flags).1 v v := by
  induction flags with
  | nil => exact TakesAll.nil
  | cons flag rest ih =>
    obtain ⟨hslot, hrest⟩ := List.forall_mem_cons.1 hslots
    rw [List.map_cons, List.mem_cons, not_or] at hnot
    simp only [Stage.updates]
    cases frame.entry? flag.1.node.uuid with
    | none => exact ih hrest hnot.2
    | some entry => exact TakesAll.append (TakesAll.nodeUpdate_of_ne hslot hnot.1) (ih hrest hnot.2)

/-- The updates of all nodes bring the passenger where the frame says. -/
theorem TakesAll.updates {flags : List (Slot × Bool)}
    (hslots : ∀ slot ∈ flags.map (·.1), slot ∈ R.stage.rig.slots.toList)
    (hnodup : (flags.map (·.1)).Nodup) (hmem : R.slot ∈ flags.map (·.1)) :
    R.TakesAll d (R.stage.updates frame flags).1 v (v.move (R.goes (some frame) v.place)) := by
  induction flags with
  | nil => cases hmem
  | cons flag rest ih =>
    obtain ⟨hslot, hrest⟩ := List.forall_mem_cons.1 hslots
    obtain ⟨hflag, hdistinct⟩ := List.nodup_cons.1 hnodup
    simp only [Stage.updates]
    by_cases hown : R.slot = flag.1
    · -- the node of the passenger, which is none of those that follow
      have hlast : ∀ v, R.TakesAll d (R.stage.updates frame rest).1 v v := fun v =>
        TakesAll.updates_of_not_mem hrest fun h => hflag (show flag.1 ∈ _ from hown ▸ h)
      rw [goes, Option.bind_some, ← hown]
      cases frame.entry? R.slot.node.uuid with
      | none => exact hlast v
      | some entry => exact TakesAll.append TakesAll.nodeUpdate_self (hlast _)
    · have hmem : R.slot ∈ rest.map (·.1) := by
        rw [List.map_cons, List.mem_cons] at hmem
        exact hmem.resolve_left hown
      cases frame.entry? flag.1.node.uuid with
      | none => exact ih hrest hdistinct hmem
      | some entry =>
        exact TakesAll.append (TakesAll.nodeUpdate_of_ne hslot hown) (ih hrest hdistinct hmem)

/-! ### What happens beside the poses -/

/-- A command under a condition of the author. -/
theorem Takes.conditioned {condition : Option String} (h : R.Takes d c v v) :
    R.Takes d (Marionette.conditioned [] condition c) v v := by
  unfold Marionette.conditioned
  split
  · exact h
  · exact Takes.ifRaws h

/-- Showing a variant changes items, and no place. -/
theorem Takes.variantApply {variant : Variant × String} (hv : variant ∈ R.stage.rig.variants) :
    R.Takes (d + 1) (.function (R.stage.variantApply variant.2)) v v := by
  have hmem : (R.stage.variantApply variant.2, R.stage.variantBody variant.1) ∈
      R.stage.functions R.clips :=
    Stage.mem_functions_of_variant hv
  have hitem : ∀ slot ∈ R.stage.rig.slots.toList, ∀ model, R.Takes d
      (.execute (R.stage.onNode slot.storageName)
        (.dataMerge .this [("item", itemData model)])) v v := by
    intro slot hslot model
    have hchange := changeNode (R := R) (d := d) (v := v) hslot
      (f := fun e => { e with data := e.data.merge [("item", itemData model)] }) (g := id)
      (c := .dataMerge .this [("item", itemData model)]) (fun _ => rfl)
      (fun e => e.look.place_item _) fun x w Q hx hq => Does.dataMerge_this hx hq
    rwa [id, View.move_self, ite_self] at hchange
  refine Takes.call hmem (TakesAll.all fun c hc => ?_)
  unfold Stage.variantBody at hc
  dsimp only at hc
  split at hc
  · rw [List.mem_singleton.1 hc]
    exact Takes.comment
  · obtain ⟨slot, hslot, hc⟩ := List.mem_filterMap.1 hc
    obtain ⟨model, -, rfl⟩ := Option.map_eq_some_iff.1 hc
    exact hitem slot hslot model

/-- A line of the author moves nobody, wherever it runs. -/
theorem Takes.line {pose : Pose} {condition : Option String} {line : String} :
    R.Takes d (Marionette.conditioned (R.stage.locatorClauses slot pose) condition
      (rawLine line)) v v := by
  have hroot : R.Takes d (.execute ([.atEach .this, .positionedLocal pose.offset,
      .rotatedRelative pose.yaw pose.pitch] ++ condition.toList.map .raw) (rawLine line)) v v :=
    Takes.ifRaws Takes.raw
  have hnode : R.Takes d (.execute (R.stage.onNode slot.storageName ++ [.atEach .this] ++
      condition.toList.map .raw) (rawLine line)) v v :=
    Takes.onPassengers_stays fun x => Stays.ifTagged (Stays.execute_atEach (Stays.ifRaws Stays.raw))
  unfold Marionette.conditioned Stage.locatorClauses
  cases slot.node.kind with
  | locator tracked =>
    cases tracked with
    | true => exact hnode
    | false => exact hroot
  | _ => exact hroot

/-- What happens at a frame beside the poses moves nobody. -/
theorem Takes.effect {e : Effect} (he : e ∈ R.stage.effects frame) :
    R.Takes (d + 1) e.command v v := by
  rcases List.mem_append.1 he with he | he
  · rcases List.mem_append.1 he with he | he
    · unfold Stage.variantEffects at he
      split at he
      · cases he
      · obtain ⟨variant, hmem, rfl⟩ := List.mem_map.1 he
        obtain ⟨uuid, -, huuid⟩ := List.mem_filterMap.1 hmem
        exact Takes.conditioned (Takes.variantApply (List.mem_of_find?_eq_some huuid))
    · unfold Stage.rootEffects at he
      split at he
      · cases he
      · obtain ⟨line, -, rfl⟩ := List.mem_map.1 he
        exact Takes.conditioned Takes.raw
  · obtain ⟨slot, -, he⟩ := List.mem_flatMap.1 he
    unfold Stage.nodeEffects at he
    split at he
    · obtain ⟨line, -, rfl⟩ := List.mem_map.1 he
      exact Takes.line
    · cases he

theorem Takes.guardedEffect (h : R.Takes d c v v) : R.Takes d (R.stage.guardedEffect c) v v := by
  unfold Stage.guardedEffect
  split
  · exact Takes.unlessTagged (t := .suppress) h
  · exact Takes.unlessTagged (t := .suppress) (Takes.execute_nil h)

theorem TakesAll.effectCall {paths : ClipPaths}
    (hf : ∀ g ∈ (R.stage.effectCall paths frame).2, g ∈ R.stage.functions R.clips) :
    R.TakesAll 2 (R.stage.effectCall paths frame).1 v v := by
  have heffects : ∀ e ∈ R.stage.effects frame, R.Takes 1 e.command v v := fun e he =>
    Takes.effect (d := 0) he
  rcases R.stage.effectCall_cases paths frame with ⟨-, h⟩ | ⟨command, heq, h⟩ | h
  all_goals rw [h] at hf ⊢
  · exact TakesAll.nil
  · have hcommand := heffects ⟨command, false⟩ (heq ▸ List.mem_cons_self)
    exact TakesAll.single (Takes.guardedEffect (Takes.deeper (Nat.le_succ 1) hcommand))
  · refine TakesAll.single (Takes.guardedEffect (c := .function _) ?_)
    refine Takes.call (hf _ List.mem_cons_self) (TakesAll.all fun c hc => ?_)
    obtain ⟨e, he, rfl⟩ := List.mem_map.1 hc
    exact heffects e he

/-! ### Whole frames -/

/-- The function of a frame brings the passenger where its entry says. -/
theorem Takes.applyFrame {clip : CompiledClip} (hclip : clip ∈ R.clips)
    (hframe : frame ∈ clip.tree.frames) :
    R.Takes 3 (.function
      ((ClipPaths.ofClip R.stage.names.namespaceName clip.clip).frame frame.tick)) v
      (v.move (R.goes (some frame) v.place)) := by
  let start := R.stage.rig.slots.toList.map fun slot => (slot, false)
  obtain ⟨before, after, hframes⟩ := List.append_of_mem hframe
  obtain ⟨hbody, heffects⟩ := R.stage.mem_framesFrom
    (ClipPaths.ofClip R.stage.names.namespaceName clip.clip) frame start before after
  rw [← hframes] at hbody heffects
  have hmem : ∀ g ∈ R.stage.leafFunctions
      (ClipPaths.ofClip R.stage.names.namespaceName clip.clip) clip.tree,
      g ∈ R.stage.functions R.clips := fun g hg =>
    Stage.mem_functions_of_leaf hclip hg
  -- whatever the flags are, they belong to the nodes of the rig in their order
  have hflags : (R.stage.flagsAfter start before).map (·.1) = R.stage.rig.slots.toList := by
    rw [R.stage.map_fst_flagsAfter, List.map_map]
    exact List.map_id _
  refine Takes.call (hmem _ hbody) (TakesAll.append (TakesAll.updates ?_ ?_ ?_)
    (TakesAll.effectCall fun g hg => hmem g (heffects g hg)))
  · rw [hflags]
    exact fun _ hslot => hslot
  · rw [hflags]
    exact List.Nodup.of_map _ R.nodup_names
  · rw [hflags]
    exact R.mem

/-! ### The frame score -/

variable {clip : CompiledClip} {tick : Nat} {asked : Int32}

/-- A lookup that finds one of the frames of an animation, or none. -/
theorem doesFound (hclip : clip ∈ R.clips) {found : Option Frame}
    (hfound : ∀ frame, found = some frame → frame ∈ clip.tree.frames) {w : World}
    (hw : R.Shows w v) :
    World.DoesFound 3 (.ofClip R.stage.names.namespaceName clip.clip) R.root found w
      fun w' => R.Shows w' (v.move (R.goes found v.place)) := by
  cases found with
  | none => exact hw
  | some frame => exact Takes.applyFrame hclip (hfound frame rfl) w hw

/-- The world asks for a frame. -/
theorem Shows.atFrame {w : World} (hw : R.Shows w v) (hscore : v.score .frame = some asked) :
    AtFrame R.stage R.root asked w :=
  ⟨hw.isLiving_root, hw.runs.hasObjective (k := .frame) trivial, (hw.score .frame).trans hscore⟩

theorem installs_clip {w : World} (hw : R.Shows w v) (hclip : clip ∈ R.clips) :
    w.Installs (R.stage.dispatchFunctions (.ofClip R.stage.names.namespaceName clip.clip)
      clip.tree) :=
  (hw.runs.hosts.installs_clip hclip).left.left

/-- The exact tree applies the frame of the frame score. -/
theorem Takes.dispatch (hclip : clip ∈ R.clips) (hsound : clip.tree.IsSound)
    (hscore : v.score .frame = some asked) (hasked : asked.toInt = tick) :
    R.Takes 36 (.function (ClipPaths.ofClip R.stage.names.namespaceName clip.clip).dispatch) v
      (v.move (R.goes (clip.tree.findFrame? tick) v.place)) := by
  intro w hw
  have hdepth : 3 + clip.tree.depth + 1 ≤ 36 := by
    have := hsound.depth_le
    omega
  refine Does.deeper hdepth (Does.dispatch hsound (installs_clip hw hclip) hasked
    (hw.atFrame hscore) ?_ ?_)
  · -- the frame leaves the score that was asked for as it is
    intro w' hw'
    exact hw'.atFrame hscore
  · exact doesFound hclip (fun _ => DispatchTree.mem_frames_of_findFrame?) hw

/-- Before every tick, the exact tree applies no frame. -/
theorem Takes.dispatch_skip (hclip : clip ∈ R.clips) (hsound : clip.tree.IsSound)
    (hbefore : ∀ asked, v.score .frame = some asked → asked.toInt < 0) :
    R.Takes 36 (.function (ClipPaths.ofClip R.stage.names.namespaceName clip.clip).dispatch) v
      v := by
  intro w hw
  have hdepth : 0 + clip.tree.depth + 1 ≤ 36 := by
    have := hsound.depth_le
    omega
  refine Does.deeper hdepth (Does.dispatch_skip hsound (installs_clip hw hclip) hw.isLiving_root
    (hw.runs.hasObjective (k := .frame) trivial) (fun asked hasked => ?_) hw)
  exact hbefore asked ((hw.score .frame).symm.trans hasked)

/-- The seeking tree applies the latest frame up to the frame score. -/
theorem Takes.seek (hclip : clip ∈ R.clips) (hsound : clip.tree.IsSound)
    (hscore : v.score .frame = some asked) (hasked : asked.toInt = tick) :
    R.Takes 36 (.function (ClipPaths.ofClip R.stage.names.namespaceName clip.clip).seek) v
      (v.move (R.goes (clip.tree.routeFrame? tick) v.place)) := by
  intro w hw
  have hdepth : 3 + clip.tree.depth + 1 ≤ 36 := by
    have := hsound.depth_le
    omega
  refine Does.deeper hdepth (Does.seek hsound (installs_clip hw hclip) hasked (hw.atFrame hscore)
    ?_ ?_)
  · intro w' hw'
    exact hw'.atFrame hscore
  · exact doesFound hclip (fun _ => DispatchTree.mem_frames_of_routeFrame?) hw

end Ride

end Marionette
