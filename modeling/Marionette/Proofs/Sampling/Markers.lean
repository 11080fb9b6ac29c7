import Mathlib.Order.Bounds.Basic
import Marionette.Proofs.Rig.Ordering
import Marionette.Proofs.Sampling.Keys
import Marionette.Proofs.Sampling.Poses
import Marionette.Proofs.Sampling.Sparse
import Marionette.Proofs.Sampling.Windows

/-!
# Markers flow down the hierarchy

The markers and the matrices of all nodes are found in one pass over the rig, in which a node looks
back at its parent.  Here they are read off the nodes and the keys of the author.

- `Channels.Arrives`: how a node arrives at a time by its own keys; `Channels.arrives_marker`.
- `Config.tickTime_lt_readTime_iff`: only behind a jump keys are read later than the tick.
- `Animation.markersAbove`: the markers of a node and of everything that it hangs on.
- `Animation.StandsAt`: the matrix of a node at a tick, from parent to child.
- `getElem?_foldl_push`: in a pass over a list what is made for an element is made of what was made
  before it.
- `scene_of_build`: the pass finds the strongest marker of those above a node, and its matrix.
- `sample_markers`: the entries of a clip have these markers and these matrices.
-/

namespace Marionette

open Relation (ReflTransGen)
open Rig (HangsOn)

/-! ### Markers of keys -/

namespace Channel

/-- Two keys that follow each other share a time after `lo` and not after `hi`. -/
def Jumps (keys : Array TransformKey) (lo hi : Float) : Prop :=
  ∃ left right, (left, right) ∈ neighbours keys ∧ (left.time == right.time) = true ∧
    lo < left.time ∧ left.time ≤ hi

/-- What the test for jumps looks for. -/
theorem hasJump_iff {keys : Array TransformKey} {lo hi : Float} :
    hasJump keys lo hi = true ↔ Jumps keys lo hi := by
  unfold hasJump Jumps
  simp only [List.any_eq_true, Prod.exists, Bool.and_eq_true, decide_eq_true_eq,
    gt_iff_lt, and_assoc]

end Channel

namespace Channels

variable {c : Channels} {time : Float}

/-- A channel jumps in the half tick before a time. -/
def JumpsBefore (c : Channels) (time : Float) : Prop :=
  ∃ keys ∈ c.poses, Channel.Jumps keys (time - tickSeconds / 2) time

/-- A channel reaches a key through a step in the tick before a time. -/
def StepsBefore (c : Channels) (time : Float) : Prop :=
  ∃ keys ∈ c.poses, ∃ key, Channel.StepReached keys key ∧ time - tickSeconds < key.time ∧
    key.time ≤ time

/-- How a node arrives at a time by its own keys: by a jump if a channel jumps, else by a step if a
channel steps. -/
inductive Arrives (c : Channels) (time : Float) : Marker → Prop
  | jump : c.JumpsBefore time → Arrives c time .jump
  | step : ¬c.JumpsBefore time → c.StepsBefore time → Arrives c time .step
  | none : ¬c.JumpsBefore time → ¬c.StepsBefore time → Arrives c time .none

theorem arrives_marker (c : Channels) (time : Float) : c.Arrives time (c.marker time) := by
  have hjump : (c.poses.any fun keys => Channel.hasJump keys (time - tickSeconds / 2) time) = true ↔
      c.JumpsBefore time := by
    simp only [List.any_eq_true, Channel.hasJump_iff, JumpsBefore]
  have hstep :
      (c.poses.any fun keys => Channel.hasStepArrival keys (time - tickSeconds) time) = true ↔
      c.StepsBefore time := by
    simp only [List.any_eq_true, Channel.hasStepArrival_iff, StepsBefore]
  unfold marker
  split_ifs with h h'
  · exact .jump (hjump.1 h)
  · exact .step (mt hjump.2 h) (hstep.1 h')
  · exact .none (mt hjump.2 h) (mt hstep.2 h')

/-- A node arrives in one way. -/
theorem Arrives.eq_marker {m : Marker} (h : c.Arrives time m) : m = c.marker time := by
  have hmarker := c.arrives_marker time
  generalize c.marker time = m' at hmarker
  cases h <;> cases hmarker <;> first | rfl | contradiction

end Channels

/-! ### The strongest marker -/

namespace Marker

/-- A jump is stronger than a step, and a step is stronger than nothing. -/
def strength : Marker → Nat
  | none => 0
  | step => 1
  | jump => 2

instance : LE Marker := ⟨fun m m' => m.strength ≤ m'.strength⟩

theorem strength_max (m m' : Marker) : (m.max m').strength = Nat.max m.strength m'.strength := by
  cases m <;> cases m' <;> rfl

theorem max_eq_or (m m' : Marker) : m.max m' = m ∨ m.max m' = m' := by
  cases m <;> cases m' <;> simp [max]

theorem max_none (m : Marker) : m.max none = m := by
  cases m <;> rfl

end Marker

/-- The stronger one of a further marker and the strongest of some is the strongest of all. -/
theorem isGreatest_insert_max {markers : Set Marker} {m : Marker} (h : IsGreatest markers m)
    (own : Marker) : IsGreatest (insert own markers) (own.max m) := by
  have hmax := own.strength_max m
  constructor
  · rcases own.max_eq_or m with heq | heq
    · exact .inl heq
    · exact .inr (heq.symm ▸ h.1)
  · intro other hother
    show other.strength ≤ (own.max m).strength
    rw [hmax]
    rcases hother with rfl | hother
    · exact Nat.le_max_left _ _
    · exact Nat.le_trans (h.2 hother) (Nat.le_max_right _ _)

/-! ### Times at which keys are read -/

namespace Config

variable {config : Config} {tick : Nat} {marker : Marker}

/-- When keys are read: at the time of the tick, or just after it behind a jump. -/
def readTime (config : Config) (tick : Nat) (marker : Marker) : Float :=
  if marker = .jump then tickTime tick + config.jumpOffset else tickTime tick

/-- Offsets that pass are at most a second. -/
theorem number_jumpOffset_le (h : config.check = .ok ()) :
    config.jumpOffset.isFinite = true ∧ number config.jumpOffset ≤ 1 := by
  obtain ⟨hoffset, -⟩ := unit_bind_eq_ok.1 h
  unfold checkJumpOffset at hoffset
  split at hoffset
  · cases hoffset
  · next hpass =>
    simp only [Bool.or_eq_true, Bool.not_eq_true', decide_eq_true_eq, not_or, Bool.not_eq_false]
      at hpass
    obtain ⟨⟨hfinite, -⟩, hlt⟩ := hpass
    have hhalf : number (tickSeconds / 2) = (0x1999999999999A : ℕ) * 2 ^ (-58 : ℤ) :=
      number_of_toBits 0x3F9999999999999A (by decide +kernel)
    refine ⟨hfinite, ?_⟩
    rw [ge_iff_le, float_le_iff_number (by decide +kernel) hfinite, hhalf] at hlt
    norm_num at hlt
    linarith

/-- `readTime` says for every setting when keys are read.  As long as the offset is at least a
ten-millionth of a second it is not lost when it is added to the time of the tick, so that the sum
is strictly later as a float: then keys are read after the tick exactly behind a jump. -/
theorem tickTime_lt_readTime_iff (h : config.check = .ok ()) (hoffset : 1e-7 ≤ config.jumpOffset)
    (htick : tick < 2 ^ 31) : tickTime tick < config.readTime tick marker ↔ marker = .jump := by
  obtain ⟨hfinite, hhigh⟩ := number_jumpOffset_le h
  have hleast : number 1e-7 = (0x1AD7F29ABCAF48 : ℕ) * 2 ^ (-76 : ℤ) :=
    number_of_toBits 0x3E7AD7F29ABCAF48 (by decide +kernel)
  have hlow : 1 / 2 ^ 25 ≤ number config.jumpOffset := by
    rw [float_le_iff_number (by decide +kernel) hfinite, hleast] at hoffset
    norm_num at hoffset ⊢
    linarith
  unfold readTime
  split_ifs with hjump
  · exact iff_of_true (tickTime_lt_add htick hlow hhigh) hjump
  · exact iff_of_false (not_float_lt_self _) hjump

end Config

section Hierarchy

variable (a : Animation) (config : Config) (nodes : List RigNode) (tick : Nat)

/-- Markers at a tick of a node and of everything that it hangs on, directly or not. -/
def Animation.markersAbove (n : RigNode) : Set Marker :=
  {m | ∃ up, ReflTransGen (HangsOn nodes) n up ∧ (a.channelsOf up).Arrives (tickTime tick) m}

/-- The matrix of a node at a tick relative to the root.  A node moves with its parent, and its keys
are read just after the tick if it, or something that it hangs on, jumps. -/
inductive Animation.StandsAt : RigNode → Mat4 → Prop
  | root {n : RigNode} {marker : Marker} : n.parent = none →
      IsGreatest (a.markersAbove nodes tick n) marker →
      StandsAt n ((a.channelsOf n).localMatrix n.bind .zero (config.readTime tick marker))
  | child {n up : RigNode} {marker : Marker} {world : Mat4} : HangsOn nodes n up →
      StandsAt up world → IsGreatest (a.markersAbove nodes tick n) marker →
      StandsAt n (world.mul
        ((a.channelsOf n).localMatrix n.bind up.bind.origin (config.readTime tick marker)))

variable {a nodes tick} {n up : RigNode} {m : Marker}

/-- A node that hangs on nothing has its own marker. -/
theorem isGreatest_of_root (hparent : n.parent = none) :
    IsGreatest (a.markersAbove nodes tick n) ((a.channelsOf n).marker (tickTime tick)) := by
  constructor
  · exact ⟨n, .refl, (a.channelsOf n).arrives_marker _⟩
  · rintro m ⟨up, hpath, hm⟩
    rcases ReflTransGen.cases_head hpath with rfl | ⟨_, hstep, -⟩
    · exact hm.eq_marker ▸ Nat.le_refl _
    · cases hparent.symm.trans hstep.2

/-- A node that hangs on another one has its own marker, or the one of its parent if
it is stronger. -/
theorem isGreatest_of_hangsOn (hnodes : (nodes.map (·.uuid)).Nodup) (hup : HangsOn nodes n up)
    (h : IsGreatest (a.markersAbove nodes tick up) m) :
    IsGreatest (a.markersAbove nodes tick n) (((a.channelsOf n).marker (tickTime tick)).max m) := by
  have habove : a.markersAbove nodes tick n =
      insert ((a.channelsOf n).marker (tickTime tick)) (a.markersAbove nodes tick up) := by
    ext other
    constructor
    · rintro ⟨up', hpath, hother⟩
      rcases ReflTransGen.cases_head hpath with rfl | ⟨_, hstep, hrest⟩
      · exact .inl hother.eq_marker
      · obtain rfl := hup.unique hnodes hstep
        exact .inr ⟨up', hrest, hother⟩
    · rintro (rfl | ⟨up', hpath, hother⟩)
      · exact ⟨n, .refl, (a.channelsOf n).arrives_marker _⟩
      · exact ⟨up', .head hup hpath, hother⟩
  rw [habove]
  exact isGreatest_insert_max h _

end Hierarchy

/-! ### One pass over the nodes -/

section Pass

variable {α β : Type} {next : Array β → α → β}

/-- What was made stays. -/
theorem getElem?_foldl_push_of_lt {xs : List α} {start : Array β} {i : Nat} (hi : i < start.size) :
    (xs.foldl (fun ys x => ys.push (next ys x)) start)[i]? = start[i]? := by
  induction xs generalizing start with
  | nil => rfl
  | cons x xs ih =>
    rw [List.foldl_cons, ih (by rw [Array.size_push]; omega), Array.getElem?_push_lt hi,
      Array.getElem?_eq_getElem hi]

/-- What is made for an element is made of what was made for those before it. -/
theorem getElem?_foldl_push {xs : List α} {i : Nat} {x : α} (hx : xs[i]? = some x) :
    ∃ before : Array β,
      (xs.foldl (fun ys x => ys.push (next ys x)) #[])[i]? = some (next before x) ∧
        before.size = i ∧ ∀ j < i,
          (xs.foldl (fun ys x => ys.push (next ys x)) #[])[j]? = before[j]? := by
  obtain ⟨hi, rfl⟩ := List.getElem?_eq_some_iff.1 hx
  obtain ⟨before, hbefore⟩ : ∃ before,
      (xs.take i).foldl (fun ys x => ys.push (next ys x)) #[] = before := ⟨_, rfl⟩
  have hsize : before.size = i := by
    rw [← hbefore, size_foldl_push, List.length_take, Nat.min_eq_left (Nat.le_of_lt hi)]
    exact Nat.zero_add i
  have hsplit : xs.foldl (fun ys x => ys.push (next ys x)) #[] =
      (xs.drop (i + 1)).foldl (fun ys x => ys.push (next ys x))
        (before.push (next before xs[i])) := by
    conv_lhs => rw [← List.take_append_drop i xs, List.drop_eq_getElem_cons hi, List.foldl_append,
      hbefore, List.foldl_cons]
  have hnext : (before.push (next before xs[i])).size = i + 1 := by rw [Array.size_push, hsize]
  refine ⟨before, ?_, hsize, fun j hj => ?_⟩
  · rw [hsplit, getElem?_foldl_push_of_lt (by omega), Array.getElem?_push, if_pos hsize.symm]
  · rw [hsplit, getElem?_foldl_push_of_lt (by omega), Array.getElem?_push_lt (by omega),
      Array.getElem?_eq_getElem (by omega)]

variable {rig : Rig} {keyed : List (Slot × Channels)} {i : Nat} {slot : Slot} {own : Channels}

theorem getElem?_markersAt_root {time : Float} (h : keyed[i]? = some (slot, own))
    (hparent : slot.parent = none) : (markersAt keyed time)[i]? = some (own.marker time) := by
  obtain ⟨before, hi, -, -⟩ := getElem?_foldl_push h
  rw [markersAt, hi]
  dsimp only
  rw [hparent, Option.bind_none, Option.getD_none, Marker.max_none]

theorem getElem?_markersAt_child {time : Float} (h : keyed[i]? = some (slot, own)) {p : Nat}
    (hparent : slot.parent = some p) (hp : p < i) {m : Marker}
    (hm : (markersAt keyed time)[p]? = some m) :
    (markersAt keyed time)[i]? = some ((own.marker time).max m) := by
  obtain ⟨before, hi, -, hbefore⟩ := getElem?_foldl_push h
  rw [markersAt, hbefore p hp] at hm
  rw [markersAt, hi]
  dsimp only
  rw [hparent, Option.bind_some, hm, Option.getD_some]

theorem getElem?_worldMatrices_root {timeOf : Nat → Float} (h : keyed[i]? = some (slot, own))
    (hparent : slot.parent = none) :
    (worldMatrices rig keyed timeOf)[i]? =
      some (own.localMatrix slot.node.bind .zero (timeOf i)) := by
  obtain ⟨before, hi, hsize, -⟩ := getElem?_foldl_push h
  rw [worldMatrices, hi]
  dsimp only
  rw [hparent, hsize]
  rfl

theorem getElem?_worldMatrices_child {timeOf : Nat → Float} (h : keyed[i]? = some (slot, own))
    {p : Nat} (hparent : slot.parent = some p) (hp : p < i) {up : Slot}
    (hup : rig.slots[p]? = some up) {world : Mat4}
    (hworld : (worldMatrices rig keyed timeOf)[p]? = some world) :
    (worldMatrices rig keyed timeOf)[i]? =
      some (world.mul (own.localMatrix slot.node.bind up.node.bind.origin (timeOf i))) := by
  obtain ⟨before, hi, hsize, hbefore⟩ := getElem?_foldl_push h
  rw [worldMatrices, hbefore p hp] at hworld
  rw [worldMatrices, hi]
  dsimp only
  rw [hparent, Option.bind_some, Option.bind_some, hup, hworld, hsize]
  rfl

end Pass

/-! ### Clips that are sampled -/

section Sample

variable {rig : Rig} {name : String} {nodes : List RigNode} {variants : List Variant}
    {a : Animation}
  {place : Nat} {slot : Slot}

/-- The pass over the nodes of a rig finds the strongest marker of those above a node, and the
matrix of the node. -/
theorem scene_of_build (config : Config) (tick : Nat)
    (hbuild : Rig.build name nodes variants = .ok rig) (ha : a.check = .ok ())
    {channels : Array Channels} {notes : List Diagnostic}
    (hchannels : assignChannels rig a (Array.replicate rig.size {}) a.animators =
      .ok (channels, notes))
    (hslot : rig.slots[place]? = some slot) :
    ∃ marker world,
      (sceneAt rig config (rig.slots.toList.zip channels.toList) tick).1[place]? = some marker ∧
      (sceneAt rig config (rig.slots.toList.zip channels.toList) tick).2[place]? = some world ∧
      IsGreatest (a.markersAbove nodes tick slot.node) marker ∧
      a.StandsAt config nodes tick slot.node world := by
  have hrig : rig.IsBuilt := ⟨name, nodes, variants, hbuild⟩
  have hforest : Rig.IsForest nodes := Rig.exists_build_iff.1 ⟨rig, hbuild⟩
  have htime (marker : Marker) : (if some marker = some .jump then
      tickTime tick + config.jumpOffset else tickTime tick) = config.readTime tick marker := by
    cases marker <;> rfl
  unfold sceneAt
  dsimp only
  -- by then the pass has been to the parent
  induction place using Nat.strong_induction_on generalizing slot with
  | _ place ih =>
    have hkeyed : (rig.slots.toList.zip channels.toList)[place]? =
        some (slot, a.channelsOf slot.node) := by
      rw [List.getElem?_zip_eq_some, Array.getElem?_toList, Array.getElem?_toList]
      exact ⟨hslot, channels_of_assignChannels hrig ha hchannels hslot⟩
    cases hparent : slot.node.parent with
    | none =>
      have hroot : slot.parent = none := by
        rw [(Rig.slot_of_build hbuild hslot).2, hparent]
        rfl
      have hmarker : (markersAt _ (tickTime tick))[place]? = _ :=
        getElem?_markersAt_root hkeyed hroot
      have hgreatest : IsGreatest (a.markersAbove nodes tick slot.node) _ :=
        isGreatest_of_root hparent
      refine ⟨_, _, hmarker, getElem?_worldMatrices_root hkeyed hroot, hgreatest, ?_⟩
      rw [hmarker, htime]
      exact .root hparent hgreatest
    | some uuid =>
      obtain ⟨p, hp, hfound, up, hup, huuid⟩ := Rig.parent_of_build hbuild hslot hparent
      obtain ⟨m, world, hm, hworld, habove, hstands⟩ := ih p hp hup
      have hhangs : HangsOn nodes slot.node up.node :=
        ⟨Rig.mem_of_build hbuild hup, huuid ▸ hparent⟩
      have hmarker := getElem?_markersAt_child hkeyed hfound hp hm
      have hgreatest := isGreatest_of_hangsOn hforest.nodup hhangs habove
      refine ⟨_, _, hmarker, getElem?_worldMatrices_child hkeyed hfound hp hup hworld,
        hgreatest, ?_⟩
      rw [hmarker, htime]
      exact .child hhangs hstands hgreatest

/-- Markers flow down the hierarchy: whatever rig is built and whatever clip is sampled, the entry
of a node at a tick has the strongest marker of the node and of everything that it hangs on, as long
as the node is written as a matrix, and none otherwise.  The keys of the node are read just after
the tick exactly if that marker is a jump, whether or not it is written down; the entry, and at
ticks without one the latest entry, has the matrix that is found this way.

For every setting it is `StandsAt` that states at which time keys are read: that of the tick, and
behind a jump that of the tick and the offset.  The clause for offsets from a ten-millionth of a
second on only adds that this sum of floats is strictly later than the tick. -/
theorem sample_markers (name : String) (nodes : List RigNode) (variants : List Variant)
    (a : Animation) (config : Config) (names : ClipNames) :
    Ensures (Rig.build name nodes variants) fun rig =>
      Ensures (sample rig a config names) fun (clip, _) =>
        ∀ n ∈ nodes, ∀ tick < clip.duration, ∃ marker world,
          IsGreatest (a.markersAbove nodes tick n) marker ∧ a.StandsAt config nodes tick n world ∧
          (config.check = .ok () → 1e-7 ≤ config.jumpOffset →
            (tickTime tick < config.readTime tick marker ↔ marker = .jump)) ∧
          (∀ e, clip.entryAt? n.uuid tick = some e →
            e.pose.marker = (if n.kind.isMatrix then marker else .none) ∧
              Pose.ofMatrix? world e.pose.marker config.precisionScale = some e.pose) ∧
          (n.uuid ∈ clip.modifiedNodes → n.kind ≠ .locator false →
            ∃ e, clip.latestAt? n.uuid tick = some e ∧
              e.pose.matrix = world.rounded config.precisionScale) := by
  refine Ensures.intro fun rig hbuild => Ensures.intro ?_
  rintro ⟨clip, remarks⟩ hclip n hn tick htick
  have hrig : rig.IsBuilt := ⟨name, nodes, variants, hbuild⟩
  -- the node stands somewhere in the rig, where its scene can be followed through the hierarchy
  obtain ⟨place, slot, hslot, rfl⟩ := Rig.exists_place_of_mem hbuild hn
  obtain ⟨channels, w1, matrix, track, entry, hchannels, -, hrun, hzero, hmatrix, -, -, hentry⟩ :=
    exists_keyedRun_of_sample hrig hclip hslot
  obtain ⟨marker, world, hmarker, hworld, hgreatest, hstands⟩ :=
    scene_of_build config tick hbuild (check_of_sample hclip) hchannels hslot
  have htick' : tick < 2 ^ 31 := by
    have hlast := Animation.duration_le_of_check (check_of_sample hclip)
    have hduration := (takesOver_of_sample hclip).duration
    omega
  refine ⟨marker, world, hgreatest, hstands,
    fun hconfig hoffset => Config.tickTime_lt_readTime_iff hconfig hoffset htick',
    fun e he => ?_, fun hmem hkind => ?_⟩
  · have hmem : slot.node.uuid ∈ clip.modifiedNodes := by
      -- an entry is written only for a node that is modified
      by_contra hstill
      cases (entryAt?_of_sample hrig hclip _ hstill tick).symm.trans he
    have hpose := poseAt?_of_entryAt? hrig hclip hslot hmem htick he
    rw [Animation.poseAt?, hchannels] at hpose
    dsimp only at hpose
    rw [hslot, hmarker, hworld] at hpose
    change Pose.ofMatrix? world (if slot.node.kind.isMatrix then marker else .none)
      config.precisionScale = some e.pose at hpose
    have hwritten := Pose.marker_of_ofMatrix? hpose
    exact ⟨hwritten, hwritten ▸ hpose⟩
  · have hread := hmatrix tick
    rw [Animation.matrixAt?, hchannels] at hread
    dsimp only at hread
    rw [hworld, Option.map_some, Option.some_inj] at hread
    rw [hread]
    exact hrun.exists_latestAt? (hzero.symm ▸ hkind) (hentry hmem) tick htick

end Sample

end Marionette
