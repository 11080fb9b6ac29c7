import Mathlib
import Marionette.Proofs.Floats.Order
import Marionette.Proofs.Sampling.Runs

/-!
# Keys of an animation that can be played

- `secondsToTick_nonneg`: times that are not negative have ticks that are not negative.
- `IsTimeline`: times that are accepted, in order; `hasTimelines_of_check`.
- `takeWhile_time_le`: keys are in order, so that those up to the end are all that are not after it.
- `checkAnimators_ok_iff`: what the check of animators says.
- `assignChannels_at`: a node has the keys of the animator with its identifier.
- `Animation.channelsOf`, `channels_of_assignChannels`: a node has its keys up to the end.
- `Animation.commandsOf`, `commands_of_assignChannels`: a locator has its command keys up to the
  end.
-/

namespace Marionette

open Float.Model (Format UnpackedFloat)
open Float.Model.UnpackedFloat

/-! ### Ticks of times -/

/-- What is stored with a positive sign does not lie below zero. -/
theorem compare_zero_ne_lt {b : BitVec 64} (h : @unpackSign .binary64 b = 0#1) :
    (unpack .binary64 b).compare (.zero .positive) ≠ some .lt := by
  unfold unpack
  dsimp only
  rw [h]
  split_ifs <;> simp [UnpackedFloat.compare, Sign.ofBitVec]

theorem unpackSign_pack_positive {m : Nat} {e : Int} (hm : 0 < m) :
    unpackSign (pack .binary64 (.finite .positive m e hm)) = 0#1 := by
  unfold pack
  dsimp only
  split_ifs
  · exact unpackSign_packComponents ..
  · exact unpackSign_packComponents ..
  · exact unpackSign_packComponents ..

/-- Rounding keeps the sign. -/
theorem unpackSign_pack_round {m : Nat} {e : Int} {accuracy : Accuracy} :
    unpackSign (pack .binary64 (roundWithAccuracy .binary64 .positive m e accuracy)) = 0#1 := by
  unfold roundWithAccuracy
  dsimp only
  split_ifs
  · exact unpackSign_packComponents ..
  · exact unpackSign_pack_positive _

theorem not_mul_twenty_lt_zero {time : Float} (hfinite : time.isFinite = true) (hpos : ¬time < 0) :
    ¬time * 20.0 < 0 := by
  have htwenty : (20.0 : Float).toModel.unpack = .finite .positive 0x14000000000000 (-48)
      (by decide) := by
    have hbits : (20.0 : Float).toModel.toBits = 0x4034000000000000 := by decide +kernel
    rw [Float.Model.unpack, hbits]
    rfl
  have hproduct : (time * 20.0).toModel.unpack = unpack .binary64 (pack .binary64
      (UnpackedFloat.mul .binary64 time.toModel.unpack (20.0 : Float).toModel.unpack)) := rfl
  rw [float_lt_iff, unpack_zero] at hpos
  rw [float_lt_iff, unpack_zero, hproduct, htwenty]
  have hfinite' : time.toModel.unpack.isFinite = true := hfinite
  cases htime : time.toModel.unpack with
  | notANumber =>
    rw [htime] at hfinite'
    cases hfinite'
  | infinity sign =>
    rw [htime] at hfinite'
    cases hfinite'
  | zero sign => cases sign <;> decide
  | finite sign m e hm =>
    cases sign with
    | negative =>
      rw [htime] at hpos
      cases hpos rfl
    | positive => exact compare_zero_ne_lt unpackSign_pack_round

/-- Times that are not negative have ticks that are not negative. -/
theorem secondsToTick_nonneg {time : Float} (hfinite : time.isFinite = true) (hpos : ¬time < 0) :
    0 ≤ secondsToTick time := by
  unfold secondsToTick nearestInt
  dsimp only
  rw [if_neg (not_mul_twenty_lt_zero hfinite hpos)]
  exact Int.natCast_nonneg _

/-! ### Times in order -/

/-- Times of keys that are accepted: finite, not negative, and in order. -/
structure IsTimeline (times : List Float) : Prop where
  finite : ∀ time ∈ times, time.isFinite = true
  nonneg : ∀ time ∈ times, ¬time < 0
  sorted : times.Pairwise (· ≤ ·)

theorem IsTimeline.secondsToTick_nonneg {times : List Float} (h : IsTimeline times) {time : Float}
    (htime : time ∈ times) : 0 ≤ secondsToTick time :=
  Marionette.secondsToTick_nonneg (h.finite time htime) (h.nonneg time htime)

section Checks

variable {a : Animation} {node : Option Uuid} {channel : String} {last : Float} {times : List Float}

theorem checkTimesFrom_ok (hlast : last.isFinite = true)
    (h : a.checkTimesFrom node channel last times = .ok ()) :
    IsTimeline times ∧ ∀ time ∈ times, last ≤ time := by
  induction times generalizing last with
  | nil => exact ⟨⟨List.forall_mem_nil _, List.forall_mem_nil _, .nil⟩, List.forall_mem_nil _⟩
  | cons time times ih =>
    rw [Animation.checkTimesFrom] at h
    dsimp only at h
    split_ifs at h with hbad hbefore
    have hgood : time.isFinite = true ∧ ¬time < 0 := by
      simpa using hbad
    obtain ⟨hfinite, hnonneg⟩ := hgood
    obtain ⟨hrest, hafter⟩ := ih hfinite h
    have hle : last ≤ time := by
      rw [float_le_iff_number hlast hfinite, ← not_lt, ← float_lt_iff_number hfinite hlast]
      exact hbefore
    constructor
    · constructor
      case finite => exact List.forall_mem_cons.2 ⟨hfinite, hrest.finite⟩
      case nonneg => exact List.forall_mem_cons.2 ⟨hnonneg, hrest.nonneg⟩
      case sorted => exact List.pairwise_cons.2 ⟨hafter, hrest.sorted⟩
    · refine List.forall_mem_cons.2 ⟨hle, fun later hlater => ?_⟩
      have hfin := hrest.finite later hlater
      rw [float_le_iff_number hlast hfin]
      rw [float_le_iff_number hlast hfinite] at hle
      exact hle.trans ((float_le_iff_number hfinite hfin).1 (hafter later hlater))

/-- Times that pass the check are a timeline. -/
theorem checkTimes_ok (h : a.checkTimes node channel times = .ok ()) : IsTimeline times :=
  (checkTimesFrom_ok (by decide +kernel) h).1

/-- Up to some time a timeline is cut off at once. -/
theorem takeWhile_time_le {α : Type} {timeOf : α → Float} {length : Float} {keys : List α}
    (hlength : length.isFinite = true) (h : IsTimeline (keys.map timeOf)) :
    keys.takeWhile (fun k => timeOf k ≤ length) = keys.filter fun k => timeOf k ≤ length := by
  induction keys with
  | nil => rfl
  | cons k keys ih =>
    obtain ⟨hfinite, hfiniteRest⟩ := List.forall_mem_cons.1 h.finite
    obtain ⟨-, hnonneg⟩ := List.forall_mem_cons.1 h.nonneg
    obtain ⟨hafter, hsorted⟩ := List.pairwise_cons.1 h.sorted
    by_cases hle : timeOf k ≤ length
    · rw [List.takeWhile_cons, List.filter_cons, decide_eq_true hle, if_pos rfl, if_pos rfl,
        ih ⟨hfiniteRest, hnonneg, hsorted⟩]
    · rw [List.takeWhile_cons, List.filter_cons, decide_eq_false hle, if_neg Bool.false_ne_true,
        if_neg Bool.false_ne_true]
      -- What comes later lies after the time, too.
      refine (List.filter_eq_nil_iff.2 fun later hlater hlate => hle ?_).symm
      have hmem := List.mem_map_of_mem (f := timeOf) hlater
      have hlaterFinite := hfiniteRest _ hmem
      have hlate := of_decide_eq_true hlate
      have hbefore := hafter _ hmem
      rw [float_le_iff_number hlaterFinite hlength] at hlate
      rw [float_le_iff_number hfinite hlaterFinite] at hbefore
      rw [float_le_iff_number hfinite hlength]
      exact hbefore.trans hlate

/-- An animation of which all keys of commands and variants are in order, and no node is animated
twice. -/
structure Animation.HasTimelines (a : Animation) : Prop where
  length : a.length.isFinite = true
  nodup : (a.animators.map (·.node)).Nodup
  commands : ∀ animator ∈ a.animators, IsTimeline (animator.commands.map (·.time))
  variantKeys : IsTimeline (a.variantKeys.map (·.time))
  commandKeys : IsTimeline (a.commandKeys.map (·.time))

/-- Animators pass if no node is animated twice and each of them passes by itself. -/
theorem checkAnimators_ok_iff {seen : List Uuid} {animators : List Animator} :
    a.checkAnimators seen animators = .ok () ↔
      (animators.map (·.node)).Nodup ∧ (∀ animator ∈ animators, animator.node ∉ seen) ∧
        ∀ animator ∈ animators, a.checkAnimator animator = .ok () := by
  induction animators generalizing seen with
  | nil => exact ⟨fun _ => ⟨.nil, List.forall_mem_nil _, List.forall_mem_nil _⟩, fun _ => rfl⟩
  | cons animator animators ih =>
    rw [Animation.checkAnimators, List.map_cons, List.nodup_cons, List.forall_mem_cons,
      List.forall_mem_cons]
    split_ifs with hseen
    · exact ⟨(nomatch ·), fun h => absurd hseen h.2.1.1⟩
    · rw [unit_bind_eq_ok, ih]
      constructor
      · rintro ⟨hpass, hnodup, hfresh, hrest⟩
        refine ⟨⟨fun hmem => ?_, hnodup⟩, ⟨hseen, fun other hother hmem => ?_⟩, hpass, hrest⟩
        · obtain ⟨other, hother, heq⟩ := List.mem_map.1 hmem
          exact hfresh other hother (heq ▸ List.mem_cons_self)
        · exact hfresh other hother (List.mem_cons_of_mem _ hmem)
      · rintro ⟨⟨hnew, hnodup⟩, ⟨-, hfresh⟩, hpass, hrest⟩
        refine ⟨hpass, hnodup, fun other hother hmem => ?_, hrest⟩
        rcases List.mem_cons.1 hmem with heq | hmem
        · exact hnew (List.mem_map.2 ⟨other, hother, heq⟩)
        · exact hfresh other hother hmem

/-- An animator of which the keys are in order. -/
structure Animator.HasTimelines (animator : Animator) : Prop where
  position : IsTimeline (animator.position.map (·.time))
  rotation : IsTimeline (animator.rotation.map (·.time))
  scale : IsTimeline (animator.scale.map (·.time))
  commands : IsTimeline (animator.commands.map (·.time))

theorem hasTimelines_of_checkAnimator {animator : Animator}
    (h : a.checkAnimator animator = .ok ()) : animator.HasTimelines := by
  obtain ⟨_, hposition, h⟩ := exists_of_bind_ok h
  obtain ⟨_, hrotation, h⟩ := exists_of_bind_ok h
  obtain ⟨_, hscale, h⟩ := exists_of_bind_ok h
  obtain ⟨_, hcommands, -⟩ := exists_of_bind_ok h
  have hchannel {channel : String} {keys : List TransformKey}
      (h : a.checkChannel animator.node channel keys = .ok ()) : IsTimeline (keys.map (·.time)) :=
    checkTimes_ok (unit_bind_eq_ok.1 h).1
  exact ⟨hchannel hposition, hchannel hrotation, hchannel hscale, checkTimes_ok hcommands⟩

/-- Animations that can be played have animators of which the keys are in order. -/
theorem hasTimelines_of_mem (h : a.check = .ok ()) {animator : Animator}
    (hmem : animator ∈ a.animators) : animator.HasTimelines := by
  obtain ⟨-, h⟩ := unit_bind_eq_ok.1 h
  obtain ⟨-, h⟩ := unit_bind_eq_ok.1 h
  obtain ⟨hanimators, -⟩ := unit_bind_eq_ok.1 h
  exact hasTimelines_of_checkAnimator ((checkAnimators_ok_iff.1 hanimators).2.2 animator hmem)

/-- Animations that can be played have their keys in order. -/
theorem hasTimelines_of_check (h : a.check = .ok ()) : a.HasTimelines := by
  obtain ⟨_, hlength, h⟩ := exists_of_bind_ok h
  obtain ⟨_, -, h⟩ := exists_of_bind_ok h
  obtain ⟨_, hanimators, h⟩ := exists_of_bind_ok h
  obtain ⟨_, hvariants, h⟩ := exists_of_bind_ok h
  obtain ⟨_, hcommands, -⟩ := exists_of_bind_ok h
  obtain ⟨hnodup, -, hpass⟩ := checkAnimators_ok_iff.1 hanimators
  constructor
  case length =>
    unfold Animation.checkDuration at hlength
    split_ifs at hlength with hplayable
    simp only [Animation.isPlayable, Bool.and_eq_true] at hplayable
    exact hplayable.1.1
  case nodup => exact hnodup
  case commands =>
    exact fun animator hmem => (hasTimelines_of_checkAnimator (hpass animator hmem)).commands
  case variantKeys => exact checkTimes_ok hvariants
  case commandKeys => exact checkTimes_ok hcommands

end Checks

/-! ### Keys beside nodes -/

section Assign

variable {rig : Rig} {a : Animation} {channels channels' : Array Channels}
  {animators : List Animator} {remarks : List Diagnostic} {place : Nat} {slot : Slot}

/-- The place of an identifier is the one of its node. -/
theorem slot_of_indexOf? (hrig : rig.IsBuilt) {uuid : Uuid} {i : Nat}
    (h : rig.indexOf? uuid = some i) (hslot : rig.slots[place]? = some slot) :
    (slot.node.uuid = uuid ↔ i = place) := by
  obtain ⟨hi, hfound, -⟩ := Array.findIdx?_eq_some_iff_getElem.1 h
  obtain ⟨hplace, rfl⟩ := Array.getElem?_eq_some_iff.1 hslot
  constructor
  · intro huuid
    have hsame : (rig.slots.toList.map (·.node.uuid))[i]? =
        (rig.slots.toList.map (·.node.uuid))[place]? := by
      rw [List.getElem?_map, List.getElem?_map, Array.getElem?_toList, Array.getElem?_toList,
        Array.getElem?_eq_getElem hi, Array.getElem?_eq_getElem hplace, Option.map_some,
        Option.map_some, beq_iff_eq.1 hfound, huuid]
    exact (List.getElem?_inj (by simpa using hi) hrig.nodup_uuids).1 hsame
  · rintro rfl
    exact beq_iff_eq.1 hfound

/-- A node has the keys of the animator with its identifier, up to the end; what is told about them
is passed on. -/
theorem assignChannels_at (hrig : rig.IsBuilt)
    (h : assignChannels rig a channels animators = .ok (channels', remarks))
    (hnodup : (animators.map (·.node)).Nodup) (hsize : channels.size = rig.size)
    (hslot : rig.slots[place]? = some slot) :
    (∀ animator ∈ animators, animator.node = slot.node.uuid →
      channels'[place]? = some (trimAnimator a slot animator).1 ∧
        ∀ d ∈ (trimAnimator a slot animator).2, d ∈ remarks) ∧
      ((∀ animator ∈ animators, animator.node ≠ slot.node.uuid) →
        channels'[place]? = channels[place]?) := by
  induction animators generalizing channels remarks with
  | nil =>
    cases h
    exact ⟨List.forall_mem_nil _, fun _ => rfl⟩
  | cons first animators ih =>
    obtain ⟨i, later, hi, hrest, rfl⟩ := assignChannels_cons_ok_iff.1 h
    obtain ⟨hnew, hnodup⟩ := List.nodup_cons.1 hnodup
    obtain ⟨hkeys, hothers⟩ := ih hrest hnodup (by rw [Array.size_setIfInBounds, hsize])
    have hplace := slot_of_indexOf? hrig hi hslot
    constructor
    · intro animator hmem hnode
      rcases List.mem_cons.1 hmem with rfl | hmem
      -- the first animator belongs to the place, and the later ones do not touch it
      · obtain rfl := hplace.1 hnode.symm
        have hnone : ∀ other ∈ animators, other.node ≠ slot.node.uuid := fun other hother heq =>
          hnew (List.mem_map.2 ⟨other, hother, heq.trans hnode.symm⟩)
        have hin : i < channels.size := hsize ▸ (Array.getElem?_eq_some_iff.1 hslot).1
        have hown : rig.slots.getD i default = slot := by
          rw [Array.getD_eq_getD_getElem?, hslot, Option.getD_some]
        rw [hothers hnone, Array.getElem?_setIfInBounds_self_of_lt hin, hown]
        exact ⟨rfl, fun d hd => List.mem_append_left _ hd⟩
      -- it belongs to another place, and the later ones decide
      · obtain ⟨hown, htold⟩ := hkeys animator hmem hnode
        exact ⟨hown, fun d hd => List.mem_append_right _ (htold d hd)⟩
    · intro hnone
      obtain ⟨hfirst, hnone⟩ := List.forall_mem_cons.1 hnone
      have hne : i ≠ place := fun heq => hfirst (hplace.2 heq).symm
      rw [hothers hnone, Array.getElem?_setIfInBounds_ne hne]

/-- The keys of an animator up to some time; only a locator has commands. -/
def Animator.upTo (animator : Animator) (kind : NodeKind) (length : Float) : Channels where
  position := (animator.position.filter fun k => k.time ≤ length).toArray
  rotation := (animator.rotation.filter fun k => k.time ≤ length).toArray
  scale := (animator.scale.filter fun k => k.time ≤ length).toArray
  commands := match kind with
    | .locator _ => animator.commands.filter fun k => k.time ≤ length
    | _ => []

/-- Keys that are in order are cut off at the end of the animation. -/
theorem trimAnimator_fst (hlength : a.length.isFinite = true) {animator : Animator}
    (h : animator.HasTimelines) :
    (trimAnimator a slot animator).1 = animator.upTo slot.node.kind a.length := by
  unfold Animator.upTo trimAnimator trimKeys
  dsimp only
  rw [takeWhile_time_le hlength h.position, takeWhile_time_le hlength h.rotation,
    takeWhile_time_le hlength h.scale, takeWhile_time_le hlength h.commands]
  cases slot.node.kind <;> rfl

/-- The animator of a node; one without keys if the node is not animated. -/
def Animation.animatorOf (a : Animation) (node : Uuid) : Animator :=
  (a.animators.find? fun animator => animator.node == node).getD { node := node }

/-- The keys of a node up to the end of the animation. -/
def Animation.channelsOf (a : Animation) (n : RigNode) : Channels :=
  (a.animatorOf n.uuid).upTo n.kind a.length

/-- A node has its keys up to the end of the animation. -/
theorem channels_of_assignChannels (hrig : rig.IsBuilt) (ha : a.check = .ok ())
    (h : assignChannels rig a (Array.replicate rig.size {}) a.animators = .ok (channels, remarks))
    (hslot : rig.slots[place]? = some slot) :
    channels[place]? = some (a.channelsOf slot.node) := by
  have htimes := hasTimelines_of_check ha
  obtain ⟨hkeys, hothers⟩ := assignChannels_at hrig h htimes.nodup Array.size_replicate hslot
  unfold Animation.channelsOf Animation.animatorOf
  cases hfound : a.animators.find? fun animator => animator.node == slot.node.uuid with
  | none =>
    have hin : place < rig.size := (Array.getElem?_eq_some_iff.1 hslot).1
    have hnone : ∀ animator ∈ a.animators, animator.node ≠ slot.node.uuid :=
      fun animator hmem heq => List.find?_eq_none.1 hfound animator hmem (beq_iff_eq.2 heq)
    rw [hothers hnone, Array.getElem?_replicate, if_pos hin]
    unfold Animator.upTo
    cases slot.node.kind <;> rfl
  | some animator =>
    have hmem := List.mem_of_find?_eq_some hfound
    have hnode := List.find?_some hfound
    rw [(hkeys animator hmem (beq_iff_eq.1 hnode)).1, Option.getD_some,
      trimAnimator_fst htimes.length (hasTimelines_of_mem ha hmem)]

/-- The command keys of a node. -/
def Animation.commandsOf (a : Animation) (node : Uuid) : List LocatorKey :=
  ((a.animators.find? fun animator => animator.node == node).map (·.commands)).getD []

/-- A node is animated once, so that its command keys are those of its animator. -/
theorem Animation.HasTimelines.commandsOf_eq (ha : a.HasTimelines) {animator : Animator}
    (hmem : animator ∈ a.animators) : a.commandsOf animator.node = animator.commands := by
  obtain ⟨found, hfound⟩ := Option.isSome_iff_exists.1 (List.find?_isSome
    (p := fun other : Animator => other.node == animator.node).2
      ⟨animator, hmem, beq_self_eq_true _⟩)
  have hnode := List.find?_some hfound
  have hsame := List.inj_on_of_nodup_map ha.nodup (List.mem_of_find?_eq_some hfound) hmem
    (beq_iff_eq.1 hnode)
  rw [Animation.commandsOf, hfound, hsame, Option.map_some, Option.getD_some]

theorem Animation.commands_animatorOf (a : Animation) (node : Uuid) :
    (a.animatorOf node).commands = a.commandsOf node := by
  unfold animatorOf commandsOf
  cases a.animators.find? fun animator => animator.node == node <;> rfl

/-- A locator has its command keys up to the end of the animation. -/
theorem commands_of_assignChannels (hrig : rig.IsBuilt) (ha : a.check = .ok ())
    (h : assignChannels rig a (Array.replicate rig.size {}) a.animators = .ok (channels, remarks))
    (hslot : rig.slots[place]? = some slot) {tracked : Bool}
    (hkind : slot.node.kind = .locator tracked) {own : Channels}
    (hown : channels[place]? = some own) :
    own.commands = (a.commandsOf slot.node.uuid).filter fun k => k.time ≤ a.length := by
  obtain rfl := Option.some.inj ((channels_of_assignChannels hrig ha h hslot).symm.trans hown)
  rw [Animation.channelsOf, hkind, ← a.commands_animatorOf]
  rfl

end Assign

end Marionette
