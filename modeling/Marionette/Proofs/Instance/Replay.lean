import Marionette.Proofs.Frame
import Marionette.Proofs.Instance.Places
import Marionette.Proofs.Instance.Records
import Marionette.Proofs.Instance.Timeline

/-!
# Frames in natural playback

Up to its end, an animation that plays alone applies the frames of its ticks one after the other,
each of them once.

- `Instance.shownAt`: the frame of a tick is applied, if there is one.
- `Ready.sceneAfter_succ`: a tick before the end applies the frame of that tick.
- `Ready.placeOf_sceneAfter`: nodes are where their latest entries bring them.
- `Ready.output_sceneAfter`: the commands of all frames so far have been recorded, in order.
-/

namespace Marionette

/-- An animation that advances from its start is at the tick that has passed, up to its end. -/
theorem Clip.position_of_lt (clip : Clip) {k : Nat} (hk : k < clip.duration) :
    clip.position k = (k, true) := by
  unfold position
  cases clip.loopMode with
  | loop =>
    dsimp only
    rw [if_neg (by omega), Nat.mod_eq_of_lt (by omega)]
  | once | hold =>
    dsimp only
    rw [if_pos (by omega)]

/-- Going somewhere does not depend on where one is. -/
theorem NodeKind.goTo_goTo (kind : NodeKind) (pose pose' : Pose) (place : Place) :
    kind.goTo pose' (kind.goTo pose place) = kind.goTo pose' place := by
  unfold goTo
  split <;> rfl

namespace Instance

variable {I : Instance} {c : CompiledClip} {sc : Scene} {w : World} {k : Nat} {slot : Slot}
  {r : Nat}

/-- The frame of a tick is applied, if there is one. -/
def shownAt (I : Instance) (c : CompiledClip) (tick : Nat) (sc : Scene) : Scene :=
  match c.clip.frameAt? tick with
  | none => sc
  | some frame => I.framed c.tree frame sc

/-- The lookup in the tree finds the frame of a tick. -/
theorem dispatched_eq_shownAt (hbuilt : c.IsBuilt) (hsparse : c.clip.IsSparse) {tick : Nat}
    (htick : tick < 2 ^ 31) (hscore : sc.score .frame = some (Int32.ofNat tick)) :
    I.dispatched c.tree sc = I.shownAt c tick sc := by
  have hfound : c.tree.findFrame? tick = c.clip.frameAt? tick := by
    rw [hbuilt]
    exact DispatchTree.findFrame?_build_of_nodup hsparse.nodup hsparse.lt tick
  have hint : (Int32.ofNat tick).toInt = tick := Int32.toInt_ofNat_of_lt htick
  unfold dispatched shownAt
  rewrite [hscore, Option.bind_some, hint, if_neg (by omega), Int.toNat_natCast, hfound]
  rfl

theorem shownAt_tagged (tick : Nat) (sc : Scene) : (I.shownAt c tick sc).tagged = sc.tagged := by
  unfold shownAt
  split
  · rfl
  · exact framed_tagged _ _ _

theorem placeOf_shownAt (hr : r ∈ I.riders)
    (hnames : (I.stage.rig.slots.toList.map (·.storageName)).Nodup)
    (hslot : slot ∈ I.stage.rig.slots.toList) (hname : I.Embodies r slot)
    (hentity : slot.node.kind.hasEntity = true) (tick : Nat) :
    placeOf (I.shownAt c tick sc) r =
      match c.clip.entryAt? slot.node.uuid tick with
      | none => placeOf sc r
      | some entry => slot.node.kind.goTo entry.pose (placeOf sc r) := by
  unfold shownAt Clip.entryAt?
  cases c.clip.frameAt? tick with
  | none => rfl
  | some frame => exact placeOf_framed hr c.tree hnames hslot hname hentity

theorem output_shownAt (h : sc.tagged .suppress = false) (tick : Nat) :
    (I.shownAt c tick sc).output =
      sc.output ++ (c.clip.frameAt? tick).toList.flatMap I.frameLines := by
  unfold shownAt
  cases c.clip.frameAt? tick with
  | none => exact (List.append_nil _).symm
  | some frame =>
    dsimp only
    rw [output_framed, if_neg (by rw [h]; exact Bool.false_ne_true)]
    simp

/-- A tick before the end applies the frame of that tick. -/
theorem Stands.onTicked_eq (h : I.Stands c (k, true) sc) (hI : I.Plays c)
    (hnames : (I.clips.map (·.clip.storageName)).Nodup) (hsparse : c.clip.IsSparse)
    (hk : k + 1 < c.clip.duration) :
    Instance.onTicked I sc = I.shownAt c (k + 1)
      (((sc.set .lifetime ((sc.score .lifetime).getD 0 + 1)).set (timeKey c)
        (Int32.ofNat (k + 1))).set .frame (Int32.ofNat (k + 1))) := by
  have hlength := hI.length_le
  let aged := sc.set .lifetime ((sc.score .lifetime).getD 0 + 1)
  have haged : I.Stands c (k, true) aged := h.age _
  let moved := aged.set (timeKey c) (Int32.ofNat (k + 1))
  have hmoved : I.Stands c (k + 1, true) moved := haged.setTime (k + 1)
  let shown := I.shownAt c (k + 1) (moved.set .frame (Int32.ofNat (k + 1)))
  -- the end is not reached, and the frame score follows the position
  have hticked : ticked I c aged = shown := by
    have htween : inRange .tween (.atLeast 1) aged = false := by
      rw [inRange, haged.tween]
      decide
    have hnext : (aged.score (timeKey c)).getD 0 + 1 = Int32.ofNat (k + 1) := by
      rw [haged.time, Option.getD_some, Int32.ofNat_add]
      rfl
    have hpassed : passed I c moved = moved := by
      rw [passed, inRange_atLeast hmoved.time (show k + 1 < 2 ^ 31 by omega)
        (show c.clip.duration < 2 ^ 31 by omega), if_neg (by simpa using hk)]
    rw [ticked, htween, if_neg Bool.false_ne_true, advanced, hnext, hpassed, followed,
      hmoved.playing, if_pos rfl, hmoved.time]
    show I.dispatched c.tree (moved.set .frame (Int32.ofNat (k + 1))) = shown
    exact dispatched_eq_shownAt hI.built hsparse (show k + 1 < 2 ^ 31 by omega)
      (moved.set_score_self .frame _)
  have hclips : clipsTicked I I.clips aged = shown := by
    rw [haged.clipsTicked_eq hI.mem hnames, if_pos rfl, hticked]
  have hstill : inRange .tween (.atLeast 1) shown = false := by
    have hscore : shown.score = (moved.set .frame (Int32.ofNat (k + 1))).score := by
      show (I.shownAt c _ _).score = _
      unfold shownAt
      split
      · rfl
      · exact framed_score _ _ _
    rw [inRange, hscore]
    show ((moved.score .tween).any _) = false
    rw [hmoved.tween]
    decide
  show (if inRange .tween (.atLeast 1) (clipsTicked I I.clips aged) then _ else _) = _
  rw [hclips, hstill]
  rfl

namespace Ready

theorem sceneAfter_zero (h : I.Ready c w sc) (hsparse : c.clip.IsSparse) :
    sceneAfter I c sc 0 = (I.synced ((I.shownAt c 0 ((I.synced
      (((sc.set (timeKey c) 0).set .tween 0).set .interp 0)).set .frame 0)).set .interp
        I.stage.defaultInterp)).tag (playingKey c) := by
  show played I c sc = _
  unfold played
  dsimp only
  rw [dispatched_eq_shownAt h.plays.built hsparse (show 0 < 2 ^ 31 by omega)
    (Scene.set_score_self _ .frame 0)]

theorem sceneAfter_succ (h : I.Ready c w sc) (hsparse : c.clip.IsSparse)
    (hk : k + 1 < c.clip.duration) :
    sceneAfter I c sc (k + 1) =
      let before := sceneAfter I c sc k
      I.shownAt c (k + 1) (((before.set .lifetime ((before.score .lifetime).getD 0 + 1)).set
        (timeKey c) (Int32.ofNat (k + 1))).set .frame (Int32.ofNat (k + 1))) := by
  have hstands := h.stands k
  rw [c.clip.position_of_lt (by omega)] at hstands
  exact hstands.onTicked_eq h.plays h.nodup_names hsparse hk

/-- Nodes are where their latest entries bring them, or else where they were before. -/
theorem placeOf_sceneAfter (h : I.Ready c w sc) (hsparse : c.clip.IsSparse)
    (hr : r ∈ I.riders) (hnames : (I.stage.rig.slots.toList.map (·.storageName)).Nodup)
    (hslot : slot ∈ I.stage.rig.slots.toList) (hname : I.Embodies r slot)
    (hentity : slot.node.kind.hasEntity = true) (hk : k < c.clip.duration) :
    placeOf (sceneAfter I c sc k) r =
      match c.clip.latestAt? slot.node.uuid k with
      | none => placeOf sc r
      | some entry => slot.node.kind.goTo entry.pose (placeOf sc r) := by
  induction k with
  | zero =>
    rw [h.sceneAfter_zero hsparse]
    refine (placeOf_synced _).trans ((placeOf_shownAt hr hnames hslot hname hentity 0).trans ?_)
    have hstart : placeOf ((I.synced (((sc.set (timeKey c) 0).set .tween 0).set .interp 0)).set
        .frame 0) r = placeOf sc r := placeOf_synced _
    rw [hstart]
    rfl
  | succ k ih =>
    rw [h.sceneAfter_succ hsparse hk]
    refine (placeOf_shownAt hr hnames hslot hname hentity (k + 1)).trans ?_
    rw [Clip.latestAt?]
    show (match c.clip.entryAt? slot.node.uuid (k + 1) with
      | none => placeOf (sceneAfter I c sc k) r
      | some entry => slot.node.kind.goTo entry.pose (placeOf (sceneAfter I c sc k) r)) = _
    rw [ih (by omega)]
    -- an entry of this tick makes up for all entries before it
    cases c.clip.entryAt? slot.node.uuid (k + 1) with
    | none => rfl
    | some entry =>
      rw [Option.some_or]
      dsimp only
      split
      · rfl
      · exact NodeKind.goTo_goTo _ _ _ _

theorem sceneAfter_suppress (h : I.Ready c w sc) (hsparse : c.clip.IsSparse)
    (hsuppress : sc.tagged .suppress = false) (hk : k < c.clip.duration) :
    (sceneAfter I c sc k).tagged .suppress = false := by
  induction k with
  | zero =>
    rw [h.sceneAfter_zero hsparse, Scene.tag_tagged, synced_tagged, Scene.set_tagged,
      shownAt_tagged, Scene.set_tagged, synced_tagged]
    exact (Bool.false_or _).trans hsuppress
  | succ k ih =>
    rw [h.sceneAfter_succ hsparse hk]
    dsimp only
    rw [shownAt_tagged]
    exact ih (by omega)

/-- The commands of all frames so far have been recorded, in the order of their ticks. -/
theorem output_sceneAfter (h : I.Ready c w sc) (hsparse : c.clip.IsSparse)
    (hsuppress : sc.tagged .suppress = false) (hk : k < c.clip.duration) :
    (sceneAfter I c sc k).output = sc.output ++
      (List.range (k + 1)).flatMap fun tick =>
        (c.clip.frameAt? tick).toList.flatMap I.frameLines := by
  induction k with
  | zero =>
    have htagged : ((I.synced (((sc.set (timeKey c) 0).set .tween 0).set .interp 0)).set .frame
        0).tagged .suppress = false := by
      rw [Scene.set_tagged, synced_tagged]
      exact hsuppress
    rw [h.sceneAfter_zero hsparse, Scene.tag_output, synced_output, Scene.set_output,
      output_shownAt htagged, Scene.set_output, synced_output]
    simp
  | succ k ih =>
    have htagged := h.sceneAfter_suppress hsparse hsuppress (k := k) (by omega)
    rw [h.sceneAfter_succ hsparse hk]
    refine (output_shownAt (by exact htagged) (k + 1)).trans ?_
    show (sceneAfter I c sc k).output ++ _ = _
    rw [ih (by omega), List.range_succ (n := k + 1), List.flatMap_append, List.append_assoc]
    simp

end Ready

end Instance

end Marionette
