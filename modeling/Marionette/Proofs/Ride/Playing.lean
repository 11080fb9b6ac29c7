import Marionette.Proofs.Instance.Replay
import Marionette.Proofs.Ride.Frames

/-!
# Playback on a ride

- `ArePlayable`: animations that are compiled, of which the ticks are scores.
- `Ride.Moves`: the animation moves the node of the passenger.
- `Takes.showFrame`, `Takes.seekFrame`: the frame of a tick, and the latest one up to it.
- `Takes.setFrame`: a seek shows the latest frame up to the local time.
- `View.Stands`: an animation advances and is at a tick, or it does not advance.
- `Takes.play`: playing shows the first frame and starts the animation.
- `Takes.turn`: before the end, the turn of an animation that advances shows its next frame.
-/

namespace Marionette

/-- Animations that are compiled for one rig.  They have one frame at most for each tick, entries
only of the nodes that they move, and their ticks are scores. -/
structure ArePlayable (clips : List CompiledClip) : Prop where
  areCompiled : AreCompiled clips
  isSparse : ∀ c ∈ clips, c.clip.IsSparse
  duration_le : ∀ c ∈ clips, c.clip.duration ≤ 2147483647
  still : ∀ c ∈ clips, ∀ uuid ∉ c.clip.modifiedNodes, ∀ tick, c.clip.entryAt? uuid tick = none

namespace ArePlayable

variable {clips : List CompiledClip} {c : CompiledClip} {tick : Nat}

theorem isSound (h : ArePlayable clips) (hc : c ∈ clips) : c.tree.IsSound := by
  rw [h.areCompiled.built c hc]
  exact DispatchTree.isSound_build c.clip.frames (h.duration_le c hc)

/-- The exact lookup finds the frame of a tick. -/
theorem findFrame?_eq (h : ArePlayable clips) (hc : c ∈ clips) :
    c.tree.findFrame? tick = c.clip.frameAt? tick := by
  have hsparse := h.isSparse c hc
  rw [h.areCompiled.built c hc]
  exact DispatchTree.findFrame?_build_of_nodup hsparse.nodup hsparse.lt tick

/-- The seeking lookup finds the latest frame up to a tick. -/
theorem routeFrame?_eq (h : ArePlayable clips) (hc : c ∈ clips) (htick : tick < c.clip.duration) :
    c.tree.routeFrame? tick = c.clip.latestFrame? tick := by
  rw [h.areCompiled.built c hc]
  exact (h.isSparse c hc).routeFrame?_build htick

end ArePlayable

namespace View

/-- An animation advances and is at a tick, or it does not advance. -/
structure Stands (v : View) (animation : String) (position : Option Nat) : Prop where
  playing : v.tagged (.playing animation) = position.isSome
  time : ∀ tick ∈ position, v.score (.localTime animation) = some (Int32.ofNat tick)

end View

namespace Ride

/-- The functions of an animation. -/
abbrev paths (R : Ride) (c : CompiledClip) : ClipPaths :=
  .ofClip R.stage.names.namespaceName c.clip

/-- The turn of an animation in a tick of its root. -/
abbrev turn (R : Ride) (c : CompiledClip) : Command :=
  .execute [.ifEntity (Selector.this.tagged (R.stage.names.tag (.playing c.clip.storageName)))]
    (.function ((R.paths c).control "tick"))

/-- The animation moves the node of the passenger. -/
def Moves (R : Ride) (c : CompiledClip) : Prop :=
  R.slot.node.uuid ∈ c.clip.modifiedNodes

variable {R : Ride} {d : Nat} {c : CompiledClip} {v : View} {tick : Nat} {position : Option Nat}

/-! ### Frames -/

/-- The frames of other animations leave the passenger where it is. -/
theorem goes_of_not_moves (hR : ArePlayable R.clips) (hc : c ∈ R.clips) (hmoves : ¬R.Moves c)
    (place : Place) : R.goes (c.clip.frameAt? tick) place = place := by
  have hnone : (c.clip.frameAt? tick).bind (fun f => f.entry? R.slot.node.uuid) = none :=
    hR.still c hc _ hmoves tick
  rw [goes, hnone]
  rfl

/-- Asked for a tick, the exact tree shows the frame of that tick. -/
theorem Takes.showFrame (hR : ArePlayable R.clips) (hc : c ∈ R.clips)
    (hscore : v.score .frame = some (Int32.ofNat tick)) (htick : tick < 2 ^ 31) :
    R.Takes 36 (.function (R.paths c).dispatch) v
      (v.move (R.goes (c.clip.frameAt? tick) v.place)) := by
  rw [← hR.findFrame?_eq hc]
  exact Takes.dispatch hc (hR.isSound hc) hscore (Int32.toInt_ofNat_of_lt htick)

/-- Asked for a tick before the end, the seeking tree shows the latest frame up to that tick. -/
theorem Takes.seekFrame (hR : ArePlayable R.clips) (hc : c ∈ R.clips)
    (hscore : v.score .frame = some (Int32.ofNat tick)) (htick : tick < c.clip.duration) :
    R.Takes 36 (.function (R.paths c).seek) v
      (v.move (R.goes (c.clip.latestFrame? tick) v.place)) := by
  have hduration := hR.duration_le c hc
  rw [← hR.routeFrame?_eq hc htick]
  exact Takes.seek hc (hR.isSound hc) hscore (Int32.toInt_ofNat_of_lt (by omega))

/-- A seek shows the latest frame up to the local time. -/
theorem Takes.setFrame (hR : ArePlayable R.clips) (hc : c ∈ R.clips)
    (htime : v.score (.localTime c.clip.storageName) = some (Int32.ofNat tick))
    (htick : tick < c.clip.duration) :
    ∃ v', R.Takes 37 (.function ((R.paths c).control "set_frame")) v v' ∧
      v'.place = R.goes (c.clip.latestFrame? tick) v.place := by
  let asked : View := (v.tag .suppress).set .frame (Int32.ofNat tick)
  have hcopy : R.Takes 36 (Marionette.copyOwn (R.stage.names.score .frame)
      (R.stage.names.score (.localTime c.clip.storageName))) (v.tag .suppress) asked := by
    have hcopied := Takes.copyOwn (R := R) (d := 36) (k := .frame) (v := v.tag .suppress)
      (s := .localTime c.clip.storageName) trivial ⟨c, hc, rfl⟩
    rwa [View.tag_score, htime, Option.getD_some] at hcopied
  have hscore : asked.score .frame = some (Int32.ofNat tick) := by simp [asked]
  have hseek := Takes.seekFrame hR hc hscore htick
  have hbody := TakesAll.cons (Takes.tagAdd (t := .suppress)) <| TakesAll.cons hcopy <|
    TakesAll.cons hseek <| TakesAll.single (Takes.tagRemove (t := .suppress))
  exact ⟨_, Takes.call
    (Stage.mem_functions_of_control hc (.tail _ <| .tail _ <| .tail _ <| .tail _ <|
    .tail _ <| .tail _ <| .tail _ <| .tail _ <| .tail _ <| .tail _ <| .head _)) hbody, rfl⟩

/-! ### Playing -/

/-- After playing from the start. -/
def played (R : Ride) (c : CompiledClip) (v : View) : View :=
  let start := (((v.set (.localTime c.clip.storageName) 0).set .tween 0).set .interp 0).set .frame 0
  ((start.move (R.goes (c.clip.frameAt? 0) v.place)).set .interp R.stage.defaultInterp).tag
    (.playing c.clip.storageName)

theorem Takes.play (hR : ArePlayable R.clips) (hc : c ∈ R.clips) :
    R.Takes 37 (.function ((R.paths c).control "play")) v (R.played c v) := by
  refine Takes.call (Stage.mem_functions_of_control hc (.head _)) ?_
  exact .cons (.setOwn (k := .localTime c.clip.storageName) ⟨c, hc, rfl⟩) <|
    .cons (.setOwn (k := .tween) trivial) <|
    .cons (.setOwn (k := .interp) trivial) <|
    .cons .sync <|
    .cons (.setOwn (k := .frame) trivial) <|
    .cons (Takes.showFrame hR hc (show _ = some (Int32.ofNat 0) from rfl) (by decide)) <|
    .cons (.setOwn (k := .interp) trivial) <|
    .cons .sync <|
    .single (.tagAdd (t := .playing c.clip.storageName))

/-! ### Ticks of an animation -/

/-- After an animation came to a tick. -/
def advanced (R : Ride) (c : CompiledClip) (tick : Nat) (v : View) : View :=
  let moved :=
    (v.set (.localTime c.clip.storageName) (Int32.ofNat tick)).set .frame (Int32.ofNat tick)
  moved.move (R.goes (c.clip.frameAt? tick) v.place)

/-- A tick before the end shows the frame of the next tick. -/
theorem Takes.advance (hR : ArePlayable R.clips) (hc : c ∈ R.clips)
    (hv : v.Stands c.clip.storageName (some tick)) (hend : tick + 1 < c.clip.duration) :
    R.Takes 39 (.function ((R.paths c).control "advance")) v (R.advanced c (tick + 1) v) := by
  have hduration := hR.duration_le c hc
  have hamong : ScoreKey.IsAmong R.clips (.localTime c.clip.storageName) := ⟨c, hc, rfl⟩
  let later : View := v.set (.localTime c.clip.storageName) (Int32.ofNat (tick + 1))
  have hlater : later.score (.localTime c.clip.storageName) = some (Int32.ofNat (tick + 1)) :=
    if_pos rfl
  have hplaying : later.tagged (.playing c.clip.storageName) = true := hv.playing
  have hadd : R.Takes 38 (.scoreAdd .this
      (R.stage.names.score (.localTime c.clip.storageName)) 1) v later := by
    have hadded := Takes.addOwn (R := R) (d := 38) (v := v) (n := 1) hamong
    have hnext : Int32.ofNat tick + 1 = Int32.ofNat (tick + 1) := by
      rw [Int32.ofNat_add]
      rfl
    rwa [hv.time tick rfl, Option.getD_some, hnext] at hadded
  have hcopy : R.Takes 38 (Marionette.copyOwn (R.stage.names.score .frame)
      (R.stage.names.score (.localTime c.clip.storageName))) later
      (later.set .frame (Int32.ofNat (tick + 1))) := by
    have hcopied := Takes.copyOwn (R := R) (d := 38) (v := later) (k := .frame) trivial hamong
    rwa [hlater, Option.getD_some] at hcopied
  -- the end is not reached
  have hbefore : (later.score (.localTime c.clip.storageName)).any
      (ScoreRange.atLeast (Int32.ofNat c.clip.duration)).contains = false := by
    rw [hlater, Option.any_some, ScoreRange.contains_atLeast (by omega),
      Int32.toInt_ofNat_of_lt (by omega)]
    have : ¬(c.clip.duration : Int) ≤ (tick + 1 : Nat) := by omega
    exact decide_eq_false this
  have hscore : (later.set .frame (Int32.ofNat (tick + 1))).score .frame =
      some (Int32.ofNat (tick + 1)) := by simp
  have hshow : R.Takes 38 (.function (R.paths c).dispatch)
      (later.set .frame (Int32.ofNat (tick + 1))) (R.advanced c (tick + 1) v) :=
    Takes.deeper (by decide) (Takes.showFrame hR hc hscore (by omega))
  refine Takes.call (Stage.mem_functions_of_control hc (.tail _ <| .tail _ <| .tail _ <| .tail _ <|
    .tail _ <| .tail _ <| .tail _ <| .head _)) ?_
  exact TakesAll.cons hadd <|
    TakesAll.cons (.ifOwn_skip (k := .localTime c.clip.storageName) hamong hbefore) <|
    TakesAll.cons
      (.ifTagged_pass (t := .playing c.clip.storageName) hplaying (.execute_nil hcopy)) <|
    TakesAll.single
      (.ifTagged_pass (t := .playing c.clip.storageName) hplaying (.execute_nil hshow))

/-- After a tick of an animation, if it advances. -/
def ticked (R : Ride) (c : CompiledClip) (position : Option Nat) (v : View) : View :=
  match position with
  | none => v
  | some tick => R.advanced c (tick + 1) v

/-- Before the end, the turn of an animation that advances shows its next frame. -/
theorem Takes.turn (hR : ArePlayable R.clips) (hc : c ∈ R.clips) (htween : v.score .tween = some 0)
    (hv : v.Stands c.clip.storageName position)
    (hend : ∀ tick ∈ position, tick + 1 < c.clip.duration) :
    R.Takes 40 (R.turn c) v (R.ticked c position v) := by
  unfold ticked
  cases position with
  | none => exact Takes.ifTagged_skip hv.playing
  | some tick =>
    refine Takes.ifTagged_pass hv.playing (Takes.execute_nil ?_)
    refine Takes.call
      (Stage.mem_functions_of_control hc (.tail _ <| .tail _ <| .tail _ <| .tail _ <|
      .tail _ <| .tail _ <| .head _)) (.single ?_)
    refine Takes.unlessOwn_pass (k := .tween) trivial ?_
      (Takes.execute_nil (Takes.advance hR hc hv (hend tick rfl)))
    rw [htween]
    decide

end Ride

end Marionette
