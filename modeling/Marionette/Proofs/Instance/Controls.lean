import Marionette.Proofs.Instance.FrameLaws

/-!
# What controls do to an instance

- `Instance.Runs`: an animation of the rig whose functions run; `Instance.Plays`: one whose delay is
  a score, too.
- `Takes.dispatch`: the exact tree applies the frame that the frame score asks for.
- `Instance.played`, `Instance.stopped`, `Instance.ended`, `Instance.advanced`, `Instance.ticked`:
  the scene after a control; `Takes.play` and its like: the control leads there.
- `Instance.onTicked`, `Takes.onTick`: a tick of all animations and of the tween.
-/

namespace Marionette

/-- The score belongs to an instance, or to one of its animations. -/
def ScoreKey.IsOf (animation : String) : ScoreKey → Prop
  | localTime a | loopMode a => a = animation
  | _ => True

namespace Instance

/-- The functions of the animation run: it is one of the rig, its ticks are scores, and its
objectives have been created. -/
structure Runs (I : Instance) (c : CompiledClip) : Prop where
  mem : c ∈ I.clips
  built : c.IsBuilt
  duration_le : c.clip.duration ≤ 2147483647
  has : ∀ k, k.IsOf c.clip.storageName → I.Has k

/-- The animation is one of the rig, its ticks are scores, and its objectives have been created. -/
structure Plays (I : Instance) (c : CompiledClip) : Prop where
  mem : c ∈ I.clips
  built : c.IsBuilt
  length_le : c.clip.duration + c.clip.loopDelay ≤ 2147483647
  has : ∀ k, k.IsOf c.clip.storageName → I.Has k

/-- The functions of an animation. -/
def paths (I : Instance) (c : CompiledClip) : ClipPaths :=
  .ofClip I.stage.names.namespaceName c.clip

variable {I : Instance} {c : CompiledClip} {sc sc' : Scene} {d : Nat}

/-- An animation that can be played can be run. -/
theorem Plays.runs (h : I.Plays c) : I.Runs c :=
  ⟨h.mem, h.built, Nat.le_of_add_right_le h.length_le, h.has⟩

theorem Runs.isSound (h : I.Runs c) : c.tree.IsSound :=
  h.built ▸ DispatchTree.isSound_build c.clip.frames h.duration_le

/-- The frames of its tree come in the order of their ticks. -/
theorem Runs.increasing (h : I.Runs c) : Increasing c.tree.frames := by
  rw [h.built, DispatchTree.frames_build]
  exact DispatchTree.increasing_distinctFrames _ _

/-! ### Frames -/

/-- A lookup leaves all that does not depend on looks and records. -/
theorem dispatched_same {β : Type} (p : Scene → β) {tree : DispatchTree}
    (hlook : ∀ id g sc, p (sc.relook id g) = p sc)
    (hsay : ∀ id text sc, p (sc.say id text) = p sc) :
    p (I.dispatched tree sc) = p sc := by
  unfold dispatched
  split
  · rfl
  · exact framed_same p hlook hsay

@[simp] theorem dispatched_score (tree : DispatchTree) (sc : Scene) :
    (I.dispatched tree sc).score = sc.score :=
  dispatched_same Scene.score (fun _ _ _ => rfl) (fun _ _ _ => rfl)

@[simp] theorem dispatched_tagged (tree : DispatchTree) (sc : Scene) :
    (I.dispatched tree sc).tagged = sc.tagged :=
  dispatched_same Scene.tagged (fun _ _ _ => rfl) (fun _ _ _ => rfl)

/-- A function that runs the frame which a lookup finds for the frame score, and
else does nothing. -/
theorem Takes.lookUp (h : I.Runs c) {path : FunctionPath} {find : Nat → Option Frame}
    (hfind : ∀ tick frame, find tick = some frame → frame ∈ c.tree.frames)
    (hskip : ∀ w, I.Shows w sc → ∀ Q : World → Prop,
      (∀ v, w.score? I.root (I.stage.names.score .frame) = some v → v.toInt < 0) → Q w →
        World.Does 36 (.function path) (some I.root) w Q)
    (hfound : ∀ w, I.Shows w sc → ∀ (Q : World → Prop) (v : Int32) (tick : Nat), v.toInt = tick →
      AtFrame I.stage I.root v w → (∀ w', Q w' → AtFrame I.stage I.root v w') →
        World.DoesFound 3 (I.paths c) I.root (find tick) w Q →
          World.Does 36 (.function path) (some I.root) w Q) :
    I.Takes 36 (some I.root) (.function path) sc
      (match (sc.score .frame).bind fun v =>
          if v.toInt < 0 then none else find v.toInt.toNat with
        | none => sc
        | some frame => I.framed c.tree frame sc) := by
  intro w hw
  have ho := hw.hasObjective (h.has .frame trivial)
  -- without a frame score no range test passes
  cases hscore : sc.score .frame with
  | none =>
    refine hskip w hw _ (fun v hv => ?_) (.refl hw)
    exact nomatch (hscore.symm.trans (hw.score .frame).symm).trans hv
  | some v =>
    have hv : w.score? I.root (I.stage.names.score .frame) = some v :=
      (hw.score .frame).trans hscore
    rw [Option.bind_some]
    -- a negative score finds nothing either
    by_cases hneg : v.toInt < 0
    · rw [if_pos hneg]
      refine hskip w hw _ (fun v' hv' => ?_) (.refl hw)
      obtain rfl : v = v' := Option.some.inj (hv.symm.trans hv')
      exact hneg
    · rw [if_neg hneg]
      refine hfound w hw _ v v.toInt.toNat (by omega) ⟨hw.isLiving_root, ho, hv⟩ ?_ ?_
      · -- the frame leaves the score that was asked for as it is
        intro w' hw'
        refine ⟨hw'.1.isLiving_root, hw'.1.hasObjective (h.has .frame trivial), ?_⟩
        refine (hw'.1.score .frame).trans ?_
        split
        · exact hscore
        · rw [framed_score, hscore]
      -- the frame that was found is applied, if there is one
      · cases hframe : find v.toInt.toNat with
        | none => exact .refl hw
        | some frame => exact Takes.applyFrame h.mem h.increasing (hfind _ _ hframe) w hw

/-- The functions of its tree are there. -/
theorem Runs.installs (h : I.Runs c) {w : World} (hw : I.Shows w sc) :
    w.Installs (I.stage.dispatchFunctions (I.paths c) c.tree) := fun f hf =>
  hw.installs f
    (Stage.mem_functions_of_clip h.mem (List.mem_append_left _ (List.mem_append_left _ hf)))

/-- A tree is not too deep for calls. -/
theorem Runs.depth_le (h : I.Runs c) : 3 + c.tree.depth + 1 ≤ 36 := by
  have := h.isSound.depth_le
  omega

/-- The exact tree applies the frame that the frame score asks for. -/
theorem Takes.dispatch (h : I.Runs c) :
    I.Takes 36 (some I.root) (.function (I.paths c).dispatch) sc (I.dispatched c.tree sc) := by
  refine Takes.lookUp h (fun _ _ => DispatchTree.mem_frames_of_findFrame?) ?_ ?_
  · intro w hw Q hv hQ
    exact World.Does.deeper h.depth_le (World.Does.dispatch_skip h.isSound (h.installs hw)
      hw.isLiving_root (hw.hasObjective (h.has .frame trivial)) hv hQ)
  · intro w hw Q v tick hv hat hQ hframe
    exact World.Does.deeper h.depth_le
      (World.Does.dispatch h.isSound (h.installs hw) hv hat hQ hframe)

/-! ### Scenes after controls -/

/-- The tag of an animation that is advancing. -/
def playingKey (c : CompiledClip) : TagKey := .playing c.clip.storageName

/-- The playback position of an animation. -/
def timeKey (c : CompiledClip) : ScoreKey := .localTime c.clip.storageName

/-- The loop mode of an animation. -/
def modeKey (c : CompiledClip) : ScoreKey := .loopMode c.clip.storageName

variable (I c)

/-- A score of the root lies in a range. -/
def inRange (k : ScoreKey) (range : ScoreRange) (sc : Scene) : Bool :=
  (sc.score k).any range.contains

/-- After playing from the start. -/
def played (sc : Scene) : Scene :=
  let start := ((sc.set (timeKey c) 0).set .tween 0).set .interp 0
  let shown := I.dispatched c.tree ((I.synced start).set .frame 0)
  (I.synced (shown.set .interp I.stage.defaultInterp)).tag (playingKey c)

/-- After stopping: the first frame is shown without what happens beside its poses. -/
def stopped (sc : Scene) : Scene :=
  let start := ((sc.set (timeKey c) 0).set .tween 0).tag .suppress
  ((I.dispatched c.tree (start.set .frame 0)).untag .suppress).untag (playingKey c)

/-- The last tick of an animation. -/
def lastTick (c : CompiledClip) : Int32 :=
  (if Int32.ofNat c.clip.duration < 1 then 1 else Int32.ofNat c.clip.duration) - 1

/-- Starting a loop again once its delay is over. -/
def restarted (sc : Scene) : Scene :=
  let past := ScoreRange.atLeast (Int32.ofNat c.clip.duration + Int32.ofNat c.clip.loopDelay)
  let again := if inRange (modeKey c) (.exact 0) sc then
    if inRange (timeKey c) past sc then sc.set (timeKey c) 0 else sc else sc
  if inRange (modeKey c) (.exact 0) again then
    if inRange (timeKey c) (.exact 0) again then I.synced again else again else again

/-- Stopping an animation that plays once. -/
def stoppedOnce (sc : Scene) : Scene :=
  if inRange (modeKey c) (.exact 1) sc then stopped I c sc else sc

/-- Holding the last frame of an animation that does so. -/
def held (sc : Scene) : Scene :=
  if inRange (modeKey c) (.exact 2) sc then (sc.set (timeKey c) (lastTick c)).untag (playingKey c)
  else sc

/-- After the end was reached: an animation starts again, stops, or holds its last frame. -/
def ended (sc : Scene) : Scene := held c (stoppedOnce I c (restarted I c sc))

/-- Coming to the end, or not. -/
def passed (sc : Scene) : Scene :=
  if inRange (timeKey c) (.atLeast (Int32.ofNat c.clip.duration)) sc then ended I c sc else sc

/-- Applying the frame of the current tick while the animation advances. -/
def followed (sc : Scene) : Scene :=
  if sc.tagged (playingKey c) then
    I.dispatched c.tree (sc.set .frame ((sc.score (timeKey c)).getD 0))
  else sc

/-- After a tick of an animation that is playing. -/
def advanced (sc : Scene) : Scene :=
  followed I c (passed I c (sc.set (timeKey c) ((sc.score (timeKey c)).getD 0 + 1)))

/-- After a tick of an animation: nothing advances during a tween. -/
def ticked (sc : Scene) : Scene :=
  if inRange .tween (.atLeast 1) sc then sc else advanced I c sc

/-- After a tick of a tween. -/
def tweened (sc : Scene) : Scene :=
  let less := sc.set .tween ((sc.score .tween).getD 0 - 1)
  let shown := less.set .interp ((less.score .tween).getD 0)
  I.synced (if inRange .tween (.atMost 0) shown then
    shown.set .interp I.stage.defaultInterp else shown)

/-- After a tick of some animations, those that are playing. -/
def clipsTicked (clips : List CompiledClip) (sc : Scene) : Scene :=
  clips.foldl (fun sc c => if sc.tagged (playingKey c) then ticked I c sc else sc) sc

/-- After a tick. -/
def onTicked (sc : Scene) : Scene :=
  let aged := sc.set .lifetime ((sc.score .lifetime).getD 0 + 1)
  let moved := clipsTicked I I.clips aged
  if inRange .tween (.atLeast 1) moved then tweened I moved else moved

/-! ### Controls -/

variable {I c}

/-- Playing starts at tick 0: the first frame is applied at once, and only then does the default
duration come back and the tag get given. -/
theorem Takes.play (h : I.Runs c) :
    I.Takes 37 (some I.root) (.function ((I.paths c).control "play")) sc (played I c sc) := by
  have hinterp : I.Has .interp := h.has .interp trivial
  refine Takes.call (Stage.mem_functions_of_control h.mem (.head _)) ?_
  exact .cons (.setOwn (k := timeKey c) (h.has _ rfl)) <|
    .cons (.setOwn (k := .tween) (h.has _ trivial)) <|
    .cons (.setOwn (k := .interp) hinterp) <|
    .cons (.sync hinterp) <|
    .cons (.setOwn (k := .frame) (h.has _ trivial)) <|
    .cons (.dispatch h) <|
    .cons (.setOwn (k := .interp) hinterp) <|
    .cons (.sync hinterp) <|
    .cons (.tagAdd (t := playingKey c)) .nil

/-- Pausing takes the tag of playing. -/
theorem Takes.pause (hc : c ∈ I.clips) :
    I.Takes 1 (some I.root) (.function ((I.paths c).control "pause")) sc
      (sc.untag (playingKey c)) :=
  Takes.call (Stage.mem_functions_of_control hc (.tail _ <| .tail _ <| .head _))
    (.single (.tagRemove (t := playingKey c)))

/-- Stopping goes back to the first frame without its effects. -/
theorem Takes.stop (h : I.Runs c) :
    I.Takes 37 (some I.root) (.function ((I.paths c).control "stop")) sc (stopped I c sc) := by
  refine Takes.call
    (Stage.mem_functions_of_control h.mem (.tail _ <| .tail _ <| .tail _ <| .head _)) ?_
  exact .cons (.setOwn (k := timeKey c) (h.has _ rfl)) <|
    .cons (.setOwn (k := .tween) (h.has _ trivial)) <|
    .cons (.tagAdd (t := .suppress)) <|
    .cons (.setOwn (k := .frame) (h.has _ trivial)) <|
    .cons (.dispatch h) <|
    .cons (.tagRemove (t := .suppress)) <|
    .cons (.tagRemove (t := playingKey c)) .nil

/-- The commands that hold the last frame. -/
theorem TakesAll.hold (h : I.Runs c) :
    I.TakesAll 37 (some I.root)
      [.execute [Marionette.ifOwn (I.stage.names.score (modeKey c)) (.exact 2)]
          (Marionette.setOwn (I.stage.names.score (timeKey c)) (lastTick c)),
        .execute [Marionette.ifOwn (I.stage.names.score (modeKey c)) (.exact 2)]
          (.function ((I.paths c).control "pause"))] sc (held c sc) := by
  have hmode : I.Has (modeKey c) := h.has _ rfl
  have hfirst : I.Takes 37 (some I.root)
      (.execute [Marionette.ifOwn (I.stage.names.score (modeKey c)) (.exact 2)]
        (Marionette.setOwn (I.stage.names.score (timeKey c)) (lastTick c))) sc _ :=
    .ifOwn hmode fun _ => .execute_nil (.setOwn (h.has _ rfl))
  have hboth := TakesAll.cons hfirst <|
    .single (.ifOwn (k := modeKey c) (b := .exact 2) hmode
      fun _ => .execute_nil (.deeper (by omega) (.pause h.mem)))
  have hkeys : modeKey c ≠ timeKey c := nofun
  unfold held inRange
  cases hrange : (sc.score (modeKey c)).any (ScoreRange.exact 2).contains with
  | false => simpa [hrange] using hboth
  | true => simpa [hrange, hkeys] using hboth

/-- The end is handled as the loop mode says. -/
theorem Takes.end (h : I.Runs c) :
    I.Takes 38 (some I.root) (.function ((I.paths c).control "end")) sc (ended I c sc) := by
  have hmode : I.Has (modeKey c) := h.has _ rfl
  have htime : I.Has (timeKey c) := h.has _ rfl
  refine Takes.call
    (Stage.mem_functions_of_control h.mem (.tail _ <| .tail _ <| .tail _ <| .tail _ <|
    .tail _ <| .tail _ <| .tail _ <| .tail _ <| .head _)) ?_
  exact .cons (.ifOwn (k := modeKey c) hmode fun _ => .ifOwn (k := timeKey c) htime fun _ =>
      .execute_nil (.setOwn (k := timeKey c) htime)) <|
    .cons (.ifOwn (k := modeKey c) hmode fun _ => .ifOwn (k := timeKey c) htime fun _ =>
      .execute_nil (.sync (h.has .interp trivial))) <|
    .cons (.ifOwn (k := modeKey c) hmode fun _ => .execute_nil (.stop h)) (.hold h)

/-- The commands that apply the frame of the current tick. -/
theorem TakesAll.follow (h : I.Runs c) :
    I.TakesAll 38 (some I.root)
      [.execute [.ifEntity (Selector.this.tagged (I.stage.names.tag (playingKey c)))]
          (Marionette.copyOwn (I.stage.names.score .frame) (I.stage.names.score (timeKey c))),
        .execute [.ifEntity (Selector.this.tagged (I.stage.names.tag (playingKey c)))]
          (.function (I.paths c).dispatch)] sc (followed I c sc) := by
  have hfirst : I.Takes 38 (some I.root)
      (.execute [.ifEntity (Selector.this.tagged (I.stage.names.tag (playingKey c)))]
        (Marionette.copyOwn (I.stage.names.score .frame) (I.stage.names.score (timeKey c)))) sc _ :=
    .ifTagged fun _ => .execute_nil (.copyOwn (h.has _ trivial) (h.has _ rfl))
  have hboth := TakesAll.cons hfirst <|
    .single (.ifTagged (t := playingKey c) fun _ =>
      .execute_nil (.deeper (by omega) (.dispatch h)))
  unfold followed
  cases htag : sc.tagged (playingKey c) with
  | false => simpa [htag] using hboth
  | true => simpa [htag] using hboth

/-- An animation advances by a tick unless a tween is running. -/
theorem Takes.advance (h : I.Runs c) :
    I.Takes 39 (some I.root) (.function ((I.paths c).control "advance")) sc (advanced I c sc) := by
  have htime : I.Has (timeKey c) := h.has _ rfl
  refine Takes.call
    (Stage.mem_functions_of_control h.mem (.tail _ <| .tail _ <| .tail _ <| .tail _ <|
    .tail _ <| .tail _ <| .tail _ <| .head _)) ?_
  exact .cons (.addOwn (k := timeKey c) htime) <|
    .cons (.ifOwn (k := timeKey c) htime fun _ => .execute_nil (.end h)) <|
    .follow h

/-- The tick of an animation. -/
theorem Takes.clipTick (h : I.Runs c) :
    I.Takes 40 (some I.root) (.function ((I.paths c).control "tick")) sc (ticked I c sc) := by
  refine Takes.call
    (Stage.mem_functions_of_control h.mem (.tail _ <| .tail _ <| .tail _ <| .tail _ <|
    .tail _ <| .tail _ <| .head _)) ?_
  exact .single (.unlessOwn (k := .tween) (h.has _ trivial) fun _ => .execute_nil (.advance h))

/-- A tick of a tween counts down, and sets the duration back when it is over. -/
theorem Takes.tweenStep (htween : I.Has .tween) (hinterp : I.Has .interp) :
    I.Takes (d + 2) (some I.root) (.function (I.stage.function "tween_step")) sc
      (tweened I sc) := by
  refine Takes.call (Stage.mem_functions_of_tick (.tail _ <| .tail _ <| .tail _ <| .head _)) ?_
  exact .cons (.removeOwn (k := .tween) htween) <|
    .cons (.copyOwn (k := .interp) (s := .tween) hinterp htween) <|
    .cons (.ifOwn (k := .tween) htween fun _ => .execute_nil (.setOwn (k := .interp) hinterp)) <|
    .cons (.sync hinterp) .nil

/-! ### Ticks -/

@[simp] theorem restarted_tagged (sc : Scene) : (restarted I c sc).tagged = sc.tagged := by
  unfold restarted
  dsimp only
  repeat' split
  all_goals first
    | rfl
    | exact synced_tagged _

/-- After a stop neither the tag of playing nor the one that suppresses effects is left. -/
theorem stopped_tagged (sc : Scene) (k : TagKey) :
    (stopped I c sc).tagged k = (k != playingKey c && k != .suppress && sc.tagged k) := by
  simp only [stopped, Scene.untag_tagged, dispatched_tagged, Scene.set_tagged, Scene.tag_tagged]
  by_cases hk : k = .suppress
  · simp [hk]
  · rw [bne_iff_ne.2 hk, beq_false_of_ne hk, Bool.true_and, Bool.false_or, Bool.and_true]

end Instance

/-- Every animation that advances afterwards was advancing before. -/
def Scene.StartsNone (sc sc' : Scene) : Prop :=
  ∀ a, sc'.tagged (.playing a) = true → sc.tagged (.playing a) = true

namespace Scene.StartsNone

variable {sc sc' sc'' : Scene}

/-- None is started by two steps that start none. -/
theorem trans (h : StartsNone sc sc') (h' : StartsNone sc' sc'') : StartsNone sc sc'' :=
  fun a ha => h a (h' a ha)

theorem of_tagged_eq (h : sc'.tagged = sc.tagged) : StartsNone sc sc' :=
  fun _ ha => h ▸ ha

/-- Taking a tag starts nothing. -/
theorem untag (sc : Scene) (t : TagKey) : StartsNone sc (sc.untag t) := by
  intro a ha
  rw [untag_tagged, Bool.and_eq_true] at ha
  exact ha.2

/-- Whichever of two scenes is chosen, nothing was started. -/
theorem choose {b : Prop} [Decidable b] (h : StartsNone sc sc') (h' : StartsNone sc sc'') :
    StartsNone sc (if b then sc' else sc'') := by
  split
  · exact h
  · exact h'

end Scene.StartsNone

namespace Instance

variable {I : Instance} {c : CompiledClip} {sc : Scene}

open Scene (StartsNone)

/-- Stopping an animation starts none. -/
theorem startsNone_stopped (sc : Scene) : StartsNone sc (stopped I c sc) := by
  intro _ ha
  rw [stopped_tagged, Bool.and_eq_true] at ha
  exact ha.2

/-- Neither does the end of one. -/
theorem startsNone_ended (sc : Scene) : StartsNone sc (ended I c sc) := by
  have hlooped : StartsNone sc (restarted I c sc) := .of_tagged_eq (restarted_tagged sc)
  have honce : StartsNone sc (stoppedOnce I c (restarted I c sc)) :=
    hlooped.trans (.choose (startsNone_stopped _) (.of_tagged_eq rfl))
  exact honce.trans (.choose (.untag (Scene.set _ _ _) _) (.of_tagged_eq rfl))

/-- Ticks start no animation. -/
theorem startsNone_ticked (sc : Scene) : StartsNone sc (ticked I c sc) := by
  have hpassed : ∀ sc : Scene, StartsNone sc (passed I c sc) := fun sc =>
    .choose (startsNone_ended sc) (.of_tagged_eq rfl)
  have hfollowed : ∀ sc : Scene, StartsNone sc (followed I c sc) := fun sc =>
    .choose (.of_tagged_eq (dispatched_tagged _ _)) (.of_tagged_eq rfl)
  refine .choose (.of_tagged_eq rfl) ?_
  exact .trans (hpassed (sc.set _ _)) (hfollowed _)

/-- The animations of a root tick in order, each of them only while it plays. -/
theorem TakesAll.clipTicks {clips : List CompiledClip}
    (h : ∀ c ∈ clips, sc.tagged (playingKey c) = true → I.Runs c) :
    I.TakesAll 40 (some I.root) (clips.map fun c =>
      Command.execute [.ifEntity (Selector.this.tagged (I.stage.names.tag (playingKey c)))]
        (.function ((I.paths c).control "tick"))) sc (clipsTicked I clips sc) := by
  induction clips generalizing sc with
  | nil => exact TakesAll.nil
  | cons c rest ih =>
    refine TakesAll.cons (Takes.ifTagged (t := playingKey c) fun htag =>
      Takes.execute_nil (Takes.clipTick (h c List.mem_cons_self htag))) (ih fun c' hc' htag => ?_)
    refine h c' (List.mem_cons_of_mem _ hc') ?_
    split at htag
    · exact startsNone_ticked sc _ htag
    · exact htag

/-- The tick of an instance. -/
theorem Takes.onTick (hlifetime : I.Has .lifetime) (htween : I.Has .tween) (hinterp : I.Has .interp)
    (h : ∀ c ∈ I.clips, sc.tagged (playingKey c) = true → I.Runs c) :
    I.Takes 41 (some I.root) (.function (I.stage.function "on_tick")) sc (onTicked I sc) := by
  refine Takes.call (Stage.mem_functions_of_tick (.tail _ <| .tail _ <| .head _)) ?_
  refine TakesAll.append (TakesAll.cons (.addOwn (k := .lifetime) hlifetime) ?_)
    (.single (.ifOwn (k := .tween) htween fun _ =>
      .execute_nil (.deeper (by omega) (.tweenStep (d := 0) htween hinterp))))
  rw [List.map_map]
  exact TakesAll.clipTicks h

end Instance

end Marionette
