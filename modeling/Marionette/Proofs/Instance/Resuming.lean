import Marionette.Proofs.Instance.Controls

/-!
# Controls that go on from where an animation stands

- `Takes.seek`: the seeking tree applies the latest frame up to what the frame score asks for.
- `Instance.resumed`, `Instance.tweenPlayed`, `Instance.tweenResumed`, `Instance.frameApplied`,
  `Instance.frameSet`, `Instance.allPaused`: the scene after a control; `Takes.resume` and its like:
  the control leads there.
-/

namespace Marionette

namespace World

/-- Removing a score of some owners. -/
theorem ownerScore?_resetScores (w : World) (owners : List Owner) (objective : String) (o : Owner)
    (b : String) : (w.resetScores owners (some objective)).ownerScore? o b =
      if o ∈ owners ∧ b = objective then none else w.ownerScore? o b := by
  unfold resetScores ownerScore?
  rw [Std.HashMap.getElem?_filter']
  cases w.scores[(o, b)]? with
  | none => simp
  | some v =>
    by_cases hreset : o ∈ owners ∧ b = objective
    · simp [Option.filter, hreset]
    · rw [if_neg hreset, Option.filter_some, if_pos]
      rw [Bool.not_eq_true', Bool.and_eq_false_iff]
      rcases Decidable.not_and_iff_or_not.1 hreset with ho | hb
      · exact .inl (by simpa using ho)
      · exact .inr (by simpa using Ne.symm hb)

/-- Resetting a score of the entity that runs the command. -/
theorem Does.scoreReset_this {d id : Nat} {w : World} {objective : Option String}
    {Q : World → Prop} (hl : w.IsLiving id) (h : Q (w.resetScores [.entity id] objective)) :
    Does d (.scoreReset .this objective) (some id) w Q := by
  refine Leads.bind_on (Run.on_get w) ?_
  rw [owners_this hl]
  exact Leads.of_on rfl h

end World

/-- Removes a score. -/
def Scene.unset (sc : Scene) (k : ScoreKey) : Scene :=
  { sc with score := fun k' => if k' = k then none else sc.score k' }

namespace Scene

variable (sc : Scene) (k k' : ScoreKey)

@[simp] theorem unset_score :
    (sc.unset k).score k' = if k' = k then none else sc.score k' := rfl

@[simp] theorem unset_tagged : (sc.unset k).tagged = sc.tagged := rfl

@[simp] theorem unset_look : (sc.unset k).look = sc.look := rfl

@[simp] theorem unset_output : (sc.unset k).output = sc.output := rfl

end Scene

namespace Instance

variable {I : Instance} {c : CompiledClip} {sc : Scene} {d : Nat} {k : ScoreKey}

/-- Removing a score of the root. -/
theorem Reaches.resetScore {w : World} (h : I.Shows w sc) (k : ScoreKey) :
    I.Reaches w (sc.unset k)
      (w.resetScores [.entity I.root] (some (I.stage.names.score k))) := by
  refine ⟨⟨h.setting, h.root, h.riders, fun k' => ?_, h.output⟩, ⟨rfl, rfl, fun _ _ => rfl, ?_⟩⟩
  · rw [World.score?, World.ownerScore?_resetScores, Scene.unset_score]
    by_cases hk : k' = k
    · rw [if_pos ⟨List.mem_singleton_self _, by rw [hk]⟩, if_pos hk]
    · rw [if_neg fun heq => hk (RuntimeNames.score_inj heq.2), if_neg hk]
      exact h.score k'
  · intro o objective hk _
    rw [World.ownerScore?_resetScores, if_neg]
    rintro ⟨ho, rfl⟩
    exact hk k (Prod.ext (List.mem_singleton.1 ho) rfl)

/-- Removing a score of the root. -/
theorem Takes.resetOwn :
    I.Takes d (some I.root) (.scoreReset .this (some (I.stage.names.score k))) sc (sc.unset k) :=
  fun _ hw => World.Does.scoreReset_this hw.isLiving_root (.resetScore hw k)

/-! ### Seeking -/

/-- The latest frame is applied up to what the frame score asks for. -/
def sought (I : Instance) (tree : DispatchTree) (sc : Scene) : Scene :=
  match (sc.score .frame).bind fun v =>
    if v.toInt < 0 then none else tree.routeFrame? v.toInt.toNat with
  | none => sc
  | some frame => I.framed tree frame sc

/-- Seeking leaves all that does not depend on looks and records. -/
theorem sought_same {β : Type} (p : Scene → β) {tree : DispatchTree}
    (hlook : ∀ id g sc, p (sc.relook id g) = p sc)
    (hsay : ∀ id text sc, p (sc.say id text) = p sc) :
    p (I.sought tree sc) = p sc := by
  unfold sought
  split
  · rfl
  · exact framed_same p hlook hsay

@[simp] theorem sought_score (tree : DispatchTree) (sc : Scene) :
    (I.sought tree sc).score = sc.score :=
  sought_same Scene.score (fun _ _ _ => rfl) (fun _ _ _ => rfl)

@[simp] theorem sought_tagged (tree : DispatchTree) (sc : Scene) :
    (I.sought tree sc).tagged = sc.tagged :=
  sought_same Scene.tagged (fun _ _ _ => rfl) (fun _ _ _ => rfl)

/-- The seeking tree applies the latest frame up to what the frame score asks for. -/
theorem Takes.seek (h : I.Runs c) :
    I.Takes 36 (some I.root) (.function (I.paths c).seek) sc (I.sought c.tree sc) := by
  refine Takes.lookUp h (fun _ _ => DispatchTree.mem_frames_of_routeFrame?) ?_ ?_
  · intro w hw Q hv hQ
    exact World.Does.deeper h.depth_le (World.Does.seek_skip h.isSound (h.installs hw)
      hw.isLiving_root (hw.hasObjective (h.has .frame trivial)) hv hQ)
  · intro w hw Q v tick hv hat hQ hframe
    exact World.Does.deeper h.depth_le
      (World.Does.seek h.isSound (h.installs hw) hv hat hQ hframe)

/-! ### Scenes after controls -/

variable (I c)

/-- After going on from where the animation stands. -/
def resumed (sc : Scene) : Scene :=
  I.synced ((sc.tag (playingKey c)).set .interp I.stage.defaultInterp)

/-- After a tween has begun, of the length that was asked for or else of the default length. -/
def tweenBegun (sc : Scene) : Scene :=
  let standard := sc.set .tween (Int32.ofNat I.stage.config.tweenDuration)
  let chosen := if inRange .tweenRequest (.atLeast 1) standard then
    standard.set .tween ((standard.score .tweenRequest).getD 0) else standard
  let asked := chosen.unset .tweenRequest
  I.synced (asked.set .interp ((asked.score .tween).getD 0))

/-- After a tween to the first frame has begun. -/
def tweenPlayed (sc : Scene) : Scene :=
  let begun := tweenBegun I (sc.set (timeKey c) 0)
  ((I.dispatched c.tree ((begun.tag .suppress).set .frame 0)).untag .suppress).tag (playingKey c)

/-- The latest frame up to the local time is shown without what happens beside its poses. -/
def frameSet (sc : Scene) : Scene :=
  let asked := (sc.tag .suppress).set .frame ((sc.score (timeKey c)).getD 0)
  (I.sought c.tree asked).untag .suppress

/-- After a tween to the local time has begun. -/
def tweenResumed (sc : Scene) : Scene :=
  (frameSet I c (tweenBegun I sc)).tag (playingKey c)

/-- After the frame of the local time was applied. -/
def frameApplied (sc : Scene) : Scene :=
  I.dispatched c.tree (sc.set .frame ((sc.score (timeKey c)).getD 0))

/-- After animations were paused. -/
def allPaused (clips : List CompiledClip) (sc : Scene) : Scene :=
  clips.foldl (fun sc c => sc.untag (playingKey c)) sc

/-! ### Controls -/

variable {I c}

/-- Going on gives the tag and sets the default duration, wherever the animation stands. -/
theorem Takes.resume (h : I.Runs c) :
    I.Takes 37 (some I.root) (.function ((I.paths c).control "resume")) sc (resumed I c sc) := by
  have hinterp : I.Has .interp := h.has .interp trivial
  refine Takes.call (Stage.mem_functions_of_control h.mem (.tail _ <| .head _)) ?_
  exact .cons (.tagAdd (t := playingKey c)) <|
    .cons (.setOwn (k := .interp) hinterp) <|
    .cons (.sync hinterp) .nil

/-- The commands that begin a tween. -/
theorem TakesAll.beginTween (h : I.Runs c) :
    I.TakesAll 36 (some I.root) I.stage.tweenSetup sc (tweenBegun I sc) := by
  have htween : I.Has .tween := h.has .tween trivial
  have hrequest : I.Has .tweenRequest := h.has .tweenRequest trivial
  have hinterp : I.Has .interp := h.has .interp trivial
  exact .cons (.setOwn (k := .tween) htween) <|
    .cons (.ifOwn (k := .tweenRequest) hrequest fun _ =>
      .execute_nil (.copyOwn (k := .tween) (s := .tweenRequest) htween hrequest)) <|
    .cons (.resetOwn (k := .tweenRequest)) <|
    .cons (.copyOwn (k := .interp) (s := .tween) hinterp htween) <|
    .cons (.sync hinterp) .nil

/-- A tween to the start shows the first frame without its effects. -/
theorem Takes.tweenPlay (h : I.Runs c) :
    I.Takes 37 (some I.root) (.function ((I.paths c).control "tween_play")) sc
      (tweenPlayed I c sc) := by
  refine Takes.call (Stage.mem_functions_of_control h.mem
    (.tail _ <| .tail _ <| .tail _ <| .tail _ <| .head _)) ?_
  have hshown :
      ∀ sc, I.TakesAll 36 (some I.root) (I.stage.suppressed (I.stage.applyFirst (I.paths c)))
      sc ((I.dispatched c.tree ((sc.tag .suppress).set .frame 0)).untag .suppress) := fun _ =>
    .cons (.tagAdd (t := .suppress)) <|
      .cons (.setOwn (k := .frame) (h.has _ trivial)) <|
      .cons (.dispatch h) <|
      .cons (.tagRemove (t := .suppress)) .nil
  exact .append (.append (.append (.single (.setOwn (k := timeKey c) (h.has _ rfl)))
    (.beginTween h)) (hshown _)) (.single (.tagAdd (t := playingKey c)))

/-- The commands that show the latest frame up to the local time. -/
theorem TakesAll.setFrame (h : I.Runs c) :
    I.TakesAll 36 (some I.root) (I.stage.suppressed
      (I.stage.seekCurrent (I.paths c) (I.stage.names.localTime c.clip.storageName))) sc
      (frameSet I c sc) :=
  .cons (.tagAdd (t := .suppress)) <|
    .cons (.copyOwn (k := .frame) (s := timeKey c) (h.has _ trivial) (h.has _ rfl)) <|
    .cons (.seek h) <|
    .cons (.tagRemove (t := .suppress)) .nil

/-- A tween to where the animation stands shows the latest frame up to there. -/
theorem Takes.tweenResume (h : I.Runs c) :
    I.Takes 37 (some I.root) (.function ((I.paths c).control "tween_resume")) sc
      (tweenResumed I c sc) := by
  refine Takes.call (Stage.mem_functions_of_control h.mem
    (.tail _ <| .tail _ <| .tail _ <| .tail _ <| .tail _ <| .head _)) ?_
  exact .append (.append (.beginTween h) (.setFrame h)) (.single (.tagAdd (t := playingKey c)))

/-- The frame of the local time is applied again, with its effects. -/
theorem Takes.applyFrameAgain (h : I.Runs c) :
    I.Takes 37 (some I.root) (.function ((I.paths c).control "apply_frame")) sc
      (frameApplied I c sc) := by
  refine Takes.call (Stage.mem_functions_of_control h.mem (.tail _ <| .tail _ <| .tail _ <|
    .tail _ <| .tail _ <| .tail _ <| .tail _ <| .tail _ <| .tail _ <| .head _)) ?_
  exact .cons (.copyOwn (k := .frame) (s := timeKey c) (h.has _ trivial) (h.has _ rfl)) <|
    .cons (.dispatch h) .nil

/-- The latest frame up to the local time is shown without them. -/
theorem Takes.setFrame (h : I.Runs c) :
    I.Takes 37 (some I.root) (.function ((I.paths c).control "set_frame")) sc
      (frameSet I c sc) := by
  refine Takes.call (Stage.mem_functions_of_control h.mem (.tail _ <| .tail _ <| .tail _ <|
    .tail _ <| .tail _ <| .tail _ <| .tail _ <| .tail _ <| .tail _ <| .tail _ <| .head _)) ?_
  exact .setFrame h

/-- All animations are paused at once. -/
theorem Takes.pauseAll :
    I.Takes 1 (some I.root) (.function (I.stage.function "pause_all")) sc
      (allPaused I.clips sc) := by
  refine Takes.call (Stage.mem_functions_of_instance (List.mem_append_left _
    (.tail _ <| .tail _ <| .tail _ <| .head _))) ?_
  rw [List.map_map]
  have hpauses : ∀ (clips : List CompiledClip) sc, I.TakesAll 0 (some I.root) (clips.map fun c =>
      Command.tagRemove .this (I.stage.names.tag (playingKey c))) sc (allPaused clips sc) := by
    intro clips
    induction clips with
    | nil => exact fun _ => .nil
    | cons c rest ih => exact fun _ => .cons (.tagRemove (t := playingKey c)) (ih _)
  exact hpauses I.clips sc

end Instance

end Marionette
