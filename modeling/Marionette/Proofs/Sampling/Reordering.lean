import Marionette.Proofs.Sampling.Keys
import Marionette.Proofs.Sampling.Lossless

/-!
# Order of animators

The animators of an animation may come in any order: no node is animated twice, so that each of them
has a place of its own beside the nodes of the rig.

- `Animation.withAnimators`: an animation with other animators; reading a rig at a tick does not
  depend on them (`sampleFrom_withAnimators`).
- `checkAnimators_ok_of_perm`: whether they pass does not depend on their order.
- `assignChannels_of_perm`: neither do the keys of nodes, and the same is told about them.
- `sample_of_perm`: neither does the clip.
-/

namespace Marionette

/-- An animation with other animators. -/
def Animation.withAnimators (a : Animation) (animators : List Animator) : Animation :=
  { a with animators := animators }

variable {rig : Rig} {a : Animation} {config : Config} {animators animators' : List Animator}

/-! ### What does not look at animators -/

namespace Animation

theorem checkTimesFrom_withAnimators (node : Option Uuid) (channel : String) (last : Float)
    (times : List Float) :
    (a.withAnimators animators).checkTimesFrom node channel last times =
      a.checkTimesFrom node channel last times := by
  induction times generalizing last with
  | nil => rfl
  | cons time times ih =>
    rw [checkTimesFrom, checkTimesFrom, ih]
    rfl

theorem checkTimes_withAnimators (node : Option Uuid) (channel : String) (times : List Float) :
    (a.withAnimators animators).checkTimes node channel times = a.checkTimes node channel times :=
  a.checkTimesFrom_withAnimators node channel 0 times

theorem checkChannel_withAnimators (node : Uuid) (channel : String) (keys : List TransformKey) :
    (a.withAnimators animators).checkChannel node channel keys =
      a.checkChannel node channel keys := by
  rw [checkChannel, checkChannel, checkTimes_withAnimators]
  rfl

theorem checkAnimator_withAnimators (animator : Animator) :
    (a.withAnimators animators).checkAnimator animator = a.checkAnimator animator := by
  simp only [checkAnimator, checkChannel_withAnimators, checkTimes_withAnimators]
  rfl

end Animation

theorem sampleNodes_withAnimators (precision : Float) (tick : Nat)
    (items : List (Track × Marker × Mat4)) :
    sampleNodes (a.withAnimators animators) precision tick items =
      sampleNodes a precision tick items := by
  induction items with
  | nil => rfl
  | cons item items ih =>
    obtain ⟨track, marker, world⟩ := item
    rw [sampleNodes, sampleNodes, ih]
    rfl

theorem sampleTick_withAnimators (tick : Nat) (tracks : List Track) :
    sampleTick rig (a.withAnimators animators) config tick tracks =
      sampleTick rig a config tick tracks := by
  simp only [sampleTick, sampleNodes_withAnimators]
  rfl

theorem sampleFrom_withAnimators (count tick : Nat) (r : Recording) :
    sampleFrom rig (a.withAnimators animators) config count tick r =
      sampleFrom rig a config count tick r := by
  induction count generalizing tick r with
  | zero => rfl
  | succ count ih => simp only [sampleFrom, sampleTick_withAnimators, ih]

theorem assignChannels_withAnimators (channels : Array Channels) (others : List Animator) :
    assignChannels rig (a.withAnimators animators) channels others =
      assignChannels rig a channels others := by
  induction others generalizing channels with
  | nil => rfl
  | cons animator others ih =>
    simp only [assignChannels, ih]
    rfl

/-! ### Animators in another order -/

/-- An animation passes if its animators do, and all other parts. -/
theorem check_withAnimators_ok_iff (h : animators.Perm a.animators) :
    (a.withAnimators animators).check = .ok () ↔ a.check = .ok () := by
  have hanimators : (a.withAnimators animators).checkAnimators [] animators = .ok () ↔
      a.checkAnimators [] a.animators = .ok () := by
    simp only [checkAnimators_ok_iff, Animation.checkAnimator_withAnimators, h.mem_iff,
      (h.map Animator.node).nodup_iff]
  simp only [Animation.check, unit_bind_eq_ok, Animation.checkTimes_withAnimators]
  exact and_congr Iff.rfl (and_congr Iff.rfl (and_congr hanimators Iff.rfl))

variable {channels channels' : Array Channels} {remarks : List Diagnostic}

/-- Different nodes have different places. -/
theorem indexOf?_ne {uuid uuid' : Uuid} {i j : Nat} (hi : rig.indexOf? uuid = some i)
    (hj : rig.indexOf? uuid' = some j) (hne : uuid ≠ uuid') : i ≠ j := by
  rintro rfl
  obtain ⟨_, huuid, -⟩ := Array.findIdx?_eq_some_iff_getElem.1 hi
  obtain ⟨_, huuid', -⟩ := Array.findIdx?_eq_some_iff_getElem.1 hj
  exact hne ((beq_iff_eq.1 huuid).symm.trans (beq_iff_eq.1 huuid'))

/-- In another order the animators give all nodes the same keys, and the same is told about them. -/
theorem assignChannels_of_perm (h : animators.Perm animators')
    (hnodup : (animators.map (·.node)).Nodup)
    (hassign : assignChannels rig a channels animators = .ok (channels', remarks)) :
    ∃ remarks', assignChannels rig a channels animators' = .ok (channels', remarks') ∧
      remarks.Perm remarks' := by
  induction h generalizing channels remarks with
  | nil => exact ⟨remarks, hassign, .refl _⟩
  | cons animator _ ih =>
    obtain ⟨i, later, hi, hrest, rfl⟩ := assignChannels_cons_ok_iff.1 hassign
    obtain ⟨later', hrest', hperm⟩ := ih (List.nodup_cons.1 hnodup).2 hrest
    exact ⟨_, assignChannels_cons_ok_iff.2 ⟨i, later', hi, hrest', rfl⟩, hperm.append_left _⟩
  | swap first second others =>
    obtain ⟨i, later, hi, hrest, rfl⟩ := assignChannels_cons_ok_iff.1 hassign
    obtain ⟨j, last, hj, hothers, rfl⟩ := assignChannels_cons_ok_iff.1 hrest
    have hne : second.node ≠ first.node := fun heq =>
      (List.nodup_cons.1 hnodup).1 (List.mem_cons.2 (.inl heq))
    rw [Array.setIfInBounds_comm _ _ (indexOf?_ne hi hj hne)] at hothers
    refine ⟨_, assignChannels_cons_ok_iff.2
      ⟨j, _, hj, assignChannels_cons_ok_iff.2 ⟨i, last, hi, hothers, rfl⟩, rfl⟩, ?_⟩
    rw [← List.append_assoc, ← List.append_assoc]
    exact List.perm_append_comm.append_right _
  | trans hfirst _ ih ih' =>
    obtain ⟨remarks', hassign', hperm⟩ := ih hnodup hassign
    obtain ⟨remarks'', hassign'', hperm'⟩ := ih' ((hfirst.map _).nodup_iff.1 hnodup) hassign'
    exact ⟨remarks'', hassign'', hperm.trans hperm'⟩

variable {names : ClipNames} {clip : Clip}

/-- With its animators in another order an animation gives the same clip. -/
theorem exists_sample_of_perm (h : animators.Perm a.animators)
    (hsample : sample rig a config names = .ok (clip, remarks)) :
    ∃ remarks', sample rig (a.withAnimators animators) config names = .ok (clip, remarks') ∧
      remarks.Perm remarks' := by
  unfold sample at hsample
  obtain ⟨_, hcheck, hsample⟩ := exists_of_bind_ok hsample
  obtain ⟨⟨channels, w1⟩, hassign, hsample⟩ := exists_of_bind_ok hsample
  obtain ⟨rest, hrest, hsample⟩ := exists_of_bind_ok hsample
  obtain ⟨r, hrun, hsample⟩ := exists_of_bind_ok hsample
  cases hsample
  obtain ⟨w1', hassign', hperm⟩ :=
    assignChannels_of_perm h.symm (hasTimelines_of_check hcheck).nodup hassign
  have hcheck' := (check_withAnimators_ok_iff h).2 hcheck
  refine ⟨_, ?_, ((hperm.append_right _).append_right _).append_right _⟩
  have hassign' : assignChannels rig (a.withAnimators animators) (Array.replicate rig.size {})
      (a.withAnimators animators).animators = .ok (channels, w1') :=
    (assignChannels_withAnimators _ _).trans hassign'
  have hrun' : sampleFrom rig (a.withAnimators animators) config a.duration 0 _ = .ok r :=
    (sampleFrom_withAnimators _ _ _).trans hrun
  unfold sample
  rw [hcheck', hassign', hrest]
  change (sampleFrom rig (a.withAnimators animators) config a.duration 0 _ >>= _) = _
  rw [hrun']
  rfl

/-- The order of animators does not matter: whatever order the animators of an animation are brought
into, it is sampled if and only if it is sampled as it is.  The clips are the same then, and so are
the remarks but for their order. -/
theorem sample_of_perm (rig : Rig) (a : Animation) (config : Config) (names : ClipNames)
    {animators : List Animator} (h : animators.Perm a.animators) :
    ((∃ result, sample rig (a.withAnimators animators) config names = .ok result) ↔
        ∃ result, sample rig a config names = .ok result) ∧
      Ensures (sample rig (a.withAnimators animators) config names) fun (clip', remarks') =>
        Ensures (sample rig a config names) fun (clip, remarks) =>
          clip' = clip ∧ remarks'.Perm remarks := by
  constructor
  · constructor
    · rintro ⟨⟨clip, remarks⟩, hsample⟩
      -- the animation as it is has the animators of the other one in another order
      obtain ⟨remarks', hsample', -⟩ :=
        exists_sample_of_perm (a := a.withAnimators animators) h.symm hsample
      exact ⟨_, hsample'⟩
    · rintro ⟨⟨clip, remarks⟩, hsample⟩
      obtain ⟨remarks', hsample', -⟩ := exists_sample_of_perm h hsample
      exact ⟨_, hsample'⟩
  · refine Ensures.intro fun result' hresult' => Ensures.intro ?_
    rintro ⟨clip, remarks⟩ hsample
    obtain ⟨remarks', hsample', hperm⟩ := exists_sample_of_perm h hsample
    obtain rfl := Except.ok.inj (hsample'.symm.trans hresult')
    exact ⟨rfl, hperm.symm⟩

/-- A rig of two locators. -/
def posts : Rig :=
  ⟨"posts", #[⟨⟨⟨1⟩, "left", none, .locator false, {}⟩, "left", none⟩,
    ⟨⟨⟨2⟩, "right", none, .locator false, {}⟩, "right", none⟩], []⟩

/-- Both locators have commands, and commands after the end. -/
def flares : Animation where
  name := "flares"
  length := 0.05
  animators := [{
    node := ⟨1⟩
    commands := [⟨0, ["say left"], none, false, 0⟩, ⟨1, ["say late"], none, false, 0⟩] }, {
    node := ⟨2⟩
    commands := [⟨0, ["say right"], none, false, 0⟩, ⟨1, ["say late"], none, false, 0⟩] }]

/-- The locators may come in any order; it is the remarks that change places. -/
theorem sample_of_perm_flares :
    flares.animators.reverse.Perm flares.animators ∧
      (∃ result, sample posts flares {} (.ofName flares.name) = .ok result) ∧
      ((∃ result, sample posts (flares.withAnimators flares.animators.reverse) {}
          (.ofName flares.name) = .ok result) ↔
        ∃ result, sample posts flares {} (.ofName flares.name) = .ok result) ∧
      Ensures (sample posts (flares.withAnimators flares.animators.reverse) {}
        (.ofName flares.name))
        fun (clip', remarks') =>
          Ensures (sample posts flares {} (.ofName flares.name)) fun (clip, remarks) =>
            clip' = clip ∧ remarks'.Perm remarks := by
  have hperm : flares.animators.reverse.Perm flares.animators := List.reverse_perm _
  have hsampled : (sample posts flares {} (.ofName flares.name)).toOption.any
      (fun p => p.1.frames.length == 1 && p.2.length == 2) = true := by decide +kernel
  obtain ⟨result, hresult, -⟩ := exists_ok_of_any hsampled
  exact ⟨hperm, ⟨result, hresult⟩, sample_of_perm posts flares {} (.ofName flares.name) hperm⟩

end Marionette
