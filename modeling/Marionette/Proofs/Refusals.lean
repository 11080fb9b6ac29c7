import Marionette.Proofs.Results
import Marionette.Sampling

/-!
# What is refused, and why

Settings are refused only for reasons about settings, and animations only for reasons about
animations.

- `Config.refuses_check`: settings that are refused.
- `Animation.refuses_check`: an animation that is refused before it is read.
- `refuses_restPoses`, `refuses_sample`: a rig or an animation that is refused while it is read.
-/

namespace Marionette

/-- The reason is about a part of the work. -/
def BakeError.IsAbout (part : String) (e : BakeError) : Prop := e.category = part

/-- Whatever is wrong with settings, the reason is about settings. -/
theorem Config.refuses_check (c : Config) : FailsOnly (BakeError.IsAbout "config") c.check := by
  have hoffset : FailsOnly (BakeError.IsAbout "config") c.checkJumpOffset := by
    unfold checkJumpOffset
    split
    · exact rfl
    · exact .ok ()
  have hnamespace : FailsOnly (BakeError.IsAbout "config") c.checkNamespace := by
    unfold checkNamespace
    split
    · exact .ok ()
    · exact .branch rfl (.ok ())
  have hmanifest : FailsOnly (BakeError.IsAbout "config") c.checkManifestName :=
    .branch rfl (.ok ())
  unfold check
  refine hoffset.bind fun _ _ => .branch rfl (.branch rfl ?_)
  exact hnamespace.bind fun _ _ => hmanifest

namespace Animation

variable (a : Animation)

/-- A reason about an animation. -/
abbrev Refuses {α : Type} (x : Except BakeError α) : Prop :=
  FailsOnly (BakeError.IsAbout "animation") x

/-- Bad times of keys are a reason about the animation. -/
theorem refuses_checkTimes (node : Option Uuid) (channel : String) (times : List Float) :
    Refuses (a.checkTimes node channel times) := by
  unfold checkTimes
  generalize (0 : Float) = last
  induction times generalizing last with
  | nil => exact .ok ()
  | cons time times ih =>
    rw [checkTimesFrom]
    exact .branch rfl (.branch rfl (ih time))

/-- So are bad values. -/
theorem refuses_checkValues (node : Uuid) (channel : String) (keys : List TransformKey) :
    Refuses (a.checkValues node channel keys) := by
  unfold checkValues
  split
  · exact .ok ()
  · exact rfl

/-- So are commands or conditions of several lines. -/
theorem refuses_checkLines (node : Option Uuid) (commands : List String)
    (condition : Option String) : Refuses (a.checkLines node commands condition) := by
  unfold checkLines
  split
  · exact .ok ()
  · exact rfl

/-- A channel is refused for its times or values. -/
theorem refuses_checkChannel (node : Uuid) (channel : String) (keys : List TransformKey) :
    Refuses (a.checkChannel node channel keys) :=
  (a.refuses_checkTimes _ _ _).bind fun _ _ => a.refuses_checkValues _ _ _

/-- An animator is refused for its channels or its lines. -/
theorem refuses_checkAnimator (animator : Animator) : Refuses (a.checkAnimator animator) :=
  (a.refuses_checkChannel _ _ _).bind fun _ _ =>
    (a.refuses_checkChannel _ _ _).bind fun _ _ =>
      (a.refuses_checkChannel _ _ _).bind fun _ _ =>
        (a.refuses_checkTimes _ _ _).bind fun _ _ => .forM fun _ _ => a.refuses_checkLines _ _ _

/-- Animators are refused one by one, and where a node has two of them. -/
theorem refuses_checkAnimators (seen : List Uuid) (animators : List Animator) :
    Refuses (a.checkAnimators seen animators) := by
  induction animators generalizing seen with
  | nil => exact .ok ()
  | cons animator animators ih =>
    rw [checkAnimators]
    exact .branch rfl ((a.refuses_checkAnimator animator).bind fun _ _ => ih _)

/-- A length that cannot be played is a reason about the animation, too. -/
theorem refuses_checkDuration (duration : Float) : Refuses (a.checkDuration duration) := by
  unfold checkDuration
  split
  · exact .ok ()
  · exact rfl

/-- An animation is refused only for reasons about animations. -/
theorem refuses_check : Refuses a.check :=
  (a.refuses_checkDuration _).bind fun _ _ =>
    (a.refuses_checkDuration _).bind fun _ _ =>
      (a.refuses_checkAnimators _ _).bind fun _ _ =>
        (a.refuses_checkTimes _ _ _).bind fun _ _ =>
          (a.refuses_checkTimes _ _ _).bind fun _ _ =>
            (FailsOnly.forM fun _ _ => a.refuses_checkLines _ _ _).bind fun _ _ =>
              .forM fun _ _ => a.refuses_checkLines _ _ _

end Animation

open Animation (Refuses)

variable {rig : Rig} {a : Animation} {config : Config}

/-- A rig that cannot be posed at rest is refused for a degenerate matrix. -/
theorem refuses_restPoses : Refuses (restPoses rig config) := by
  refine .mapM fun p _ => ?_
  split
  split
  · exact .ok _
  · exact rfl

/-- Channels are refused where their node is not in the rig. -/
theorem refuses_assignChannels (channels : Array Channels) (animators : List Animator) :
    Refuses (assignChannels rig a channels animators) := by
  induction animators generalizing channels with
  | nil => exact .ok _
  | cons animator animators ih =>
    rw [assignChannels]
    split
    · exact rfl
    · exact (ih _).bind fun _ _ => .ok _

/-- A tick of a node is refused for a degenerate matrix. -/
theorem refuses_sampleNode (precision : Float) (tick : Nat) (track : Track) (marker : Marker)
    (world : Mat4) : Refuses (sampleNode a precision tick track marker world) := by
  unfold sampleNode
  dsimp only
  split
  · exact .branch (.ok _) (.ok _)
  · exact rfl

/-- A tick of all nodes is refused for one of them. -/
theorem refuses_sampleNodes (precision : Float) (tick : Nat)
    (items : List (Track × Marker × Mat4)) :
    Refuses (sampleNodes a precision tick items) := by
  induction items with
  | nil => exact .ok _
  | cons item items ih =>
    obtain ⟨track, marker, world⟩ := item
    rw [sampleNodes]
    exact (refuses_sampleNode precision tick track marker world).bind fun _ _ =>
      ih.bind fun _ _ => .ok _

/-- The ticks are refused for one of them. -/
theorem refuses_sampleFrom (count tick : Nat) (r : Recording) :
    Refuses (sampleFrom rig a config count tick r) := by
  induction count generalizing tick r with
  | zero => exact .ok _
  | succ count ih =>
    rw [sampleFrom]
    refine FailsOnly.bind ?_ fun _ _ => ih _ _
    exact (refuses_sampleNodes _ _ _).bind fun _ _ => .ok _

/-- An animation stops being read only for reasons about animations. -/
theorem refuses_sample (names : ClipNames) : Refuses (sample rig a config names) :=
  a.refuses_check.bind fun _ _ =>
    (refuses_assignChannels _ _).bind fun _ _ =>
      refuses_restPoses.bind fun _ _ => (refuses_sampleFrom _ _ _).bind fun _ _ => .ok _

end Marionette
