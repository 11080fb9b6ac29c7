import Marionette.Functions.Basic

/-!
# Functions that control playback

The state of an animation on a root is stopped (no playing tag, local time zero), playing (tagged,
no tween), tweening (tagged, local time frozen while the tween runs), or held (no tag, local time at
the last frame).

- `Stage.controlFunctions`: the controls of an animation.
-/

namespace Marionette

namespace Stage

variable (s : Stage)

/-- Applies the first frame. -/
def applyFirst (paths : ClipPaths) : List Command :=
  [setOwn s.names.frame 0, .function paths.dispatch]

/-- Applies the latest frame up to the local time. -/
def seekCurrent (paths : ClipPaths) (localTime : String) : List Command :=
  [copyOwn s.names.frame localTime, .function paths.seek]

/-- Starts a tween of the requested length or else of the default length. -/
def tweenSetup : List Command :=
  let v := s.names
  [setOwn v.tween (Int32.ofNat s.config.tweenDuration),
    .execute [ifOwn v.tweenRequest (.atLeast 1)] (copyOwn v.tween v.tweenRequest),
    .scoreReset .this (some v.tweenRequest),
    copyOwn v.interp v.tween,
    s.sync]

/-- Plays from the start, without blending into the first frame. -/
def playBody (paths : ClipPaths) (localTime playing : String) : List Command :=
  let v := s.names
  -- the nodes are told twice: not to blend into the first frame, and then to blend into the others
  [setOwn localTime 0, setOwn v.tween 0, setOwn v.interp 0, s.sync] ++ s.applyFirst paths ++
    [setOwn v.interp s.defaultInterp, s.sync, .tagAdd .this playing]

/-- Advances by a tick and applies the frame of that tick. -/
def advanceBody (paths : ClipPaths) (localTime playing : String) (duration : Int32) :
    List Command :=
  let v := s.names
  let isPlaying := Clause.ifEntity (Selector.this.tagged playing)
  -- the end may stop the animation, which is why the tag is tested after it
  [.scoreAdd .this localTime 1,
    .execute [ifOwn localTime (.atLeast duration)] (.function (paths.control "end")),
    .execute [isPlaying] (copyOwn v.frame localTime),
    .execute [isPlaying] (.function paths.dispatch)]

/-- Starts again, stops or holds, as the loop mode says. -/
def endBody (paths : ClipPaths) (localTime loopMode : String) (duration loopDelay : Int32) :
    List Command :=
  -- an animation without ticks has a last one as well
  let lastTick := (if duration < 1 then 1 else duration) - 1
  let mode (score : Int32) := ifOwn loopMode (.exact score)
  [.execute [mode 0, ifOwn localTime (.atLeast (duration + loopDelay))] (setOwn localTime 0),
    .execute [mode 0, ifOwn localTime (.exact 0)] s.sync,
    .execute [mode 1] (.function (paths.control "stop")),
    .execute [mode 2] (setOwn localTime lastTick),
    .execute [mode 2] (.function (paths.control "pause"))]

/-- The controls of an animation. -/
def controlFunctions (paths : ClipPaths) (clip : Clip) : List GeneratedFunction :=
  let v := s.names
  let localTime := v.localTime clip.storageName
  let playing := v.playingTag clip.storageName
  let loopMode := v.loopMode clip.storageName
  let duration := Int32.ofNat clip.duration
  let start := Command.tagAdd .this playing
  let halt := Command.tagRemove .this playing
  [(paths.control "play", s.playBody paths localTime playing),
    (paths.control "resume", [start, setOwn v.interp s.defaultInterp, s.sync]),
    (paths.control "pause", [halt]),
    (paths.control "stop",
      [setOwn localTime 0, setOwn v.tween 0] ++ s.suppressed (s.applyFirst paths) ++ [halt]),
    (paths.control "tween_play",
      [setOwn localTime 0] ++ s.tweenSetup ++ s.suppressed (s.applyFirst paths) ++ [start]),
    (paths.control "tween_resume",
      s.tweenSetup ++ s.suppressed (s.seekCurrent paths localTime) ++ [start]),
    (paths.control "tick",
      [.execute [.unlessScore .this v.tween (.atLeast 1)] (.function (paths.control "advance"))]),
    (paths.control "advance", s.advanceBody paths localTime playing duration),
    (paths.control "end",
      s.endBody paths localTime loopMode duration (Int32.ofNat clip.loopDelay)),
    (paths.control "apply_frame", [copyOwn v.frame localTime, .function paths.dispatch]),
    (paths.control "set_frame", s.suppressed (s.seekCurrent paths localTime))]

end Stage

end Marionette
