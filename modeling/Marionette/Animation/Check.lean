import Marionette.Animation.Basic
import Marionette.Error
import Marionette.Text.Quoted

/-!
# Animations that can be played

- `Animation.check`: refuses lengths and times that are not finite, negative or too long, values
  that are not finite, channels that are not sorted, nodes that are animated twice, and command
  texts that would not stay on one line.
-/

namespace Marionette

namespace Animation

/-- The longest length in ticks: counters are signed scores of 32 bits. -/
def maxTicks : Int := 2147483647

/-- A length or a delay that counters can hold. -/
def isPlayable (duration : Float) : Bool :=
  duration.isFinite && !(duration < 0) && secondsToTick duration ≤ maxTicks

/-- A key that cannot be played. -/
def keyError (a : Animation) (node : Option Uuid) (reason : String) : BakeError :=
  .invalidKeyframe a.name node reason

/-- Times have to be finite, not negative, and in order; `last` is the time before them. -/
def checkTimesFrom (a : Animation) (node : Option Uuid) (channel : String) (last : Float) :
    List Float → Except BakeError Unit
  | [] => .ok ()
  | time :: times =>
    let shown := Decimal.doubleText time
    if !time.isFinite || time < 0 then
      .error (a.keyError node s!"{channel} key time {shown} must be finite and non-negative")
    else if time < last then
      let before := Decimal.doubleText last
      .error (a.keyError node s!"{channel} keys must be sorted by time ({shown} after {before})")
    else checkTimesFrom a node channel time times

/-- Times have to be finite, not negative, and in order. -/
def checkTimes (a : Animation) (node : Option Uuid) (channel : String) (times : List Float) :
    Except BakeError Unit :=
  a.checkTimesFrom node channel 0 times

/-- The values of a channel have to be finite. -/
def checkValues (a : Animation) (node : Uuid) (channel : String) (keys : List TransformKey) :
    Except BakeError Unit :=
  match keys.find? fun k => !k.value.isFinite with
  | none => .ok ()
  | some k =>
    let shown := Decimal.doubleText k.time
    .error (a.keyError (some node) s!"{channel} key at {shown}s has a non-finite value")

/-- A text that is not on one line. -/
def breaksLine (text : String) : Bool :=
  text.toList.any fun c => c == '\n' || c == '\r'

/-- Commands and conditions have to stay on one line. -/
def checkLines (a : Animation) (node : Option Uuid) (commands : List String)
    (condition : Option String) : Except BakeError Unit :=
  match (commands ++ condition.toList).find? breaksLine with
  | none => .ok ()
  | some text =>
    let shown := Text.quoted text
    .error (a.keyError node s!"command text {shown} spans more than one line")

/-- One channel of transform keys. -/
def checkChannel (a : Animation) (node : Uuid) (channel : String) (keys : List TransformKey) :
    Except BakeError Unit := do
  a.checkTimes (some node) channel (keys.map (·.time))
  a.checkValues node channel keys

/-- The keys of one node. -/
def checkAnimator (a : Animation) (animator : Animator) : Except BakeError Unit := do
  a.checkChannel animator.node "position" animator.position
  a.checkChannel animator.node "rotation" animator.rotation
  a.checkChannel animator.node "scale" animator.scale
  a.checkTimes (some animator.node) "commands" (animator.commands.map (·.time))
  animator.commands.forM fun k => a.checkLines (some animator.node) k.commands k.condition

/-- The keys of all nodes; `seen` are the nodes before them. -/
def checkAnimators (a : Animation) (seen : List Uuid) : List Animator → Except BakeError Unit
  | [] => .ok ()
  | animator :: rest => do
    if animator.node ∈ seen then .error (a.keyError (some animator.node) "node is animated twice")
    a.checkAnimator animator
    checkAnimators a (animator.node :: seen) rest

/-- A length or a delay. -/
def checkDuration (a : Animation) (duration : Float) : Except BakeError Unit :=
  if isPlayable duration then .ok () else .error (.invalidDuration a.name duration)

/-- Refuses an animation that cannot be played, for the first reason in the order of its parts. -/
def check (a : Animation) : Except BakeError Unit := do
  a.checkDuration a.length
  a.checkDuration a.loopDelay
  a.checkAnimators [] a.animators
  a.checkTimes none "variant" (a.variantKeys.map (·.time))
  a.checkTimes none "commands" (a.commandKeys.map (·.time))
  a.variantKeys.forM fun k => a.checkLines none [] k.condition
  a.commandKeys.forM fun k => a.checkLines none k.commands k.condition

end Animation

end Marionette
