import Marionette.Command.Basic

/-!
# Names of the playback state

The state of an instance lives in scores and tags of its entities.  All their names start with the
name space of the rig, so that several rigs can live side by side.

- `RuntimeNames`: the names of a name space.
- `interpHolder`: the name that carries a score from the root to its passengers.
-/

namespace Marionette

/-- Carries a score from the root to its passengers. -/
def interpHolder : Holder := .fake "#interp"

/-- The names of a name space. -/
structure RuntimeNames where
  /-- The name space. -/
  namespaceName : String
deriving Repr, DecidableEq

namespace RuntimeNames

variable (v : RuntimeNames)

/-- A name within the name space. -/
def name (rest : String) : String := v.namespaceName ++ "." ++ rest

/-- Score that the dispatch tree looks at. -/
def frame : String := v.name "frame"

/-- Playback position of an animation in ticks. -/
def localTime (animation : String) : String := v.name (animation ++ ".local_time")

/-- Loop mode of an animation. -/
def loopMode (animation : String) : String := v.name (animation ++ ".loop_mode")

/-- Ticks of a tween that are left. -/
def tween : String := v.name "tween"

/-- Ticks that the caller asks for the next tween. -/
def tweenRequest : String := v.name "tween_request"

/-- Interpolation duration that the display entities get. -/
def interp : String := v.name "interp"

/-- Ticks since an instance was summoned. -/
def lifetime : String := v.name "lifetime"

/-- Tag of a root on which an animation is advancing. -/
def playingTag (animation : String) : String := v.name (animation ++ ".playing")

/-- Tag of a root for which frames only change poses. -/
def suppressTag : String := v.name "suppress_effects"

/-- Tag of every root. -/
def rootTag : String := v.name "root"

/-- Tag of a root whose scores are not set yet. -/
def newTag : String := v.name "new"

/-- Tag of the entity of a node. -/
def nodeTag (node : String) : String := v.name ("node." ++ node)

/-- Tag of the entities of all nodes. -/
def anyNodeTag : String := v.name "node"

/-- The objectives of an instance, each with what it is for. -/
def instanceObjectives : List (String × String) :=
  [(v.frame, "frame index the dispatch tree is evaluated against"),
    (v.tween, "remaining tween ticks; animations do not advance while > 0"),
    (v.tweenRequest, "tween length for the next tween_play/tween_resume"),
    (v.interp, "interpolation duration synced to node entities"),
    (v.lifetime, "ticks since summon")]

/-- The objectives of an animation, each with what it is for. -/
def animationObjectives (animation : String) : List (String × String) :=
  [(v.localTime animation, "playback position in ticks"),
    (v.loopMode animation, "0 loop, 1 once, 2 hold")]

end RuntimeNames

end Marionette
