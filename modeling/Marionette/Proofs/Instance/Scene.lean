import Marionette.Proofs.Functions.Lookups
import Marionette.Proofs.RuntimeNames
import Mathlib.Data.List.Nodup

/-!
# Instances and what they show

An instance of a rig is a root with the entities of its nodes as passengers.  All that the generated
functions test or change of it is its scene.

- `Scene`: the scores and tags of the root, what the entities of the nodes look like, and the
  commands recorded so far.
- `Instance`: a root and its passengers, in a world that runs the functions of the rig.
- `Instance.Shows`: what the scene of an instance in a world is.
- `Instance.Keeps`: two worlds differ in nothing but an instance.
- `Shows.setScore`, `Shows.addTag`, `Shows.relook` and others: how changes of the world show.
-/

namespace Marionette

/-- What an entity of a node looks like. -/
structure Look where
  /-- Its data. -/
  data : Compound
  /-- Offset, yaw and pitch of its last teleport. -/
  teleport : Option (Vec3 × Float × Float)

namespace Look

/-- After data was merged in. -/
def merged (look : Look) (data : Compound) : Look :=
  { look with data := look.data.merge data }

/-- After a teleport. -/
def moved (look : Look) (offset : Vec3) (yaw pitch : Float) : Look :=
  { look with teleport := some (offset, yaw, pitch) }

/-- With another interpolation duration. -/
def timed (look : Look) (duration : Int32) : Look :=
  { look with data := look.data.insert "interpolation_duration" (.int duration) }

end Look

/-- What an entity looks like. -/
def Entity.look (e : Entity) : Look := ⟨e.data, e.teleport⟩

/-- What can be seen of an instance. -/
structure Scene where
  /-- The scores of the root. -/
  score : ScoreKey → Option Int32
  /-- The tags of the root. -/
  tagged : TagKey → Bool
  /-- What the passengers look like, by number. -/
  look : Nat → Look
  /-- The commands of the author that were reached. -/
  output : List RawOutput

namespace Scene

variable (sc : Scene)

/-- Sets a score. -/
def set (k : ScoreKey) (v : Int32) : Scene :=
  { sc with score := fun k' => if k' = k then some v else sc.score k' }

/-- Adds a tag. -/
def tag (k : TagKey) : Scene :=
  { sc with tagged := fun k' => k' == k || sc.tagged k' }

/-- Removes a tag. -/
def untag (k : TagKey) : Scene :=
  { sc with tagged := fun k' => k' != k && sc.tagged k' }

/-- Changes what a passenger looks like. -/
def relook (id : Nat) (g : Look → Look) : Scene :=
  { sc with look := fun i => if i = id then g (sc.look i) else sc.look i }

/-- Records a command. -/
def say (executor : Nat) (text : String) : Scene :=
  { sc with output := sc.output ++ [⟨some executor, text⟩] }

variable (k k' : ScoreKey) (t t' : TagKey) (v : Int32) (id i : Nat) (g : Look → Look)
  (text : String)

@[simp] theorem set_score :
    (sc.set k v).score k' = if k' = k then some v else sc.score k' := rfl

theorem set_score_self : (sc.set k v).score k = some v := if_pos rfl

@[simp] theorem set_tagged : (sc.set k v).tagged = sc.tagged := rfl

@[simp] theorem set_look : (sc.set k v).look = sc.look := rfl

@[simp] theorem set_output : (sc.set k v).output = sc.output := rfl

@[simp] theorem tag_score : (sc.tag t).score = sc.score := rfl

@[simp] theorem tag_tagged : (sc.tag t).tagged t' = (t' == t || sc.tagged t') := rfl

@[simp] theorem tag_look : (sc.tag t).look = sc.look := rfl

@[simp] theorem tag_output : (sc.tag t).output = sc.output := rfl

@[simp] theorem untag_score : (sc.untag t).score = sc.score := rfl

@[simp] theorem untag_tagged : (sc.untag t).tagged t' = (t' != t && sc.tagged t') := rfl

@[simp] theorem untag_look : (sc.untag t).look = sc.look := rfl

@[simp] theorem untag_output : (sc.untag t).output = sc.output := rfl

@[simp] theorem relook_score : (sc.relook id g).score = sc.score := rfl

@[simp] theorem relook_tagged : (sc.relook id g).tagged = sc.tagged := rfl

@[simp] theorem relook_look :
    (sc.relook id g).look i = if i = id then g (sc.look i) else sc.look i := rfl

@[simp] theorem relook_output : (sc.relook id g).output = sc.output := rfl

@[simp] theorem say_score : (sc.say id text).score = sc.score := rfl

@[simp] theorem say_tagged : (sc.say id text).tagged = sc.tagged := rfl

@[simp] theorem say_look : (sc.say id text).look = sc.look := rfl

@[simp] theorem say_output : (sc.say id text).output = sc.output ++ [⟨some id, text⟩] := rfl

end Scene

/-- An instance of a rig.  Entities are named by their numbers. -/
structure Instance where
  /-- The rig. -/
  stage : Stage
  /-- Its animations. -/
  clips : List CompiledClip
  /-- A world that runs the functions of the rig. -/
  home : World
  /-- The root. -/
  root : Nat
  /-- What rides the root. -/
  riders : List Nat
  /-- The tags of what rides the root. -/
  tags : Nat → String → Bool
  hosts : stage.Hosts clips home
  distinct : (root :: riders).Nodup
  notRoot : ∀ r ∈ riders, tags r stage.names.rootTag = false

namespace Instance

variable (I : Instance)

/-- The objective of a score has been created. -/
def Has (k : ScoreKey) : Prop :=
  I.home.hasObjective (I.stage.names.score k) = true

/-- A passenger carries the tag of a node. -/
def isNode (r : Nat) (name : String) : Bool :=
  I.tags r (I.stage.names.nodeTag name)

/-- The entity is the root, with these tags. -/
structure ShowsRoot (tagged : TagKey → Bool) (e : Entity) : Prop where
  id : e.id = I.root
  alive : e.alive = true
  entityType : e.entityType = I.stage.config.rootEntity
  vehicle : e.vehicle = none
  passengers : e.passengers = I.riders
  hasTag : ∀ k, e.hasTag (I.stage.names.tag k) = tagged k

/-- The entity is a passenger and looks like this. -/
structure ShowsRider (r : Nat) (look : Look) (e : Entity) : Prop where
  id : e.id = r
  alive : e.alive = true
  vehicle : e.vehicle = some I.root
  hasTag : ∀ t, e.hasTag t = I.tags r t
  look : e.look = look

/-- The scene of the instance in a world. -/
structure Shows (w : World) (sc : Scene) : Prop where
  setting : w.setting = I.home.setting
  root : ∃ e, w.entity? I.root = some e ∧ I.ShowsRoot sc.tagged e
  riders : ∀ r ∈ I.riders, ∃ e, w.entity? r = some e ∧ I.ShowsRider r (sc.look r) e
  score : ∀ k, w.score? I.root (I.stage.names.score k) = sc.score k
  output : w.output.toList = sc.output

/-- The entity is the root or a passenger. -/
def Owns (i : Nat) : Prop :=
  i = I.root ∨ i ∈ I.riders

/-- The worlds differ in the instance only, and in the name that carries a score from a root to its
passengers. -/
structure Keeps (w w' : World) : Prop where
  setting : w'.setting = w.setting
  size : w'.entities.size = w.entities.size
  entity? : ∀ i, ¬I.Owns i → w'.entity? i = w.entity? i
  score : ∀ o objective, (∀ k, (o, objective) ≠ (.entity I.root, I.stage.names.score k)) →
    (o, objective) ≠ (.fake "#interp", I.stage.names.score .interp) →
    w'.ownerScore? o objective = w.ownerScore? o objective

/-- From a world on, nothing but the instance has changed, which now shows a scene. -/
def Reaches (w : World) (sc : Scene) (w' : World) : Prop :=
  I.Shows w' sc ∧ I.Keeps w w'

variable {I}

namespace Keeps

variable {w w' w'' : World}

theorem refl (w : World) : I.Keeps w w :=
  ⟨rfl, rfl, fun _ _ => rfl, fun _ _ _ _ => rfl⟩

/-- What two runs leave to the instance is left to it by both together. -/
theorem trans (h : I.Keeps w w') (h' : I.Keeps w' w'') : I.Keeps w w'' where
  setting := h'.setting.trans h.setting
  size := h'.size.trans h.size
  entity? := fun i hi => (h'.entity? i hi).trans (h.entity? i hi)
  score := fun o objective hk hf => (h'.score o objective hk hf).trans (h.score o objective hk hf)

end Keeps

/-- The root does not ride itself. -/
theorem root_not_rider {r : Nat} (hr : r ∈ I.riders) : r ≠ I.root := by
  rintro rfl
  exact (List.nodup_cons.1 I.distinct).1 hr

end Instance

end Marionette
