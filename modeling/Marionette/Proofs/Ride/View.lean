import Marionette.Proofs.Instance.Places
import Marionette.Proofs.Safety
import Marionette.Proofs.World.Home

/-!
# One passenger of a root

In a world in which callers have done what they like, a root may have lost passengers, and others
may carry tags that they were never given.  What becomes of a single passenger still depends only on
that passenger and on its root.

- `View`: the scores and tags of a root, and where one of its passengers is.
- `World.IsBody`: the passenger is the entity of a node.
- `Ride`: the entity of a node of a rig and the root that carries it; `Ride.Shows`: its view in a
  world.
- `Shows.looks`, `Shows.setScore`, `Shows.retag`: how changes of the world show.
-/

namespace Marionette

/-- What is seen of a root and of one of its passengers. -/
structure View where
  /-- The scores of the root. -/
  score : ScoreKey → Option Int32
  /-- The tags of the root. -/
  tagged : TagKey → Bool
  /-- Where the passenger is. -/
  place : Place

namespace View

variable (v : View)

/-- Sets a score. -/
def set (k : ScoreKey) (x : Int32) : View :=
  { v with score := fun k' => if k' = k then some x else v.score k' }

/-- Adds a tag. -/
def tag (k : TagKey) : View :=
  { v with tagged := fun k' => k' == k || v.tagged k' }

/-- Removes a tag. -/
def untag (k : TagKey) : View :=
  { v with tagged := fun k' => k' != k && v.tagged k' }

/-- Brings the passenger somewhere. -/
def move (place : Place) : View :=
  { v with place := place }

variable (k k' : ScoreKey) (t t' : TagKey) (x : Int32) (place : Place)

@[simp] theorem set_score : (v.set k x).score k' = if k' = k then some x else v.score k' := rfl

@[simp] theorem set_tagged : (v.set k x).tagged = v.tagged := rfl

@[simp] theorem set_place : (v.set k x).place = v.place := rfl

@[simp] theorem tag_score : (v.tag t).score = v.score := rfl

@[simp] theorem tag_tagged : (v.tag t).tagged t' = (t' == t || v.tagged t') := rfl

@[simp] theorem tag_place : (v.tag t).place = v.place := rfl

@[simp] theorem untag_score : (v.untag t).score = v.score := rfl

@[simp] theorem untag_tagged : (v.untag t).tagged t' = (t' != t && v.tagged t') := rfl

@[simp] theorem untag_place : (v.untag t).place = v.place := rfl

@[simp] theorem move_score : (v.move place).score = v.score := rfl

@[simp] theorem move_tagged : (v.move place).tagged = v.tagged := rfl

@[simp] theorem move_place : (v.move place).place = place := rfl

@[simp] theorem move_self : v.move v.place = v := rfl

variable {v t}

/-- A tag that is there already is not added again. -/
theorem tag_eq_self (h : v.tagged t = true) : v.tag t = v := by
  have htagged : ∀ k, (k == t || v.tagged k) = v.tagged k := by
    intro k
    by_cases hk : k = t
    · rw [hk, h, Bool.or_true]
    · rw [beq_false_of_ne hk, Bool.false_or]
  exact congrArg (fun tagged => { v with tagged := tagged }) (funext htagged)

/-- A tag that is not there need not be removed. -/
theorem untag_eq_self (h : v.tagged t = false) : v.untag t = v := by
  have htagged : ∀ k, (k != t && v.tagged k) = v.tagged k := by
    intro k
    by_cases hk : k = t
    · rw [hk, h, Bool.and_false]
    · rw [bne_iff_ne.2 hk, Bool.true_and]
  exact congrArg (fun tagged => { v with tagged := tagged }) (funext htagged)

end View

namespace World

/-- Where an entity is that was created. -/
def place? (w : World) (id : Nat) : Option Place :=
  (w.entity? id).map fun e => e.look.place

/-- The passenger of a root that is the entity of a node: of all nodes of the rig, it carries the
tag of this one only, and it is no root itself. -/
structure IsBody (w : World) (v : RuntimeNames) (rig : Rig) (root : Nat) (slot : Slot) (id : Nat) :
    Prop where
  rides : w.Carries root id
  hasTag : ∀ other ∈ rig.slots.toList, w.hasTag id (v.nodeTag other.storageName) =
    decide (other.storageName = slot.storageName)
  notRoot : w.hasTag id v.rootTag = false

variable {w w' : World} {id : Nat}

/-- What rides an entity is alive and listed once. -/
theorem passengers_eq (ht : Tied [] w.entities) {e : Entity} (he : w.entity? id = some e) :
    (w.passengers id).map (·.id) = e.passengers := by
  have hfound : ∀ ps : List Nat, (∀ p ∈ ps, p ∈ e.passengers) →
      (((ps.filterMap w.entity?).filter (·.alive)).map (·.id)) = ps := by
    intro ps hps
    induction ps with
    | nil => rfl
    | cons p rest ih =>
      -- who is listed has this vehicle, and what has a vehicle is alive
      have hcount := ht.listed id e he p
      have hride : w.entities[p]?.bind Entity.vehicle = some id := by
        by_contra hride
        rw [if_neg fun h => hride h.1] at hcount
        exact List.count_eq_zero.1 hcount (hps p List.mem_cons_self)
      obtain ⟨q, hq, hvehicle⟩ := Option.bind_eq_some_iff.1 hride
      have halive := (ht.mounted p q id hq hvehicle).1
      rw [List.filterMap_cons, show w.entity? p = some q from hq]
      simp only
      rw [List.filter_cons, if_pos halive, List.map_cons, ht.numbered p q hq,
        ih fun p hp => hps p (List.mem_cons_of_mem _ hp)]
  unfold passengers
  rw [he]
  exact hfound e.passengers fun _ hp => hp

/-- Nobody rides the same vehicle twice. -/
theorem nodup_passengers (ht : Tied [] w.entities) {e : Entity} (he : w.entity? id = some e) :
    e.passengers.Nodup := by
  rw [List.nodup_iff_count_le_one]
  intro p
  rw [ht.listed id e he p]
  split <;> decide

/-- What is carried by an entity has it as its vehicle. -/
theorem Carries.vehicle_eq {p : Nat} (h : w.Carries id p) (ht : Tied [] w.entities) :
    ∃ q, w.entity? p = some q ∧ q.vehicle = some id ∧ q.alive = true := by
  obtain ⟨e, he, hmem⟩ := h
  have hcount := ht.listed id e he p
  by_cases hride : w.entities[p]?.bind Entity.vehicle = some id
  · obtain ⟨q, hq, hvehicle⟩ := Option.bind_eq_some_iff.1 hride
    exact ⟨q, hq, hvehicle, (ht.mounted p q id hq hvehicle).1⟩
  · rw [if_neg fun h => hride h.1] at hcount
    exact absurd hmem (List.count_eq_zero.1 hcount)

/-- So nothing is carried by two entities. -/
theorem Carries.unique {p v : Nat} (h : w.Carries id p) (h' : w.Carries v p)
    (ht : Tied [] w.entities) : v = id := by
  obtain ⟨q, hq, hvehicle, -⟩ := h.vehicle_eq ht
  obtain ⟨q', hq', hvehicle', -⟩ := h'.vehicle_eq ht
  obtain rfl : q = q' := Option.some.inj (hq.symm.trans hq')
  exact Option.some.inj (hvehicle'.symm.trans hvehicle)

/-- Riders are alive. -/
theorem Carries.isLiving {p : Nat} (h : w.Carries id p) (ht : Tied [] w.entities) :
    w.IsLiving p := by
  obtain ⟨q, hq, -, halive⟩ := h.vehicle_eq ht
  exact ⟨q, hq, ht.numbered p q hq, halive⟩

namespace OnlyLooks

/-- Changed looks leave the tags alone. -/
theorem hasTag (h : OnlyLooks w w') (i : Nat) (tag : String) :
    w'.hasTag i tag = w.hasTag i tag := by
  have hb := congrArg (fun o : Option Entity => o.any (·.hasTag tag)) (h.bare_entity? i)
  rwa [Option.any_map, Option.any_map] at hb

/-- And they leave the passengers where they are. -/
theorem carries (h : OnlyLooks w w') {v p : Nat} (hp : w.Carries v p) : w'.Carries v p := by
  obtain ⟨e, he, hmem⟩ := hp
  have hb := h.bare_entity? v
  rw [he] at hb
  obtain ⟨e', he', hbare⟩ := Option.map_eq_some_iff.1 hb
  have hpassengers : e'.passengers = e.passengers := (congrArg Entity.passengers hbare :)
  exact ⟨e', he', hpassengers ▸ hmem⟩

end OnlyLooks

/-- Whoever is the body of a slot remains it. -/
theorem IsBody.looks {v : RuntimeNames} {rig : Rig} {root : Nat} {slot : Slot}
    (h : w.IsBody v rig root slot id) (hlooks : OnlyLooks w w') : w'.IsBody v rig root slot id where
  rides := hlooks.carries h.rides
  hasTag other hother := (hlooks.hasTag id _).trans (h.hasTag other hother)
  notRoot := (hlooks.hasTag id _).trans h.notRoot

end World

/-- A root carries the passengers of its instance and nothing else. -/
theorem Instance.Shows.carries_iff {I : Instance} {w : World} {sc : Scene} (h : I.Shows w sc)
    (id : Nat) :
    w.Carries I.root id ↔ id ∈ I.riders := by
  obtain ⟨e, he, hroot⟩ := h.root
  constructor
  · rintro ⟨e', he', hmem⟩
    obtain rfl := Option.some.inj (he.symm.trans he')
    exact hroot.passengers ▸ hmem
  · exact fun hmem => ⟨e, he, hroot.passengers ▸ hmem⟩

/-- So it carries the entities of its nodes. -/
theorem Instance.Shows.isBody {I : Instance} {w : World} {sc : Scene} (h : I.Shows w sc)
    {r : Nat} (hr : r ∈ I.riders) {slot : Slot} (hname : I.Embodies r slot) :
    w.IsBody I.stage.names I.stage.rig I.root slot r where
  rides := (h.carries_iff r).2 hr
  hasTag other hother := (h.rider_hasTag hr _).trans (hname other hother)
  notRoot := (h.rider_hasTag hr _).trans (I.notRoot r hr)

namespace Stage

/-- A world that runs the functions of a rig and no others, where all of them can run. -/
structure RunsOnly (s : Stage) (clips : List CompiledClip) (w : World) : Prop
    extends s.Ready clips w where
  only : ∀ path body, w.functions[path]? = some body → (path, body) ∈ s.functions clips

variable {s : Stage} {clips : List CompiledClip} {w w' : World}

/-- What a change leaves, it leaves to the functions too. -/
theorem RunsOnly.changes (h : s.RunsOnly clips w) (hc : World.Changes w w') :
    s.RunsOnly clips w' := by
  refine ⟨h.toReady.changes hc, ?_⟩
  rw [hc.runsAlike.functions]
  exact h.only

/-- The entities stay tied to their vehicles. -/
theorem RunsOnly.tied (h : s.RunsOnly clips w) : Tied [] w.entities :=
  h.serves.tied

/-- The objective of every score of the rig is there. -/
theorem RunsOnly.hasObjective (h : s.RunsOnly clips w) {k : ScoreKey} (hk : k.IsAmong clips) :
    w.hasObjective (s.names.score k) = true :=
  h.serves.objectives _ ⟨k, hk, rfl⟩

end Stage

/-- The entity of a node of a rig, and the root that carries it. -/
structure Ride where
  /-- The rig. -/
  stage : Stage
  /-- Its animations. -/
  clips : List CompiledClip
  /-- The root. -/
  root : Nat
  /-- The entity of the node. -/
  rider : Nat
  /-- The node. -/
  slot : Slot
  mem : slot ∈ stage.rig.slots.toList
  nodup_names : (stage.rig.slots.toList.map (·.storageName)).Nodup
  hasEntity : slot.node.kind.hasEntity = true
  apart : root ≠ rider

namespace Ride

open World (Changes Change OnlyLooks)

/-- The entity is alive and has the type of a root. -/
structure IsRoot (R : Ride) (e : Entity) : Prop where
  id : e.id = R.root
  alive : e.alive = true
  entityType : e.entityType = R.stage.config.rootEntity

/-- The view of a ride in a world. -/
structure Shows (R : Ride) (w : World) (v : View) : Prop where
  runs : R.stage.RunsOnly R.clips w
  root : ∃ e, w.entity? R.root = some e ∧ R.IsRoot e
  body : w.IsBody R.stage.names R.stage.rig R.root R.slot R.rider
  hasTag : ∀ k, w.hasTag R.root (R.stage.names.tag k) = v.tagged k
  score : ∀ k, w.score? R.root (R.stage.names.score k) = v.score k
  place : w.place? R.rider = some v.place

variable {R : Ride} {w w' : World} {v : View} {k : ScoreKey}

namespace Shows

/-- A root that is seen is alive. -/
theorem isLiving_root (h : R.Shows w v) : w.IsLiving R.root := by
  obtain ⟨e, he, hroot⟩ := h.root
  exact ⟨e, he, hroot.id, hroot.alive⟩

/-- So is the rider. -/
theorem isLiving_rider (h : R.Shows w v) : w.IsLiving R.rider :=
  h.body.rides.isLiving h.runs.tied

/-- Of the tags of nodes, the rider has that of its own slot. -/
theorem rider_hasTag (h : R.Shows w v) {slot : Slot} (hslot : slot ∈ R.stage.rig.slots.toList) :
    w.hasTag R.rider (R.stage.names.nodeTag slot.storageName) =
      decide (slot.storageName = R.slot.storageName) :=
  h.body.hasTag slot hslot

/-- Where only looks change, the passenger is somewhere else at most. -/
theorem looks (h : R.Shows w v) (hlooks : OnlyLooks w w') (hc : Changes w w') {place : Place}
    (hplace : w'.place? R.rider = some place) : R.Shows w' (v.move place) where
  runs := h.runs.changes hc
  root := by
    obtain ⟨e, he, hroot⟩ := h.root
    have hb := hlooks.bare_entity? R.root
    rw [he] at hb
    obtain ⟨e', he', hbare⟩ := Option.map_eq_some_iff.1 hb
    refine ⟨e', he', ?_, ?_, ?_⟩
    · exact (congrArg Entity.id hbare :).trans hroot.id
    · exact (congrArg Entity.alive hbare :).trans hroot.alive
    · exact (congrArg Entity.entityType hbare :).trans hroot.entityType
  body := h.body.looks hlooks
  hasTag k := (hlooks.hasTag R.root _).trans (h.hasTag k)
  score k := (hlooks.score? R.root _).trans (h.score k)
  place := hplace

/-- A change of what an entity looks like, be it the passenger or another one. -/
theorem relook (h : R.Shows w v) {id : Nat} {f : Entity → Entity} (hbare : ∀ e, (f e).bare = e.bare)
    {place : Place} (hplace : ∀ e, e.look.place = v.place →
      (if R.rider = id then f e else e).look.place = place) :
    R.Shows (w.modifyEntity id f) (v.move place) := by
  have hchange : Change w (w.modifyEntity id f) := .alter id f fun e =>
    congrArg (fun e : Entity => { e with entityType := "", tags := [] }) (hbare e)
  refine h.looks (OnlyLooks.modifyEntity w id hbare) hchange.once ?_
  obtain ⟨e, he, hold⟩ := Option.map_eq_some_iff.1 h.place
  unfold World.place?
  rw [World.entity?_modifyEntity, he, ← hplace e hold]
  by_cases hid : R.rider = id
  · rw [if_pos hid, if_pos hid, Option.map_some, Option.map_some]
  · rw [if_neg hid, if_neg hid, Option.map_some]

/-- Recording a command. -/
theorem say (h : R.Shows w v) (line : RawOutput) :
    R.Shows { w with output := w.output.push line } v := by
  let next : World := { w with output := w.output.push line }
  have hlooks : OnlyLooks w next := ⟨rfl, rfl, rfl, rfl⟩
  have hc : Change w next := .record line
  exact h.looks hlooks hc.once h.place

/-- Setting a score of the root. -/
theorem setScore (h : R.Shows w v) (k : ScoreKey) (x : Int32) :
    R.Shows (w.setOwnerScore (.entity R.root) (R.stage.names.score k) x) (v.set k x) where
  runs := h.runs.changes (Change.score _ _ x h.isLiving_root.lives).once
  root := h.root
  body := ⟨h.body.rides, h.body.hasTag, h.body.notRoot⟩
  hasTag := h.hasTag
  score k' := by
    rw [World.score?, World.ownerScore?_setOwnerScore, View.set_score]
    by_cases hk : k' = k
    · rw [if_pos (by rw [hk]), if_pos hk]
    · rw [if_neg fun heq => hk (RuntimeNames.score_inj (Prod.mk.inj heq).2), if_neg hk]
      exact h.score k'
  place := h.place

/-- Setting the score that the passengers read. -/
theorem setCarried (h : R.Shows w v) (objective : String) (x : Int32) :
    R.Shows (w.setOwnerScore (.fake "#interp") objective x) v where
  runs := h.runs.changes (Change.score (.fake "#interp") objective x trivial).once
  root := h.root
  body := ⟨h.body.rides, h.body.hasTag, h.body.notRoot⟩
  hasTag := h.hasTag
  score k := by
    rw [World.score?, World.ownerScore?_setOwnerScore, if_neg (by simp)]
    exact h.score k
  place := h.place

/-- Changing the tags of the root. -/
theorem retag (h : R.Shows w v) {tagged : TagKey → Bool} {f : List String → List String}
    (hf : ∀ tags, (∀ k, decide (R.stage.names.tag k ∈ tags) = v.tagged k) →
      ∀ k, decide (R.stage.names.tag k ∈ f tags) = tagged k) :
    R.Shows (w.modifyEntity R.root fun e => { e with tags := f e.tags })
      { v with tagged := tagged } := by
  obtain ⟨e, he, hroot⟩ := h.root
  -- the rider is another entity than the root, so that its record is the same
  have hothers : ∀ i, i ≠ R.root →
      (w.modifyEntity R.root fun e => { e with tags := f e.tags }).entity? i = w.entity? i := by
    intro i hi
    rw [World.entity?_modifyEntity, if_neg hi]
  have hown : (w.modifyEntity R.root fun e => { e with tags := f e.tags }).entity? R.root =
      some { e with tags := f e.tags } := by
    rw [World.entity?_modifyEntity, if_pos rfl, he]
    rfl
  have hrider := hothers R.rider R.apart.symm
  have htags : ∀ k, decide (R.stage.names.tag k ∈ e.tags) = v.tagged k := by
    intro k
    have hk := h.hasTag k
    rwa [World.hasTag, he, Option.any_some] at hk
  constructor
  case runs => exact h.runs.changes (Change.alter R.root (fun e => { e with tags := f e.tags })
    fun _ => rfl).once
  case root => exact ⟨_, hown, hroot.id, hroot.alive, hroot.entityType⟩
  case body =>
    obtain ⟨carrier, hcarrier, hmem⟩ := h.body.rides
    obtain rfl : e = carrier := Option.some.inj (he.symm.trans hcarrier)
    refine ⟨⟨_, hown, hmem⟩, fun other hother => ?_, ?_⟩
    · rw [World.hasTag, hrider]
      exact h.body.hasTag other hother
    · rw [World.hasTag, hrider]
      exact h.body.notRoot
  case hasTag =>
    intro k
    rw [World.hasTag, hown, Option.any_some]
    exact hf e.tags htags k
  case score => exact h.score
  case place =>
    rw [World.place?, hrider]
    exact h.place

/-- Giving a tag to the root. -/
theorem addTag (h : R.Shows w v) (k : TagKey) :
    R.Shows (w.modifyEntity R.root fun e =>
      { e with tags := insertTag (R.stage.names.tag k) e.tags }) (v.tag k) := by
  refine h.retag fun tags htags k' => ?_
  rw [RuntimeNames.mem_insertTag_tag, htags]

/-- Taking a tag from it. -/
theorem removeTag (h : R.Shows w v) (k : TagKey) :
    R.Shows (w.modifyEntity R.root fun e =>
      { e with tags := e.tags.filter (· != R.stage.names.tag k) }) (v.untag k) := by
  refine h.retag fun tags htags k' => ?_
  rw [RuntimeNames.mem_filter_tag, htags]

end Shows

end Ride

end Marionette
