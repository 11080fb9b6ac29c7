import Marionette.Proofs.World.Commands
import Marionette.Proofs.World.Consistency
import Marionette.Proofs.World.Spawning

/-!
# A tag for what rides nothing

A tag may mark the entities that ride nothing.  It stays so as long as no command gives the tag, and
as long as it is summoned only with an entity that rides nothing.

- `World.Unmounted`: what carries the tag rides nothing.
- `EntityPlan.HasBareRiders`: what rides the planned entity does not carry the tag.
- `KeepsUnmounted.tolerates`: no other change brings the tag to what rides something.
- `GivesNo.tolerates`: what was there before gets the tag only from commands that give it.
- `CreatesNone.tolerates`: no other change than creating creates anything.
- `World.Lacks`: nothing carries the tag; `Lacks.keep`: it stays so where nothing gets the tag and
  nothing is created.
-/

namespace Marionette

/-- What rides the planned entity carries nothing itself, and not the tag either. -/
def EntityPlan.HasBareRiders (tag : String) : EntityPlan → Prop
  | .mk _ _ _ riders => ∀ p ∈ riders, p.isSingle = true ∧ ∀ id v, (p.entity id v).hasTag tag = false

namespace World

/-- What carries the tag rides nothing. -/
def Unmounted (tag : String) (w : World) : Prop :=
  ∀ i e, w.entity? i = some e → e.hasTag tag = true → e.vehicle = none

/-- The functions are the same, and what carries the tag still rides nothing. -/
structure KeepsUnmounted (tag : String) (w w' : World) : Prop where
  functions : w'.functions = w.functions
  unmounted : w.Unmounted tag → w'.Unmounted tag

namespace KeepsUnmounted

variable {tag : String} {w : World}

instance (tag : String) : IsPreorder World (KeepsUnmounted tag) where
  refl _ := ⟨rfl, id⟩
  trans _ _ _ h h' := ⟨h'.functions.trans h.functions, fun hw => h'.unmounted (h.unmounted hw)⟩

/-- An entity gets no such tag, and it does not mount anything. -/
theorem alter {id : Nat} {f : Entity → Entity} (hvehicle : ∀ e, (f e).vehicle = e.vehicle)
    (htag : ∀ e, (f e).hasTag tag = true → e.hasTag tag = true) :
    KeepsUnmounted tag w (w.modifyEntity id f) := by
  refine ⟨rfl, fun hw i e he hmarked => ?_⟩
  rw [entity?_modifyEntity] at he
  split at he
  · obtain ⟨e₀, he₀, rfl⟩ := Option.map_eq_some_iff.1 he
    exact (hvehicle e₀).trans (hw i e₀ he₀ (htag e₀ hmarked))
  · exact hw i e he hmarked

/-- A new entity rides nothing, and what rides it does not carry the tag. -/
theorem create {plan : EntityPlan} (hplan : plan.HasBareRiders tag) :
    KeepsUnmounted tag w { w with entities := (spawn w.entities none plan).1 } := by
  obtain ⟨entityType, tags, data, riders⟩ := plan
  refine ⟨rfl, fun hw i e he hmarked => ?_⟩
  have he : (spawn w.entities none (.mk entityType tags data riders)).1[i]? = some e := he
  rw [getElem?_spawn fun p hp => (hplan p hp).1] at he
  split at he
  · exact hw i e he hmarked
  · split at he
    · obtain rfl := Option.some.inj he
      rfl
    · obtain ⟨p, hp, rfl⟩ := Option.map_eq_some_iff.1 he
      rw [(hplan p (List.mem_of_getElem? hp)).2] at hmarked
      cases hmarked

/-- An entity that is removed leaves its vehicle, and what rides it stays behind. -/
theorem remove (id : Nat) : KeepsUnmounted tag w (w.kill id) := by
  refine ⟨(Change.remove id).runsAlike.functions, fun hw i e he hmarked => ?_⟩
  by_cases hgone : ∃ gone, w.entity? id = some gone ∧ gone.alive = true
  · obtain ⟨gone, hgone, halive⟩ := hgone
    rw [entity?_kill hgone halive] at he
    obtain ⟨e₀, he₀, rfl⟩ := Option.map_eq_some_iff.1 he
    have hfree : e₀.vehicle = none := hw i e₀ he₀ hmarked
    show (if i = id ∨ i ∈ gone.passengers then none else e₀.vehicle) = none
    rw [hfree, ite_self]
  · rw [kill_of_not_living hgone] at he
    exact hw i e he hmarked

/-- Whatever changes without giving the tag, what carries it rides nothing. -/
theorem tolerates {tags : String → Prop} (hother : ¬tags tag) :
    Tolerates tags (EntityPlan.HasBareRiders tag) (KeepsUnmounted tag) where
  functions h := h.functions
  declare _ _ := ⟨rfl, id⟩
  score _ _ _ _ _ := ⟨rfl, id⟩
  reset _ _ _ := ⟨rfl, id⟩
  record _ _ := ⟨rfl, id⟩
  clock _ := ⟨rfl, id⟩
  tag _ _ other hgiven := by
    refine alter (fun _ => rfl) fun e hmarked => ?_
    obtain rfl | hmem := mem_insertTag.1 (of_decide_eq_true hmarked)
    · exact absurd hgiven hother
    · exact decide_eq_true hmem
  untag _ _ other := by
    refine alter (fun _ => rfl) fun e hmarked => ?_
    exact decide_eq_true (List.mem_filter.1 (of_decide_eq_true hmarked)).1
  look _ _ f hties htags := by
    refine alter (fun e => (Entity.of_ties (hties e)).2.1) fun e hmarked => ?_
    rwa [Entity.hasTag, htags] at hmarked
  create _ _ hplan := create hplan
  remove _ id := remove id

end KeepsUnmounted

/-- The functions are the same, and no entity that was there before gets the tag. -/
structure GivesNo (tag : String) (w w' : World) : Prop where
  functions : w'.functions = w.functions
  stays : ∀ i, (w.entity? i).isSome = true → (w'.entity? i).isSome = true
  hasTag : ∀ i, (w.entity? i).isSome = true → w'.hasTag i tag = true → w.hasTag i tag = true

namespace GivesNo

variable {tag badge : String} {w : World}

instance (tag : String) : IsPreorder World (GivesNo tag) where
  refl _ := ⟨rfl, fun _ => id, fun _ _ => id⟩
  trans _ _ _ h h' := ⟨h'.functions.trans h.functions, fun i hi => h'.stays i (h.stays i hi),
    fun i hi hmarked => h.hasTag i hi (h'.hasTag i (h.stays i hi) hmarked)⟩

/-- Every entity becomes another one that has the tag only if it had it before. -/
theorem of_map {w' : World} (hfunctions : w'.functions = w.functions) {f : Nat → Entity → Entity}
    (hmap : ∀ i, w'.entity? i = (w.entity? i).map (f i))
    (hf : ∀ i e, (f i e).hasTag tag = true → e.hasTag tag = true) : GivesNo tag w w' := by
  refine ⟨hfunctions, fun i hi => ?_, fun i _ hmarked => ?_⟩
  · rwa [hmap, Option.isSome_map]
  · rw [World.hasTag, hmap, Option.any_map] at hmarked
    obtain ⟨e, he, htag⟩ := Option.any_eq_true _ _ |>.1 hmarked
    rw [World.hasTag, he, Option.any_some]
    exact hf i e htag

/-- A change that adds no tag gives none. -/
theorem alter {id : Nat} {f : Entity → Entity}
    (htag : ∀ e, (f e).hasTag tag = true → e.hasTag tag = true) :
    GivesNo tag w (w.modifyEntity id f) := by
  refine of_map (f := fun i e => if i = id then f e else e) rfl (fun i => ?_) fun i e hmarked => ?_
  · rw [entity?_modifyEntity]
    split
    · rfl
    · exact Option.map_id_apply.symm
  · split at hmarked
    · exact htag e hmarked
    · exact hmarked

/-- Who is killed keeps its tags, and nobody gets any. -/
theorem remove (id : Nat) : GivesNo tag w (w.kill id) := by
  by_cases hgone : ∃ gone, w.entity? id = some gone ∧ gone.alive = true
  · obtain ⟨gone, hgone, halive⟩ := hgone
    exact of_map (Change.remove id).runsAlike.functions (entity?_kill hgone halive)
      fun _ _ hmarked => hmarked
  · rw [kill_of_not_living hgone]
    exact Std.Refl.refl w

/-- New entities come after those that were there before. -/
theorem create {plan : EntityPlan} (hplan : plan.HasBareRiders badge) :
    GivesNo tag w { w with entities := (spawn w.entities none plan).1 } := by
  obtain ⟨entityType, tags, data, riders⟩ := plan
  have hsame : ∀ i, (w.entity? i).isSome = true →
      (spawn w.entities none (.mk entityType tags data riders)).1[i]? = w.entity? i := by
    intro i hi
    obtain ⟨e, he⟩ := Option.isSome_iff_exists.1 hi
    rw [getElem?_spawn fun p hp => (hplan p hp).1, if_pos (Array.getElem?_eq_some_iff.1 he).1]
    rfl
  refine ⟨rfl, fun i hi => ?_, fun i hi hmarked => ?_⟩
  · exact (congrArg Option.isSome (hsame i hi)).trans hi
  · exact (congrArg (Option.any fun e : Entity => e.hasTag tag) (hsame i hi)).symm.trans hmarked

/-- Whatever changes without giving the tag. -/
theorem tolerates {tags : String → Prop} (hother : ¬tags tag) :
    Tolerates tags (EntityPlan.HasBareRiders badge) (GivesNo tag) where
  functions h := h.functions
  declare _ _ := ⟨rfl, fun _ => id, fun _ _ => id⟩
  score _ _ _ _ _ := ⟨rfl, fun _ => id, fun _ _ => id⟩
  reset _ _ _ := ⟨rfl, fun _ => id, fun _ _ => id⟩
  record _ _ := ⟨rfl, fun _ => id, fun _ _ => id⟩
  clock _ := ⟨rfl, fun _ => id, fun _ _ => id⟩
  tag _ _ other hgiven := by
    refine alter fun e hmarked => ?_
    obtain rfl | hmem := mem_insertTag.1 (of_decide_eq_true hmarked)
    · exact absurd hgiven hother
    · exact decide_eq_true hmem
  untag _ _ other := alter fun e hmarked =>
    decide_eq_true (List.mem_filter.1 (of_decide_eq_true hmarked)).1
  look _ _ f _ htags := by
    refine alter fun e hmarked => ?_
    rwa [Entity.hasTag, htags] at hmarked
  create _ _ hplan := create hplan
  remove _ id := remove id

end GivesNo

/-- The functions are the same, and no entity is created. -/
structure CreatesNone (w w' : World) : Prop where
  functions : w'.functions = w.functions
  isSome : ∀ i, (w'.entity? i).isSome = (w.entity? i).isSome

namespace CreatesNone

variable {w : World}

instance : IsPreorder World CreatesNone where
  refl _ := ⟨rfl, fun _ => rfl⟩
  trans _ _ _ h h' := ⟨h'.functions.trans h.functions, fun i => (h'.isSome i).trans (h.isSome i)⟩

/-- A change of an entity creates none. -/
theorem alter (w : World) (id : Nat) (f : Entity → Entity) :
    CreatesNone w (w.modifyEntity id f) := by
  refine ⟨rfl, fun i => ?_⟩
  rw [entity?_modifyEntity]
  split
  · rw [Option.isSome_map]
  · rfl

/-- Neither does killing one. -/
theorem remove (w : World) (id : Nat) : CreatesNone w (w.kill id) := by
  by_cases hgone : ∃ gone, w.entity? id = some gone ∧ gone.alive = true
  · obtain ⟨gone, hgone, halive⟩ := hgone
    refine ⟨(Change.remove id).runsAlike.functions, fun i => ?_⟩
    rw [entity?_kill hgone halive, Option.isSome_map]
  · rw [kill_of_not_living hgone]
    exact Std.Refl.refl w

/-- Whatever changes without creating anything. -/
theorem tolerates (tags : String → Prop) : Tolerates tags (fun _ => False) CreatesNone where
  functions h := h.functions
  declare _ _ := ⟨rfl, fun _ => rfl⟩
  score _ _ _ _ _ := ⟨rfl, fun _ => rfl⟩
  reset _ _ _ := ⟨rfl, fun _ => rfl⟩
  record _ _ := ⟨rfl, fun _ => rfl⟩
  clock _ := ⟨rfl, fun _ => rfl⟩
  tag w id _ _ := alter w id _
  untag w id _ := alter w id _
  look w id f _ _ := alter w id f
  create _ _ hplan := hplan.elim
  remove w id := remove w id

end CreatesNone

/-- Nothing carries the tag. -/
def Lacks (tag : String) (w : World) : Prop :=
  ∀ i, w.hasTag i tag = false

/-- Where nothing gets the tag and nothing is created, nothing carries it afterwards. -/
theorem Lacks.keep {tag : String} {w w' : World} (hw : w.Lacks tag) (hgives : GivesNo tag w w')
    (hcreates : CreatesNone w w') : w'.Lacks tag := by
  intro i
  rw [Bool.eq_false_iff]
  intro hmarked
  have hthere : (w'.entity? i).isSome = true := by
    obtain ⟨e, he, -⟩ := Option.any_eq_true _ _ |>.1 hmarked
    rw [he, Option.isSome_some]
  have hbefore := hgives.hasTag i ((hcreates.isSome i).symm.trans hthere) hmarked
  rw [hw i] at hbefore
  cases hbefore

end World

end Marionette
