import Marionette.Proofs.Datapack
import Marionette.Proofs.World.Ties

/-!
# Worlds stay consistent

- `World.Consistent`: all entities agree on who rides whom, and nothing is left of those that were
  removed.
- `World.entity?_kill`: what is left of every entity when one is removed.
- `Consistent.change`, `Consistent.changes`: every run keeps a world consistent, and what was
  removed stays removed.
- `consistent_ofPack`: the world of a pack is consistent at first.
-/

namespace Marionette

namespace World

/-- All entities agree on who rides whom, and nothing is left of those that were removed. -/
structure Consistent (w : World) : Prop where
  /-- Entities stand at the places of their numbers. -/
  numbered : ∀ i e, w.entity? i = some e → e.id = i
  /-- An entity lists each of its passengers once, and nothing else. -/
  listed : ∀ v e, w.entity? v = some e → ∀ p,
    e.passengers.count p = if (w.entity? p).bind Entity.vehicle = some v then 1 else 0
  /-- What rides and what is ridden is alive. -/
  mounted : ∀ p e v, w.entity? p = some e → e.vehicle = some v →
    e.alive = true ∧ ∃ carrier, w.entity? v = some carrier ∧ carrier.alive = true
  /-- Nothing is left of what was removed. -/
  removed : ∀ i e, w.entity? i = some e → e.alive = false →
    e.vehicle = none ∧ e.passengers = [] ∧ ∀ objective, w.score? i objective = none

/-- The entity was there and is no longer alive. -/
def IsRemoved (w : World) (id : Nat) : Prop :=
  ∃ e, w.entity? id = some e ∧ e.alive = false

variable {w w' : World} {id : Nat}

/-- The ties of entities in terms of lookups: everyone stands at its number, is listed once by its
vehicle and by nobody else, and the dead neither ride nor carry. -/
theorem tied_iff : Tied [] w.entities ↔
    (∀ i e, w.entity? i = some e → e.id = i) ∧
    (∀ v e, w.entity? v = some e → ∀ p,
      e.passengers.count p = if (w.entity? p).bind Entity.vehicle = some v then 1 else 0) ∧
    (∀ p e v, w.entity? p = some e → e.vehicle = some v →
      e.alive = true ∧ ∃ carrier, w.entity? v = some carrier ∧ carrier.alive = true) ∧
    ∀ i e, w.entity? i = some e → e.alive = false → e.vehicle = none ∧ e.passengers = [] := by
  constructor
  · rintro ⟨hnumbered, hlisted, hmounted, hbare⟩
    refine ⟨hnumbered, fun v e he p => ?_, hmounted, hbare⟩
    rw [hlisted v e he p]
    simp only [List.not_mem_nil, not_false_eq_true, and_true]
    rfl
  · rintro ⟨hnumbered, hlisted, hmounted, hbare⟩
    refine ⟨hnumbered, fun v e he p => ?_, hmounted, hbare⟩
    rw [hlisted v e he p]
    simp only [List.not_mem_nil, not_false_eq_true, and_true]
    rfl

/-- The ties are part of consistency. -/
theorem Consistent.tied (h : w.Consistent) : Tied [] w.entities := by
  refine tied_iff.2 ⟨h.numbered, h.listed, h.mounted, fun i e he hdead => ?_⟩
  obtain ⟨hvehicle, hpassengers, -⟩ := h.removed i e he hdead
  exact ⟨hvehicle, hpassengers⟩

/-- Consistency is agreement on who rides whom, and no score for what was removed. -/
theorem Consistent.of_tied (h : Tied [] w.entities)
    (hscores : ∀ i, w.IsRemoved i → ∀ objective, w.score? i objective = none) : w.Consistent := by
  obtain ⟨hnumbered, hlisted, hmounted, hbare⟩ := tied_iff.1 h
  refine ⟨hnumbered, hlisted, hmounted, fun i e he hdead => ?_⟩
  obtain ⟨hvehicle, hpassengers⟩ := hbare i e he hdead
  exact ⟨hvehicle, hpassengers, hscores i ⟨e, he, hdead⟩⟩

/-! ### Removing an entity -/

/-- A change that does nothing the second time, made at several places. -/
theorem getElem?_foldl_modify {f : Entity → Entity} (hf : ∀ e, f (f e) = f e) (ids : List Nat)
    (es : Array Entity) (i : Nat) :
    (ids.foldl (fun es p => es.modify p f) es)[i]? = if i ∈ ids then es[i]?.map f else es[i]? := by
  induction ids generalizing es with
  | nil => simp
  | cons p rest ih =>
    have hp : (es.modify p f)[i]? = if p = i then es[i]?.map f else es[i]? := Array.getElem?_modify
    rw [List.foldl_cons, ih, hp]
    by_cases hi : p = i
    · subst hi
      rw [if_pos rfl, if_pos List.mem_cons_self]
      split
      · rw [Option.map_map]
        congr 1
        funext e
        exact hf e
      · rfl
    · simp only [if_neg hi, List.mem_cons, Ne.symm hi, false_or]

/-- What is left of the entity `i` when the entity `id`, which was `gone`, is removed. -/
def leftOf (id : Nat) (gone : Entity) (i : Nat) (e : Entity) : Entity :=
  { e with
    alive := e.alive && i != id
    vehicle := if i = id ∨ i ∈ gone.passengers then none else e.vehicle
    passengers := if i = id then [] else
      if gone.vehicle = some i then e.passengers.filter (· != id) else e.passengers }

/-- Nothing happens where there is nobody alive to kill. -/
theorem kill_of_not_living (h : ¬∃ gone, w.entity? id = some gone ∧ gone.alive = true) :
    w.kill id = w := by
  unfold kill
  split
  · rfl
  · next e he =>
    have hdead : e.alive = false := Bool.eq_false_iff.2 fun halive => h ⟨e, he, halive⟩
    rw [hdead]
    rfl

/-- What killing an entity leaves of every entity. -/
theorem entity?_kill {gone : Entity} (hgone : w.entity? id = some gone) (halive : gone.alive = true)
    (i : Nat) : (w.kill id).entity? i = (w.entity? i).map (leftOf id gone i) := by
  unfold kill
  rw [hgone]
  simp only [halive, Bool.not_true, Bool.false_eq_true, if_false]
  show (gone.passengers.foldl _ _)[i]? = w.entities[i]?.map _
  rw [getElem?_foldl_modify (f := fun e => { e with vehicle := none }) fun _ => rfl]
  by_cases hi : i = id
  -- the entity itself dies and leaves its vehicle
  · subst hi
    cases hv : gone.vehicle with
    | none => cases he : w.entities[i]? <;> simp [Array.getElem?_modify, leftOf, he]
    | some v =>
      by_cases hvi : v = i <;> cases he : w.entities[i]? <;>
        simp [Array.getElem?_modify, leftOf, hvi, he]
  -- the others lose their vehicle if they rode it, or the passenger if they carried it
  · have hi' : ¬id = i := fun h => hi h.symm
    have hne : (i != id) = true := bne_iff_ne.2 hi
    cases hv : gone.vehicle with
    | none =>
      cases he : w.entities[i]? <;> by_cases hp : i ∈ gone.passengers <;>
        simp [Array.getElem?_modify, leftOf, hi, hi', hne, hv, he, hp]
    | some v =>
      by_cases hvi : v = i <;> cases he : w.entities[i]? <;> by_cases hp : i ∈ gone.passengers <;>
        simp [Array.getElem?_modify, leftOf, hi, hi', hne, hv, hvi, he, hp]

/-- A killed entity loses its scores, and nobody else does. -/
theorem ownerScore?_kill {gone : Entity} (hgone : w.entity? id = some gone)
    (halive : gone.alive = true) (owner : Owner) (objective : String) :
    (w.kill id).ownerScore? owner objective =
      if owner = .entity id then none else w.ownerScore? owner objective := by
  have hscores : (w.kill id).scores = w.scores.filter fun k _ => k.1 != .entity id := by
    unfold kill
    rw [hgone]
    simp only [halive, Bool.not_true, Bool.false_eq_true, if_false]
  unfold ownerScore?
  rw [hscores, Std.HashMap.getElem?_filter']
  by_cases howner : owner = .entity id
  · simp [howner]
  · have hne : (owner != .entity id) = true := bne_iff_ne.2 howner
    rw [if_neg howner]
    cases w.scores[(owner, objective)]? <;> simp [hne]

/-- In particular it has no score of any objective. -/
theorem score?_kill {gone : Entity} (hgone : w.entity? id = some gone)
    (halive : gone.alive = true) (i : Nat) (objective : String) :
    (w.kill id).score? i objective = if i = id then none else w.score? i objective := by
  rw [score?, ownerScore?_kill hgone halive]
  simp only [Owner.entity.injEq]
  rfl

/-- Just those who ride an entity are on its list. -/
theorem mem_passengers_iff (h : Tied [] w.entities) {carrier e : Entity} {p : Nat}
    (hcarrier : w.entity? id = some carrier) (he : w.entity? p = some e) :
    p ∈ carrier.passengers ↔ e.vehicle = some id := by
  obtain ⟨-, hlisted, -, -⟩ := tied_iff.1 h
  have hcount := hlisted id carrier hcarrier p
  rw [he, Option.bind_some] at hcount
  rw [← List.count_pos_iff, hcount]
  split
  · next hv => simp [hv]
  · next hv => simp [hv]

/-- The rides that are left are those that the removed entity has no part in. -/
theorem vehicle_leftOf {gone e : Entity} {p u : Nat}
    (hrides : p ∈ gone.passengers ↔ e.vehicle = some id) :
    (leftOf id gone p e).vehicle = some u ↔ e.vehicle = some u ∧ p ≠ id ∧ u ≠ id := by
  show (if p = id ∨ p ∈ gone.passengers then none else e.vehicle) = some u ↔ _
  simp only [hrides]
  by_cases hp : p = id
  · simp [hp]
  · by_cases hv : e.vehicle = some id
    · rw [if_pos (.inr hv), hv]
      constructor
      · intro hnone
        cases hnone
      · rintro ⟨hu, -, hne⟩
        exact absurd (Option.some.inj hu).symm hne
    · rw [if_neg (not_or.2 ⟨hp, hv⟩)]
      constructor
      · intro hu
        refine ⟨hu, hp, fun heq => hv (heq ▸ hu)⟩
      · exact And.left

/-- The list of another entity loses the removed one, if it was on it. -/
theorem passengers_leftOf {gone e : Entity} {v : Nat} (hv : v ≠ id) :
    (leftOf id gone v e).passengers =
      if gone.vehicle = some v then e.passengers.filter (· != id) else e.passengers :=
  if_neg hv

/-- It loses nobody else. -/
theorem count_passengers_leftOf {gone e : Entity} {v p : Nat} (hv : v ≠ id) (hp : p ≠ id) :
    (leftOf id gone v e).passengers.count p = e.passengers.count p := by
  rw [passengers_leftOf hv]
  split
  · exact List.count_filter (bne_iff_ne.2 hp)
  · rfl

/-- Who rides whom after an entity is removed. -/
theorem tied_kill (h : Tied [] w.entities) {gone : Entity} (hgone : w.entity? id = some gone)
    (halive : gone.alive = true) : Tied [] (w.kill id).entities := by
  obtain ⟨hnumbered, hlisted, hmounted, hbare⟩ := tied_iff.1 h
  have hold : ∀ {i e}, (w.kill id).entity? i = some e →
      ∃ e₀, w.entity? i = some e₀ ∧ e = leftOf id gone i e₀ := by
    intro i e he
    rw [entity?_kill hgone halive] at he
    obtain ⟨e₀, he₀, rfl⟩ := Option.map_eq_some_iff.1 he
    exact ⟨e₀, he₀, rfl⟩
  have hvehicle : ∀ {p e u}, w.entity? p = some e →
      ((leftOf id gone p e).vehicle = some u ↔ e.vehicle = some u ∧ p ≠ id ∧ u ≠ id) :=
    fun he => vehicle_leftOf (mem_passengers_iff h hgone he)
  refine tied_iff.2 ⟨?_, ?_, ?_, ?_⟩
  · intro i e he
    obtain ⟨e₀, he₀, rfl⟩ := hold he
    exact hnumbered i e₀ he₀
  · intro v e he p
    obtain ⟨e₀, he₀, rfl⟩ := hold he
    have hbind : (((w.kill id).entity? p).bind Entity.vehicle = some v) ↔
        (w.entity? p).bind Entity.vehicle = some v ∧ p ≠ id ∧ v ≠ id := by
      rw [entity?_kill hgone halive]
      cases hp : w.entity? p with
      | none => simp
      | some e => exact hvehicle hp
    have hcount := hlisted v e₀ he₀ p
    by_cases hv : v = id
    · rw [if_neg fun hride => (hbind.1 hride).2.2 hv]
      simp [leftOf, hv]
    · by_cases hp : p = id
      · -- the vehicle of the entity forgets it, and no other entity knows of it
        rw [if_neg fun hride => (hbind.1 hride).2.1 hp, passengers_leftOf hv]
        split
        · exact List.count_eq_zero_of_not_mem fun hmem => by simp [hp] at hmem
        · next hother =>
          rw [hcount, hp, hgone, Option.bind_some, if_neg hother]
      · rw [count_passengers_leftOf hv hp, hcount]
        simp only [hbind, ne_eq, hp, hv, not_false_eq_true, and_true]
  · intro p e v he hv
    obtain ⟨e₀, he₀, rfl⟩ := hold he
    obtain ⟨hv₀, hp, hne⟩ := (hvehicle he₀).1 hv
    obtain ⟨hlive, carrier, hcarrier, hlive'⟩ := hmounted p e₀ v he₀ hv₀
    refine ⟨?_, leftOf id gone v carrier, ?_, ?_⟩
    · show (e₀.alive && p != id) = true
      rw [hlive, bne_iff_ne.2 hp]
      rfl
    · rw [entity?_kill hgone halive, hcarrier]
      rfl
    · show (carrier.alive && v != id) = true
      rw [hlive', bne_iff_ne.2 hne]
      rfl
  · intro i e he hdead
    obtain ⟨e₀, he₀, rfl⟩ := hold he
    by_cases hi : i = id
    · subst hi
      simp [leftOf]
    · have hdead₀ : e₀.alive = false := by
        have hdead' : (e₀.alive && i != id) = false := hdead
        rwa [bne_iff_ne.2 hi, Bool.and_true] at hdead'
      obtain ⟨hvehicle₀, hpassengers₀⟩ := hbare i e₀ he₀ hdead₀
      simp [leftOf, hi, hvehicle₀, hpassengers₀]

/-! ### Every change -/

/-- Every change leaves the entities in agreement on who rides whom. -/
theorem Change.tied (h : Change w w') (ht : Tied [] w.entities) : Tied [] w'.entities := by
  cases h with
  | declare | score | reset | record | clock => exact ht
  | alter j f same => exact ht.modify same
  | create plan =>
    obtain ⟨-, htied, -, own, hown, hfree, -⟩ := tied_spawn plan ht
      (fun p hp => nomatch hp) (v := none) (fun u hu => nomatch hu)
    refine htied.drop ?_
    rw [hown]
    exact hfree
  | remove j =>
    by_cases hj : ∃ gone, w.entity? j = some gone ∧ gone.alive = true
    · obtain ⟨gone, hgone, halive⟩ := hj
      exact tied_kill ht hgone halive
    · rwa [kill_of_not_living hj]

/-- An entity keeps its place; it does not come back to life, and it does not mount anything. -/
theorem Change.entity? (h : Change w w') (ht : Tied [] w.entities) {i : Nat} {e : Entity}
    (he : w.entity? i = some e) :
    ∃ e', w'.entity? i = some e' ∧ (e.alive = false → e'.alive = false) ∧
      (e.vehicle = none → e'.vehicle = none) := by
  cases h with
  | declare | score | reset | record | clock => exact ⟨e, he, id, id⟩
  -- ties stay as they are, so does life
  | alter j f same =>
    obtain ⟨-, hvehicle, -, halive⟩ := Entity.of_ties (same e)
    have hget : (w.modifyEntity j f).entity? i =
        if j = i then (w.entity? i).map f else w.entity? i :=
      Array.getElem?_modify
    rw [hget, he]
    split
    · exact ⟨f e, rfl, fun h => halive.trans h, fun h => hvehicle.trans h⟩
    · exact ⟨e, rfl, id, id⟩
  -- those that were there before the new ones are kept with their ties
  | create plan =>
    obtain ⟨-, -, hext, -⟩ := tied_spawn plan ht
      (fun p hp => nomatch hp) (v := none) (fun u hu => nomatch hu)
    obtain ⟨e', he', hvehicle, halive⟩ := hext.old i e he
    exact ⟨e', he', fun h => halive.trans h, fun h => hvehicle.trans h⟩
  -- killing ends lives and rides, and begins none
  | remove j =>
    by_cases hj : ∃ gone, w.entity? j = some gone ∧ gone.alive = true
    · obtain ⟨gone, hgone, halive⟩ := hj
      refine ⟨leftOf j gone i e, by rw [entity?_kill hgone halive, he]; rfl, ?_, ?_⟩
      · intro hdead
        show (e.alive && i != j) = false
        rw [hdead, Bool.false_and]
      · intro hfree
        show (if i = j ∨ i ∈ gone.passengers then none else e.vehicle) = none
        rw [hfree, ite_self]
    · rw [kill_of_not_living hj]
      exact ⟨e, he, id, id⟩

/-- What was removed stays removed. -/
theorem IsRemoved.change {i : Nat} (hi : w.IsRemoved i) (ht : Tied [] w.entities)
    (h : Change w w') : w'.IsRemoved i := by
  obtain ⟨e, he, hdead⟩ := hi
  obtain ⟨e', he', hkept, -⟩ := h.entity? ht he
  exact ⟨e', he', hkept hdead⟩

/-- No change gives a score to what was removed. -/
theorem Consistent.score?_change (h : w.Consistent) (hc : Change w w') {i : Nat}
    (hi : w'.IsRemoved i) (objective : String) : w'.score? i objective = none := by
  -- what was dead before had no score before
  have hbefore : w.IsRemoved i → w.score? i objective = none := by
    rintro ⟨e, he, hdead⟩
    exact (h.removed i e he hdead).2.2 objective
  obtain ⟨e', he', hdead⟩ := hi
  cases hc with
  | declare | record | clock => exact hbefore ⟨e', he', hdead⟩
  -- scores are set for owners that live, and the removed one does not
  | score owner objective' value lives =>
    have hother : owner ≠ .entity i := by
      rintro rfl
      obtain ⟨e, hmem, hid, halive⟩ := lives
      obtain ⟨j, hj⟩ := Array.getElem?_of_mem hmem
      have hnumber : e.id = j := h.numbered j e hj
      have hji : j = i := hnumber.symm.trans hid
      have hsame : some e = some e' := hj.symm.trans (hji ▸ he')
      rw [Option.some.inj hsame, hdead] at halive
      cases halive
    have hset : (w.setOwnerScore owner objective' value).score? i objective =
        w.score? i objective := by
      refine (Std.HashMap.getElem?_insert).trans (if_neg fun hkey => hother ?_)
      exact congrArg Prod.fst (beq_iff_eq.1 hkey)
    rw [hset]
    exact hbefore ⟨e', he', hdead⟩
  -- removing scores adds none
  | reset owners objective' =>
    have hnone : w.scores[(Owner.entity i, objective)]? = none := hbefore ⟨e', he', hdead⟩
    show (w.scores.filter _)[(Owner.entity i, objective)]? = none
    rw [Std.HashMap.getElem?_filter', hnone]
    rfl
  | alter j f same =>
    have hget : (w.modifyEntity j f).entity? i =
        if j = i then (w.entity? i).map f else w.entity? i :=
      Array.getElem?_modify
    rw [hget] at he'
    split at he'
    · obtain ⟨e, he, rfl⟩ := Option.map_eq_some_iff.1 he'
      exact hbefore ⟨e, he, (Entity.of_ties (same e)).2.2.2.symm.trans hdead⟩
    · exact hbefore ⟨e', he', hdead⟩
  -- the entity was there before, as new ones are alive
  | create plan =>
    obtain ⟨-, -, hext, -⟩ := tied_spawn plan h.tied
      (fun p hp => nomatch hp) (v := none) (fun u hu => nomatch hu)
    by_cases hi : w.entities.size ≤ i
    · -- a new entity is alive
      exact absurd ((hext.new i e' he' hi).symm.trans hdead) (by decide)
    · have he : w.entity? i = some w.entities[i] := Array.getElem?_eq_getElem (by omega)
      obtain ⟨e'', he'', -, halive⟩ := hext.old i _ he
      obtain rfl : e'' = e' := Option.some.inj (he''.symm.trans he')
      exact hbefore ⟨_, he, halive.symm.trans hdead⟩
  -- the entity was dead before, or it is the one that is killed
  | remove j =>
    by_cases hj : ∃ gone, w.entity? j = some gone ∧ gone.alive = true
    · obtain ⟨gone, hgone, halive⟩ := hj
      rw [score?_kill hgone halive]
      split
      · rfl
      · next hne =>
        rw [entity?_kill hgone halive] at he'
        obtain ⟨e, he, rfl⟩ := Option.map_eq_some_iff.1 he'
        have hdead' : (e.alive && i != j) = false := hdead
        rw [bne_iff_ne.2 hne, Bool.and_true] at hdead'
        exact hbefore ⟨e, he, hdead'⟩
    · rw [kill_of_not_living hj] at he' ⊢
      exact hbefore ⟨e', he', hdead⟩

/-- Every change keeps a world consistent. -/
theorem Consistent.change (h : w.Consistent) (hc : Change w w') : w'.Consistent :=
  .of_tied (hc.tied h.tied) fun _ hi objective => h.score?_change hc hi objective

/-! ### Every run -/

/-- Changes in a row keep the ties. -/
theorem Changes.tied (h : Changes w w') (ht : Tied [] w.entities) : Tied [] w'.entities := by
  induction h with
  | refl => exact ht
  | tail _ hc ih => exact hc.tied ih

/-- However a run ends, it leaves the world consistent. -/
theorem Consistent.changes (h : w.Consistent) (hc : Changes w w') : w'.Consistent := by
  induction hc with
  | refl => exact h
  | tail _ hc ih => exact ih.change hc

/-- What is removed stays removed. -/
theorem IsRemoved.changes {i : Nat} (hi : w.IsRemoved i) (ht : Tied [] w.entities)
    (hc : Changes w w') : w'.IsRemoved i := by
  induction hc with
  | refl => exact hi
  | tail hbefore hc ih => exact ih.change (Changes.tied hbefore ht) hc

/-- A world of a pack has no entities at first. -/
theorem consistent_ofPack {pack : Datapack} (h : ofPack pack = .ok w) : w.Consistent := by
  obtain ⟨ticks, loads, -, -, rfl⟩ := ofPack_eq h
  have hnone : ∀ (i : Nat) (e : Entity), (#[] : Array Entity)[i]? ≠ some e := by
    intro i e he
    cases he
  refine ⟨?_, ?_, ?_, ?_⟩
  · exact fun i e he => absurd he (hnone i e)
  · exact fun v e he => absurd he (hnone v e)
  · exact fun p e v he => absurd he (hnone p e)
  · exact fun i e he => absurd he (hnone i e)

end World

end Marionette
