import Marionette.World.Basic
import Mathlib.Data.List.Basic

/-!
# Summoned entities

New entities get the numbers from the number of entities on: first the summoned one, and then what
rides it.

- `mem_tagsOf`: the tags that entity data asks for.
- `EntityPlan.isSingle`: nothing rides the planned entity.
- `World.getElem?_seat`: the entities after such entities were seated on another one.
- `World.getElem?_spawn`: the entities after one with such passengers was created.
-/

namespace Marionette

/-- A tag is inserted beside those that are there. -/
theorem mem_insertTag {tag t : String} {tags : List String} :
    t ∈ insertTag tag tags ↔ t = tag ∨ t ∈ tags := by
  induction tags with
  | nil => simp [insertTag]
  | cons first rest ih =>
    rw [insertTag]
    split
    · exact List.mem_cons
    · split
      · rename_i heq
        rw [heq, List.mem_cons]
        simp
      · rw [List.mem_cons, ih, List.mem_cons]
        simp only [or_left_comm]

/-- The tags of entity data are those of its list of tags. -/
theorem mem_tagsOf {data : Compound} {texts : List String} {t : String}
    (h : Compound.get? data "Tags" = some (.strings texts)) : t ∈ tagsOf data ↔ t ∈ texts := by
  have hfold : ∀ texts tags : List String,
      t ∈ texts.foldl (fun tags t => insertTag t tags) tags ↔ t ∈ texts ∨ t ∈ tags := by
    intro texts
    induction texts with
    | nil => simp
    | cons first rest ih =>
      intro tags
      rw [List.foldl_cons, ih, mem_insertTag, List.mem_cons]
      simp only [or_left_comm, or_assoc]
  have htexts : (texts.map Datum.string).filterMap Datum.text? = texts := by
    rw [List.filterMap_map]
    exact List.filterMap_some
  rw [tagsOf, h]
  show t ∈ ((texts.map Datum.string).filterMap Datum.text?).foldl _ [] ↔ _
  rw [htexts, hfold]
  simp

/-- Where no passengers are listed there are none. -/
theorem EntityPlan.passengersOf_eq_nil {data : Compound} (h : ∀ e ∈ data, e.1 ≠ "Passengers") :
    EntityPlan.passengersOf data = [] := by
  induction data with
  | nil => rw [passengersOf]
  | cons e rest ih =>
    obtain ⟨hkey, hrest⟩ := List.forall_mem_cons.1 h
    rw [passengersOf, if_neg hkey, ih hrest]

namespace EntityPlan

/-- Nothing rides the planned entity. -/
def isSingle : EntityPlan → Bool
  | mk _ _ _ passengers => passengers.isEmpty

/-- The planned entity itself, before anything rides it. -/
def entity (id : Nat) (vehicle : Option Nat) : EntityPlan → Entity
  | mk entityType tags data _ => { id, entityType, tags, data, vehicle }

end EntityPlan

/-- More passengers ride an entity. -/
def Entity.board (ids : List Nat) (e : Entity) : Entity :=
  { e with passengers := e.passengers ++ ids }

/-- Boarding twice is boarding once with all that come. -/
theorem Entity.board_board (ids ids' : List Nat) (e : Entity) :
    (e.board ids).board ids' = e.board (ids ++ ids') := by
  simp [board]

namespace World

variable {entities : Array Entity} {vehicle : Nat} {plan : EntityPlan} {plans : List EntityPlan}

/-- An entity that nothing rides is added at the end. -/
theorem spawn_of_isSingle (h : plan.isSingle = true) (entities : Array Entity) (v : Option Nat) :
    spawn entities v plan = (entities.push (plan.entity entities.size v), entities.size) := by
  obtain ⟨entityType, tags, data, passengers⟩ := plan
  obtain rfl : passengers = [] := List.isEmpty_iff.1 h
  rw [spawn, seat]
  rfl

/-- The first passenger is added at the end and gets on, and then come the others. -/
theorem seat_cons (h : plan.isSingle = true) :
    seat entities vehicle (plan :: plans) =
      seat ((entities.push (plan.entity entities.size (some vehicle))).modify vehicle
        (·.board [entities.size])) vehicle plans := by
  rw [seat, spawn_of_isSingle h]
  rfl

/-- Seated entities come after all others, and their vehicle knows them. -/
theorem getElem?_seat (hplans : ∀ plan ∈ plans, plan.isSingle = true)
    (hvehicle : vehicle < entities.size) (i : Nat) :
    (seat entities vehicle plans)[i]? =
      if i = vehicle then entities[i]?.map (·.board (List.range' entities.size plans.length))
      else if i < entities.size then entities[i]?
      else plans[i - entities.size]?.map (·.entity i (some vehicle)) := by
  induction plans generalizing entities with
  | nil =>
    rw [seat]
    have hboard : entities[i]?.map (·.board []) = entities[i]? := by
      simp [Entity.board]
    split
    · exact hboard.symm
    · split
      · rfl
      · rw [Array.getElem?_eq_none (by omega)]
        rfl
  | cons plan rest ih =>
    obtain ⟨hplan, hrest⟩ := List.forall_mem_cons.1 hplans
    -- the first passenger comes after all entities, and the vehicle notes its number
    let own := plan.entity entities.size (some vehicle)
    let next := (entities.push own).modify vehicle (·.board [entities.size])
    have hsize : next.size = entities.size + 1 := by simp [next]
    have hnext : ∀ i, next[i]? = if i = vehicle then entities[i]?.map (·.board [entities.size])
        else if i = entities.size then some own else entities[i]? := by
      intro i
      rw [Array.getElem?_modify, Array.getElem?_push]
      by_cases hi : i = vehicle
      · subst hi
        rw [if_pos rfl, if_pos rfl, if_neg (by omega)]
      · rw [if_neg fun h => hi h.symm, if_neg hi]
    have hseat := ih hrest (show vehicle < next.size by omega)
    rw [seat_cons hplan, hseat, hnext, hsize]
    by_cases hi : i = vehicle
    · rw [if_pos hi, if_pos hi, if_pos hi, Option.map_map, List.length_cons, List.range'_succ]
      congr 1
      funext e
      exact e.board_board _ _
    · rw [if_neg hi, if_neg hi, if_neg hi]
      rcases Nat.lt_trichotomy i entities.size with hlt | heq | hgt
      · rw [if_pos (by omega), if_neg (by omega), if_pos hlt]
      · rw [if_pos (by omega), if_pos heq, if_neg (by omega), heq, Nat.sub_self]
        rfl
      · rw [if_neg (by omega), if_neg (by omega), show i - entities.size =
          (i - (entities.size + 1)) + 1 by omega, List.getElem?_cons_succ]

/-- A new entity comes after all others, and then its passengers. -/
theorem getElem?_spawn {entityType : String} {tags : List String} {data : Compound}
    (hplans : ∀ plan ∈ plans, plan.isSingle = true) (i : Nat) :
    (spawn entities none (.mk entityType tags data plans)).1[i]? =
      if i < entities.size then entities[i]?
      else if i = entities.size then
        some { id := i, entityType, tags, data,
               passengers := List.range' (entities.size + 1) plans.length }
      else plans[i - (entities.size + 1)]?.map (·.entity i (some entities.size)) := by
  let own : Entity := { id := entities.size, entityType, tags, data }
  have hsize : (entities.push own).size = entities.size + 1 := Array.size_push own
  rw [spawn]
  show (seat (entities.push own) entities.size plans)[i]? = _
  rw [getElem?_seat hplans (by omega), hsize, Array.getElem?_push]
  rcases Nat.lt_trichotomy i entities.size with hlt | heq | hgt
  · rw [if_neg (by omega), if_pos (by omega), if_neg (by omega), if_pos hlt]
  · rw [if_pos heq, if_pos heq, if_neg (by omega), if_pos heq]
    subst heq
    rfl
  · rw [if_neg (by omega), if_neg (by omega), if_neg (by omega), if_neg (by omega)]

end World

end Marionette
