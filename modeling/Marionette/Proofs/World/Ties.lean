import Marionette.Proofs.World.Changes
import Marionette.World.Basic

/-!
# Who rides whom

An entity knows what it rides and what rides it, and both agree at every time.  While an entity is
created with everything that rides it there are entities that sit already although their vehicles
do not know of them yet; these are pending.

- `Tied`: entities that agree, but for pending ones.
- `Extends`: new entities come after the old ones.
- `tied_spawn`, `tied_seat`: creating an entity with everything that rides it.
-/

namespace Marionette

/-- Entities stand at the places of their numbers, and they agree on who rides whom, except that
vehicles do not know of `pending` passengers yet. -/
structure Tied (pending : List Nat) (es : Array Entity) : Prop where
  numbered : ∀ (i : Nat) (e : Entity), es[i]? = some e → e.id = i
  listed : ∀ (v : Nat) (e : Entity), es[v]? = some e → ∀ p : Nat,
    e.passengers.count p = if es[p]?.bind Entity.vehicle = some v ∧ p ∉ pending then 1 else 0
  mounted : ∀ (p : Nat) (e : Entity) (v : Nat), es[p]? = some e → e.vehicle = some v →
    e.alive = true ∧ ∃ carrier : Entity, es[v]? = some carrier ∧ carrier.alive = true
  bare : ∀ (i : Nat) (e : Entity), es[i]? = some e → e.alive = false → e.vehicle = none ∧
    e.passengers = []

/-- The old entities are still there with their lives and vehicles, and the new ones are alive. -/
structure Extends (es es' : Array Entity) : Prop where
  size_le : es.size ≤ es'.size
  old : ∀ (i : Nat) (e : Entity), es[i]? = some e →
    ∃ e' : Entity, es'[i]? = some e' ∧ e'.vehicle = e.vehicle ∧ e'.alive = e.alive
  new : ∀ (i : Nat) (e : Entity), es'[i]? = some e → es.size ≤ i → e.alive = true

namespace Extends

variable {es es' es'' : Array Entity}

/-- Nothing is new at first. -/
theorem refl (es : Array Entity) : Extends es es where
  size_le := Nat.le_refl _
  old _ e he := ⟨e, he, rfl, rfl⟩
  new _ _ he hi := absurd (Array.getElem?_eq_some_iff.1 he).1 (Nat.not_lt.2 hi)

/-- What is new after two steps came in one of them. -/
theorem trans (h : Extends es es') (h' : Extends es' es'') : Extends es es'' where
  size_le := Nat.le_trans h.size_le h'.size_le
  old i e he := by
    obtain ⟨e', he', hvehicle, halive⟩ := h.old i e he
    obtain ⟨e'', he'', hvehicle', halive'⟩ := h'.old i e' he'
    exact ⟨e'', he'', hvehicle'.trans hvehicle, halive'.trans halive⟩
  new i e he hi := by
    by_cases hmid : es'.size ≤ i
    · exact h'.new i e he hmid
    · -- an entity that the first extension has added already
      have he' : es'[i]? = some es'[i] := Array.getElem?_eq_getElem (by omega)
      obtain ⟨e'', he'', -, halive⟩ := h'.old i _ he'
      obtain rfl : e'' = e := Option.some.inj (he''.symm.trans he)
      exact halive.trans (h.new i _ he' hi)

/-- One entity more, which is alive. -/
theorem push (es : Array Entity) {e : Entity} (h : e.alive = true) : Extends es (es.push e) where
  size_le := by simp
  old i e' he := by
    have hi := (Array.getElem?_eq_some_iff.1 he).1
    rw [Array.getElem?_push, if_neg (by omega)]
    exact ⟨e', he, rfl, rfl⟩
  new i e' he hi := by
    rw [Array.getElem?_push] at he
    split at he
    · obtain rfl := Option.some.inj he
      exact h
    · exact absurd (Array.getElem?_eq_some_iff.1 he).1 (Nat.not_lt.2 hi)

/-- A change of entities that keeps their lives and vehicles. -/
theorem modify (es : Array Entity) (i : Nat) {f : Entity → Entity}
    (hf : ∀ e, (f e).vehicle = e.vehicle ∧ (f e).alive = e.alive) : Extends es (es.modify i f) where
  size_le := by simp
  old j e he := by
    rw [Array.getElem?_modify, he]
    split
    · exact ⟨f e, rfl, hf e⟩
    · exact ⟨e, rfl, rfl, rfl⟩
  new j e he hj := by
    have := (Array.getElem?_eq_some_iff.1 he).1
    rw [Array.size_modify] at this
    omega

end Extends

namespace Tied

variable {pending : List Nat} {es : Array Entity} {v : Option Nat}

/-- Nothing rides an entity that does not exist. -/
theorem count_eq_zero (h : Tied pending es) {v p : Nat} {e : Entity} (he : es[v]? = some e)
    (hp : es.size ≤ p) : e.passengers.count p = 0 := by
  rw [h.listed v e he, Array.getElem?_eq_none hp]
  exact if_neg fun hv => nomatch hv.1

/-- A new entity sits on its vehicle, which does not know of it yet. -/
theorem push (h : Tied pending es) {own : Entity} (hid : own.id = es.size)
    (halive : own.alive = true) (hpassengers : own.passengers = [])
    (hvehicle : ∀ u, own.vehicle = some u →
      ∃ carrier, es[u]? = some carrier ∧ carrier.alive = true) :
    Tied (es.size :: pending) (es.push own) := by
  have hext : Extends es (es.push own) := Extends.push es halive
  -- an entity is the new one or one that was there
  have hcases : ∀ i e, (es.push own)[i]? = some e → i = es.size ∧ e = own ∨ es[i]? = some e := by
    intro i e he
    rw [Array.getElem?_push] at he
    split at he
    · next hi => exact .inl ⟨hi, (Option.some.inj he).symm⟩
    · exact .inr he
  -- carriers that are alive are so still
  have hcarrier : ∀ {u : Nat} {carrier : Entity}, es[u]? = some carrier → carrier.alive = true →
      ∃ carrier : Entity, (es.push own)[u]? = some carrier ∧ carrier.alive = true := by
    intro u carrier hu hcarrier
    obtain ⟨carrier', hu', -, halive'⟩ := hext.old u carrier hu
    exact ⟨carrier', hu', halive'.trans hcarrier⟩
  constructor
  case numbered =>
    intro i e he
    rcases hcases i e he with ⟨rfl, rfl⟩ | he
    · exact hid
    · exact h.numbered i e he
  case listed =>
    intro u e he p
    by_cases hp : p = es.size
    · subst hp
      rw [if_neg fun hmem => hmem.2 List.mem_cons_self]
      rcases hcases u e he with ⟨rfl, rfl⟩ | he
      · rw [hpassengers]
        rfl
      · exact h.count_eq_zero he (Nat.le_refl _)
    · rw [Array.getElem?_push, if_neg hp]
      simp only [List.mem_cons, hp, false_or]
      rcases hcases u e he with ⟨rfl, rfl⟩ | he
      · -- nothing that was there before can ride the new entity
        have hnone : es[p]?.bind Entity.vehicle ≠ some es.size := by
          intro hride
          obtain ⟨e, he, hv⟩ := Option.bind_eq_some_iff.1 hride
          obtain ⟨-, carrier, hcarrier, -⟩ := h.mounted p e _ he hv
          exact absurd (Array.getElem?_eq_some_iff.1 hcarrier).1 (Nat.lt_irrefl _)
        rw [hpassengers, if_neg fun hride => hnone hride.1]
        rfl
      · exact h.listed u e he p
  case mounted =>
    intro p e u he hu
    rcases hcases p e he with ⟨rfl, rfl⟩ | he
    · obtain ⟨carrier, hcarrier', hlive⟩ := hvehicle u hu
      exact ⟨halive, hcarrier hcarrier' hlive⟩
    · obtain ⟨hlive, carrier, hcarrier', hlive'⟩ := h.mounted p e u he hu
      exact ⟨hlive, hcarrier hcarrier' hlive'⟩
  case bare =>
    intro i e he hdead
    rcases hcases i e he with ⟨rfl, rfl⟩ | he
    · rw [halive] at hdead
      cases hdead
    · exact h.bare i e he hdead

/-- A vehicle learns of a pending passenger. -/
theorem board {p u : Nat} (h : Tied (p :: pending) es) (hp : p ∉ pending)
    (hride : es[p]?.bind Entity.vehicle = some u) :
    Tied pending (es.modify u fun e => { e with passengers := e.passengers ++ [p] }) := by
  let f : Entity → Entity := fun e => { e with passengers := e.passengers ++ [p] }
  have hget : ∀ i, (es.modify u f)[i]? = if u = i then es[i]?.map f else es[i]? := fun i =>
    Array.getElem?_modify
  -- an entity that is there now was there before, with one passenger less if it is the vehicle
  have hold : ∀ i e, (es.modify u f)[i]? = some e →
      ∃ e₀, es[i]? = some e₀ ∧ e = if u = i then f e₀ else e₀ := by
    intro i e he
    rw [hget] at he
    split at he
    · next hi =>
      obtain ⟨e₀, he₀, rfl⟩ := Option.map_eq_some_iff.1 he
      exact ⟨e₀, he₀, (if_pos hi).symm⟩
    · next hi => exact ⟨e, he, (if_neg hi).symm⟩
  -- who rides whom is the same, as only a list of passengers grows
  have hsame : ∀ i : Nat, (es.modify u f)[i]?.bind Entity.vehicle = es[i]?.bind Entity.vehicle := by
    intro i
    rw [hget]
    split
    · cases es[i]? <;> rfl
    · rfl
  constructor
  case numbered =>
    intro i e he
    obtain ⟨e₀, he₀, rfl⟩ := hold i e he
    split <;> exact h.numbered i e₀ he₀
  case listed =>
    intro v e he q
    obtain ⟨e₀, he₀, rfl⟩ := hold v e he
    have hbefore := h.listed v e₀ he₀ q
    rw [hsame]
    -- the pending passenger is listed now, and no other one is
    by_cases hq : q = p
    · subst hq
      rw [if_neg fun hmem => hmem.2 List.mem_cons_self] at hbefore
      by_cases hv : u = v
      · subst hv
        rw [if_pos rfl, if_pos ⟨hride, hp⟩]
        show (e₀.passengers ++ [q]).count q = 1
        rw [List.count_append, hbefore, List.count_singleton_self]
      · rw [if_neg hv, if_neg fun hmem => hv (Option.some.inj (hride.symm.trans hmem.1))]
        exact hbefore
    · simp only [List.mem_cons, hq, false_or] at hbefore
      rw [← hbefore]
      split
      · show (e₀.passengers ++ [p]).count q = _
        have hzero : [p].count q = 0 :=
          List.count_eq_zero_of_not_mem fun hmem => hq (List.mem_singleton.1 hmem)
        rw [List.count_append, hzero, Nat.add_zero]
      · rfl
  case mounted =>
    intro q e v he hv
    obtain ⟨e₀, he₀, rfl⟩ := hold q e he
    have hv₀ : e₀.vehicle = some v := by
      rw [← hv]
      split <;> rfl
    obtain ⟨hlive, carrier, hcarrier, hlive'⟩ := h.mounted q e₀ v he₀ hv₀
    refine ⟨by split <;> exact hlive, if u = v then f carrier else carrier, ?_, ?_⟩
    · rw [hget, hcarrier]
      split <;> rfl
    · split <;> exact hlive'
  case bare =>
    intro i e he hdead
    obtain ⟨e₀, he₀, rfl⟩ := hold i e he
    by_cases hi : u = i
    · -- the vehicle of an entity is alive
      subst hi
      rw [if_pos rfl] at hdead
      obtain ⟨e', he', hv'⟩ := Option.bind_eq_some_iff.1 hride
      obtain ⟨-, carrier, hcarrier, hlive⟩ := h.mounted p e' u he' hv'
      obtain rfl : carrier = e₀ := Option.some.inj (hcarrier.symm.trans he₀)
      exact absurd (hlive.symm.trans hdead) (by decide)
    · rw [if_neg hi] at hdead ⊢
      exact h.bare i e₀ he₀ hdead

/-- A pending entity that rides nothing has no vehicle that could know of it. -/
theorem drop {p : Nat} (h : Tied (p :: pending) es) (hfree : es[p]?.bind Entity.vehicle = none) :
    Tied pending es := by
  refine ⟨h.numbered, fun v e he q => ?_, h.mounted, h.bare⟩
  rw [h.listed v e he q]
  by_cases hq : q = p
  · subst hq
    have hnone : ∀ pending : List Nat, ¬(es[q]?.bind Entity.vehicle = some v ∧ q ∉ pending) := by
      rintro pending ⟨hride, -⟩
      rw [hfree] at hride
      cases hride
    rw [if_neg (hnone _), if_neg (hnone _)]
  · simp only [List.mem_cons, hq, false_or]

/-- A change of an entity that touches neither its life nor who rides whom. -/
theorem modify (h : Tied pending es) {i : Nat} {f : Entity → Entity}
    (hf : ∀ e, (f e).ties = e.ties) : Tied pending (es.modify i f) := by
  -- the change is seen in one place only, and not in the ties
  have hget : ∀ j : Nat, (es.modify i f)[j]? = es[j]?.map fun e => if i = j then f e else e := by
    intro j
    rw [Array.getElem?_modify]
    split
    · rfl
    · exact Option.map_id'.symm
  have hold : ∀ (j : Nat) (e : Entity), (es.modify i f)[j]? = some e →
      ∃ e₀ : Entity, es[j]? = some e₀ ∧ e.ties = e₀.ties := by
    intro j e he
    rw [hget] at he
    obtain ⟨e₀, he₀, rfl⟩ := Option.map_eq_some_iff.1 he
    refine ⟨e₀, he₀, ?_⟩
    split
    · exact hf e₀
    · rfl
  have hsame : ∀ j : Nat, (es.modify i f)[j]?.bind Entity.vehicle = es[j]?.bind Entity.vehicle := by
    intro j
    rw [hget]
    cases es[j]? with
    | none => rfl
    | some e =>
      show (if i = j then f e else e).vehicle = e.vehicle
      split
      · exact (Entity.of_ties (hf e)).2.1
      · rfl
  constructor
  case numbered =>
    intro j e he
    obtain ⟨e₀, he₀, hties⟩ := hold j e he
    exact (Entity.of_ties hties).1.trans (h.numbered j e₀ he₀)
  case listed =>
    intro v e he p
    obtain ⟨e₀, he₀, hties⟩ := hold v e he
    obtain ⟨-, -, hpassengers, -⟩ := Entity.of_ties hties
    rw [hpassengers, hsame]
    exact h.listed v e₀ he₀ p
  case mounted =>
    intro p e v he hv
    obtain ⟨e₀, he₀, hties⟩ := hold p e he
    obtain ⟨-, hvehicle, -, halive⟩ := Entity.of_ties hties
    obtain ⟨hlive, carrier, hcarrier, hlive'⟩ := h.mounted p e₀ v he₀ (hvehicle.symm.trans hv)
    refine ⟨halive.trans hlive, if i = v then f carrier else carrier, ?_, ?_⟩
    · rw [hget, hcarrier]
      rfl
    · split
      · exact (Entity.of_ties (hf carrier)).2.2.2.trans hlive'
      · exact hlive'
  case bare =>
    intro j e he hdead
    obtain ⟨e₀, he₀, hties⟩ := hold j e he
    obtain ⟨-, hvehicle, hpassengers, halive⟩ := Entity.of_ties hties
    rw [hvehicle, hpassengers]
    exact h.bare j e₀ he₀ (halive.symm.trans hdead)

end Tied

namespace World

/-! ### Creating entities -/

mutual

/-- A new entity comes first, then everything that rides it; nothing but the new entity itself is
left pending. -/
theorem tied_spawn :
    ∀ (plan : EntityPlan) {pending : List Nat} {es : Array Entity} {v : Option Nat},
    Tied pending es → (∀ p ∈ pending, p < es.size) →
    (∀ u, v = some u → ∃ carrier : Entity, es[u]? = some carrier ∧ carrier.alive = true) →
    (spawn es v plan).2 = es.size ∧ Tied (es.size :: pending) (spawn es v plan).1 ∧
      Extends es (spawn es v plan).1 ∧
      ∃ own : Entity, (spawn es v plan).1[es.size]? = some own ∧ own.vehicle = v ∧
        own.alive = true
  | .mk entityType tags data passengers, pending, es, v, h, hpending, hv => by
    let own : Entity := { id := es.size, entityType, tags, data, vehicle := v }
    have hown : (es.push own)[es.size]? = some own := by simp
    have hpush : Extends es (es.push own) := Extends.push es rfl
    have htied : Tied (es.size :: pending) (es.push own) := h.push rfl rfl rfl hv
    -- nobody who is pending has a number that is not given yet
    have hlt : ∀ p ∈ es.size :: pending, p < (es.push own).size := by
      intro p hp
      rw [Array.size_push]
      rcases List.mem_cons.1 hp with rfl | hp
      · omega
      · have := hpending p hp
        omega
    obtain ⟨hseat, hext⟩ := tied_seat passengers htied hlt ⟨own, hown, rfl⟩
    rw [spawn]
    refine ⟨rfl, hseat, hpush.trans hext, ?_⟩
    obtain ⟨own', hown', hvehicle, halive⟩ := hext.old es.size own hown
    exact ⟨own', hown', hvehicle, halive⟩

/-- Everything that rides an entity is seated, one after the other. -/
theorem tied_seat : ∀ (plans : List EntityPlan) {pending : List Nat} {es : Array Entity} {u : Nat},
    Tied pending es → (∀ p ∈ pending, p < es.size) →
    (∃ carrier : Entity, es[u]? = some carrier ∧ carrier.alive = true) →
    Tied pending (seat es u plans) ∧ Extends es (seat es u plans)
  | [], pending, es, u, h, _, _ => by
    rw [seat]
    exact ⟨h, Extends.refl es⟩
  | plan :: rest, pending, es, u, h, hpending, hcarrier => by
    obtain ⟨hid, htied, hext, own, hown, hvehicle, -⟩ := tied_spawn plan (v := some u) h hpending
      fun u' hu' => Option.some.inj hu' ▸ hcarrier
    rw [seat]
    dsimp only
    rw [hid]
    -- the vehicle learns of the passenger, which is then no longer pending
    have hboard := htied.board (u := u) (fun hmem => Nat.lt_irrefl _ (hpending _ hmem)) (by
      rw [hown]
      exact hvehicle)
    have hmodify := Extends.modify (spawn es (some u) plan).1 u
      (f := fun e => { e with passengers := e.passengers ++ [es.size] }) fun _ => ⟨rfl, rfl⟩
    have hext' := hext.trans hmodify
    obtain ⟨carrier, hu, halive⟩ := hcarrier
    obtain ⟨carrier', hu', -, halive'⟩ := hext'.old u carrier hu
    obtain ⟨hseat, hlast⟩ := tied_seat rest hboard
      (fun p hp => Nat.lt_of_lt_of_le (hpending p hp) hext'.size_le)
      ⟨carrier', hu', halive'.trans halive⟩
    exact ⟨hseat, hext'.trans hlast⟩

end

end World

end Marionette
