import Marionette.Proofs.World.Sure

/-!
# What was dead stays as it was

Selectors and passengers leave out what was removed, so a run comes to a removed entity in one way
only: its caller runs it as that entity, and a clause keeps a result in the data of the executing
entity.  The same clause is the only one that asks for an entity that was never created.

- `Clause.Stores`, `Command.Stores`, `World.StoresUnder`: the keys under which results are kept as
  the entity that a function starts as.
- `Compound.Stored`: integers were put under some keys.
- `World.getElem?_spawn_of_lt`: creating entities leaves the others as they are.
- `World.Undisturbed`: the entities that were dead at first are as they were, but for results that
  were kept in the data of the caller.
- `Undisturbed.modify`, `Undisturbed.store`, `Undisturbed.create`, `Undisturbed.kill`: single
  changes.
- `Run.LeavesAlone`: a run leaves the dead undisturbed, and stops at an entity that was never
  created only if this is the caller; one rule for each way in which runs are put together.
- `World.leavesAlone_run`: every run of a function does.
-/

namespace Marionette

/-! ### Results that are kept as the executing entity -/

/-- Clauses keep a result under the key in the data of the entity that they start as; `behind` says
so of what is behind them. -/
def Clause.Stores (behind : String → Prop) (key : String) : List Clause → Prop
  | [] => behind key
  | .storeResultEntity path :: rest => path = key ∨ Stores behind key rest
  -- what follows runs as other entities
  | .asEach _ :: _ | .onPassengers :: _ => False
  | _ :: rest => Stores behind key rest

/-- The command keeps a result under the key in the data of the entity that it runs as, apart from
the functions that it calls. -/
def Command.Stores : Command → String → Prop
  | .execute clauses run, key => Clause.Stores run.Stores key clauses
  | _, _ => False

/-- A function keeps a result under the key in the data of the entity that it runs as. -/
def World.StoresUnder (w : World) (key : String) : Prop :=
  ∃ (path : FunctionPath) (body : List Command), w.functions[path]? = some body ∧
    ∃ c ∈ body, c.Stores key

/-- Integers were put under some keys. -/
def Compound.Stored (keys : String → Prop) : Compound → Compound → Prop :=
  Relation.ReflTransGen fun before after =>
    ∃ key value, keys key ∧ after = before.insert key (.int value)

/-- More keys allow more to be put. -/
theorem Compound.Stored.mono {keys keys' : String → Prop} {before after : Compound}
    (h : Stored keys before after) (hkeys : ∀ key, keys key → keys' key) :
    Stored keys' before after := by
  refine Relation.ReflTransGen.mono ?_ _ _ h
  rintro _ _ ⟨key, value, hkey, rfl⟩
  exact ⟨key, value, hkeys key hkey, rfl⟩

/-- Where no key is allowed nothing was put. -/
theorem Compound.Stored.eq {keys : String → Prop} {before after : Compound}
    (h : Stored keys before after) (hkeys : ∀ key, ¬ keys key) : after = before := by
  induction h with
  | refl => rfl
  | tail _ hstep _ =>
    obtain ⟨key, value, hkey, -⟩ := hstep
    exact absurd hkey (hkeys key)

namespace World

/-! ### New entities -/

mutual

/-- Creating an entity leaves the others as they are. -/
theorem getElem?_spawn_of_lt (plan : EntityPlan) (es : Array Entity) (v : Option Nat) :
    es.size ≤ (spawn es v plan).1.size ∧
      ∀ i, i < es.size → (spawn es v plan).1[i]? = es[i]? := by
  match plan with
  | .mk entityType tags data passengers =>
    rw [spawn]
    dsimp only
    obtain ⟨hsize, hsame⟩ := getElem?_seat_of_lt passengers
      (es.push { id := es.size, entityType, tags, data, vehicle := v }) es.size
    rw [Array.size_push] at hsize hsame
    refine ⟨by omega, fun i hi => ?_⟩
    rw [hsame i (by omega) (by omega), Array.getElem?_push, if_neg (by omega)]

/-- Seating entities changes their vehicle only. -/
theorem getElem?_seat_of_lt (plans : List EntityPlan) (es : Array Entity) (vehicle : Nat) :
    es.size ≤ (seat es vehicle plans).size ∧
      ∀ i, i < es.size → i ≠ vehicle → (seat es vehicle plans)[i]? = es[i]? := by
  match plans with
  | [] =>
    rw [seat]
    exact ⟨Nat.le_refl _, fun _ _ _ => rfl⟩
  | plan :: rest =>
    obtain ⟨hsize, hsame⟩ := getElem?_spawn_of_lt plan es (some vehicle)
    rw [seat]
    dsimp only
    obtain ⟨hsize', hsame'⟩ := getElem?_seat_of_lt rest
      ((spawn es (some vehicle) plan).1.modify vehicle fun e =>
        { e with passengers := e.passengers ++ [(spawn es (some vehicle) plan).2] }) vehicle
    rw [Array.size_modify] at hsize' hsame'
    refine ⟨by omega, fun i hi hne => ?_⟩
    rw [hsame' i (by omega) hne, Array.getElem?_modify, if_neg (Ne.symm hne), hsame i hi]

end

/-! ### The dead -/

variable {w₀ w w' : World} {caller executor : Option Nat} {id : Nat}

/-- What was dead in the world `w₀` is as it was there, but for results that functions have kept in
the data of the caller. -/
structure Undisturbed (w₀ : World) (caller : Option Nat) (w : World) : Prop where
  /-- The functions are the same. -/
  functions : w.functions = w₀.functions
  /-- The entities agree on who rides whom. -/
  tied : Tied [] w.entities
  /-- The dead have changed in this way only. -/
  dead : ∀ i e, w₀.entity? i = some e → e.alive = false →
    ∃ data, w.entity? i = some { e with data := data } ∧
      Compound.Stored (fun key => caller = some i ∧ w₀.StoresUnder key) e.data data

/-- At the start nothing has happened to the dead. -/
theorem undisturbed_self (h : Tied [] w.entities) : Undisturbed w caller w :=
  ⟨rfl, h, fun _ e he _ => ⟨e.data, he, .refl⟩⟩

namespace Undisturbed

/-- What does not change entities or functions disturbs nothing. -/
theorem of_entities (h : Undisturbed w₀ caller w) (hfunctions : w'.functions = w.functions)
    (hentities : w'.entities = w.entities) : Undisturbed w₀ caller w' := by
  refine ⟨hfunctions.trans h.functions, hentities ▸ h.tied, fun i e he hdead => ?_⟩
  obtain ⟨data, hdata, hstored⟩ := h.dead i e he hdead
  refine ⟨data, ?_, hstored⟩
  unfold entity? at hdata ⊢
  rwa [hentities]

/-- What is alive was not dead. -/
theorem not_isRemoved (h : Undisturbed w₀ caller w) {e : Entity} (he : w.entity? id = some e)
    (halive : e.alive = true) : ¬ w₀.IsRemoved id := by
  rintro ⟨e₀, he₀, hdead⟩
  obtain ⟨data, hdata, -⟩ := h.dead id e₀ he₀ hdead
  rw [hdata] at he
  obtain rfl := Option.some.inj he
  exact absurd (halive.symm.trans hdead) (by decide)

/-- What lives stands at the place of its number and was not dead. -/
theorem of_lives (h : Undisturbed w₀ caller w) (hlives : (Owner.entity id).Lives w) :
    ¬ w₀.IsRemoved id ∧ id < w.entities.size := by
  obtain ⟨e, hmem, hid, halive⟩ := hlives
  obtain ⟨place, hplace⟩ := Array.getElem?_of_mem hmem
  obtain rfl : place = id := (h.tied.numbered place e hplace).symm.trans hid
  exact ⟨h.not_isRemoved hplace halive, (Array.getElem?_eq_some_iff.1 hplace).1⟩

/-- What was not dead may change. -/
theorem modify (h : Undisturbed w₀ caller w) (hid : ¬ w₀.IsRemoved id) {f : Entity → Entity}
    (hf : ∀ e, (f e).ties = e.ties) : Undisturbed w₀ caller (w.modifyEntity id f) := by
  refine ⟨h.functions, h.tied.modify hf, fun i e he hdead => ?_⟩
  obtain ⟨data, hdata, hstored⟩ := h.dead i e he hdead
  refine ⟨data, ?_, hstored⟩
  have hne : i ≠ id := by
    rintro rfl
    exact hid ⟨e, he, hdead⟩
  rwa [entity?_modifyEntity, if_neg hne]

/-- A result is kept in the data of the caller. -/
theorem store (h : Undisturbed w₀ (some id) w) {key : String} (hkey : w₀.StoresUnder key)
    (value : Int32) : Undisturbed w₀ (some id)
      (w.modifyEntity id fun e => { e with data := e.data.insert key (.int value) }) := by
  have htied := h.tied.modify (i := id)
    (f := fun e => { e with data := e.data.insert key (.int value) }) fun _ => rfl
  refine ⟨h.functions, htied, fun i e he hdead => ?_⟩
  obtain ⟨data, hdata, hstored⟩ := h.dead i e he hdead
  by_cases hi : i = id
  · refine ⟨data.insert key (.int value), ?_, hstored.tail ⟨key, value, ⟨hi ▸ rfl, hkey⟩, rfl⟩⟩
    rw [entity?_modifyEntity, if_pos hi, hdata]
    rfl
  · refine ⟨data, ?_, hstored⟩
    rwa [entity?_modifyEntity, if_neg hi]

/-- New entities come behind the dead. -/
theorem create (h : Undisturbed w₀ caller w) (plan : EntityPlan) :
    Undisturbed w₀ caller { w with entities := (spawn w.entities none plan).1 } := by
  refine ⟨h.functions, (Change.create plan).tied h.tied, fun i e he hdead => ?_⟩
  obtain ⟨data, hdata, hstored⟩ := h.dead i e he hdead
  refine ⟨data, ?_, hstored⟩
  have hlt : i < w.entities.size := (Array.getElem?_eq_some_iff.1 hdata).1
  exact ((getElem?_spawn_of_lt plan w.entities none).2 i hlt).trans hdata

/-- Removing an entity does not reach those that are dead already: they ride nothing, and nothing
rides them. -/
theorem kill (h : Undisturbed w₀ caller w) (id : Nat) : Undisturbed w₀ caller (w.kill id) := by
  refine ⟨(Change.remove id).runsAlike.functions.trans h.functions, (Change.remove id).tied h.tied,
    fun i e he hdead => ?_⟩
  obtain ⟨data, hdata, hstored⟩ := h.dead i e he hdead
  refine ⟨data, ?_, hstored⟩
  by_cases hgone : ∃ gone, w.entity? id = some gone ∧ gone.alive = true
  · obtain ⟨gone, hget, halive⟩ := hgone
    obtain ⟨hvehicle, hpassengers⟩ := h.tied.bare i _ hdata hdead
    have hvehicle : e.vehicle = none := hvehicle
    have hpassengers : e.passengers = [] := hpassengers
    rw [entity?_kill hget halive, hdata]
    refine congrArg some ?_
    unfold leftOf
    simp only [hdead, hvehicle, hpassengers, Bool.false_and, ite_self, List.filter_nil]
  · rwa [kill_of_not_living hgone]

/-- Several changes one after the other. -/
theorem foldl {α : Type} {f : World → α → World} {items : List α} (h : Undisturbed w₀ caller w)
    (hf : ∀ a ∈ items, ∀ w, Undisturbed w₀ caller w → Undisturbed w₀ caller (f w a)) :
    Undisturbed w₀ caller (items.foldl f w) := by
  induction items generalizing w with
  | nil => exact h
  | cons a rest ih =>
    obtain ⟨ha, hrest⟩ := List.forall_mem_cons.1 hf
    exact ih (ha w h) hrest

/-- The same of changes that are counted. -/
theorem counting {f : World × Nat → Nat → World × Nat} {ids : List Nat} {x : World × Nat}
    (h : Undisturbed w₀ caller x.1)
    (hf : ∀ id ∈ ids, ∀ x : World × Nat, Undisturbed w₀ caller x.1 →
      Undisturbed w₀ caller (f x id).1) :
    Undisturbed w₀ caller (ids.foldl f x).1 := by
  induction ids generalizing x with
  | nil => exact h
  | cons id rest ih =>
    obtain ⟨hid, hrest⟩ := List.forall_mem_cons.1 hf
    exact ih (hid x h) hrest

end Undisturbed

end World

/-! ### Runs -/

open World (Change Changes Tolerates Undisturbed)

variable {α β : Type} {w₀ w : World} {caller executor : Option Nat}

/-- How a run ends that leaves the dead alone: they are undisturbed, no entity is gone for good, and
if it has asked for an entity that was never created, this is the caller. -/
structure Run.Spared (w₀ : World) (caller : Option Nat) (w : World) (r : Except SimError α)
    (w' : World) : Prop where
  /-- The dead are undisturbed. -/
  undisturbed : Undisturbed w₀ caller w'
  /-- No entity is gone for good. -/
  grows : w.entities.size ≤ w'.entities.size
  /-- No result is kept in the data of an entity that was never created, unless it is the caller. -/
  stray : ∀ id, r = .error (.strayExecutor id) →
    caller = some id ∧ w'.entities.size ≤ id ∧ ∃ key, w₀.StoresUnder key

/-- From a world with undisturbed dead, the run ends so. -/
def Run.LeavesAlone (w₀ : World) (caller : Option Nat) (x : Run α) (w : World) : Prop :=
  Undisturbed w₀ caller w → Spared w₀ caller w (Run.on x w).1 (Run.on x w).2

namespace Run.LeavesAlone

theorem nothing (a : α) : LeavesAlone w₀ caller (pure a : Run α) w :=
  fun h => ⟨h, Nat.le_refl _, nofun⟩

/-- Errors other than that for an entity that was never created are no concern here. -/
theorem failing {e : SimError} (he : ∀ id, e ≠ .strayExecutor id) :
    LeavesAlone w₀ caller (throw e : Run α) w :=
  fun h => ⟨h, Nat.le_refl _, fun id hid => absurd (Except.error.inj hid) (he id)⟩

/-- The run that follows may rely on what the first one left: the dead as they were, and no fewer
entities. -/
theorem bind {x : Run α} {f : α → Run β} (hx : LeavesAlone w₀ caller x w)
    (hf : ∀ a w', Undisturbed w₀ caller w' → w.entities.size ≤ w'.entities.size →
      LeavesAlone w₀ caller (f a) w') : LeavesAlone w₀ caller (x >>= f) w := by
  intro h
  have hfirst := hx h
  rw [on_bind]
  rcases hrun : Run.on x w with ⟨e | a, w'⟩
  · rw [hrun] at hfirst
    exact ⟨hfirst.undisturbed, hfirst.grows, fun id hid =>
      hfirst.stray id (by rw [Except.error.inj hid])⟩
  · rw [hrun] at hfirst
    have hnext := hf a w' hfirst.undisturbed hfirst.grows hfirst.undisturbed
    exact ⟨hnext.undisturbed, Nat.le_trans hfirst.grows hnext.grows, hnext.stray⟩

/-- A run, and then another one that leaves the dead alone from every world. -/
theorem andThen {x : Run α} {f : α → Run β} (hx : LeavesAlone w₀ caller x w)
    (hf : ∀ a w', LeavesAlone w₀ caller (f a) w') : LeavesAlone w₀ caller (x >>= f) w :=
  hx.bind fun a w' _ _ => hf a w'

/-- A run that looks at the world first. -/
theorem looking {f : World → Run β} (h : LeavesAlone w₀ caller (f w) w) :
    LeavesAlone w₀ caller (get >>= f) w := by
  unfold LeavesAlone
  rw [on_bind_ok (on_get w)]
  exact h

/-- A run that changes the world first. -/
theorem changing {g : World → World} {x : PUnit → Run β}
    (hg : Undisturbed w₀ caller w → Undisturbed w₀ caller (g w)) (hchanges : Changes w (g w))
    (hx : LeavesAlone w₀ caller (x ⟨⟩) (g w)) : LeavesAlone w₀ caller (modify g >>= x) w := by
  intro h
  rw [on_bind_ok (on_modify g w)]
  have hnext := hx (hg h)
  have hgrows : w.entities.size ≤ (g w).entities.size := Changes.size_le hchanges h.tied
  exact ⟨hnext.undisturbed, Nat.le_trans hgrows hnext.grows, hnext.stray⟩

/-- A run that changes neither entities nor functions first. -/
theorem changing_other {g : World → World} {x : PUnit → Run β}
    (hfunctions : (g w).functions = w.functions) (hentities : (g w).entities = w.entities)
    (hx : LeavesAlone w₀ caller (x ⟨⟩) (g w)) : LeavesAlone w₀ caller (modify g >>= x) w := by
  intro h
  rw [on_bind_ok (on_modify g w)]
  have hnext := hx (h.of_entities hfunctions hentities)
  exact ⟨hnext.undisturbed, hentities ▸ hnext.grows, hnext.stray⟩

/-- Looking for an objective disturbs no one. -/
theorem requireObjective (objective : String) :
    LeavesAlone w₀ caller (World.requireObjective objective) w := by
  refine .looking ?_
  split
  · exact .failing nofun
  · exact .nothing _

/-! ### Scores -/

theorem updateOwners {objective : String} {f : Option Int32 → Int32} {owners : List Owner}
    {last : Outcome} : LeavesAlone w₀ caller (World.updateOwners objective f owners last) w := by
  induction owners generalizing w last with
  | nil => exact .nothing _
  | cons o rest ih => exact .looking (.changing_other rfl rfl ih)

/-- Scores are no part of an entity. -/
theorem updateScores {h : Holder} {objective : String} {f : Option Int32 → Int32} :
    LeavesAlone w₀ caller (World.updateScores h objective executor f) w :=
  (requireObjective objective).andThen fun _ _ => .looking updateOwners

theorem combineFrom {target : Owner} {targetObjective objective : String} {op : ScoreOp}
    {sources : List Owner} {last : Outcome} :
    LeavesAlone w₀ caller
      (World.combineFrom target targetObjective op objective sources last) w := by
  induction sources generalizing w last with
  | nil => exact .nothing _
  | cons source rest ih => exact .looking (.changing_other (g := fun _ => _) rfl rfl ih)

/-- Combining scores changes scores only. -/
theorem combineAll {targetObjective objective : String} {op : ScoreOp}
    {sources targets : List Owner} {last : Outcome} :
    LeavesAlone w₀ caller
      (World.combineAll targetObjective op sources objective targets last) w := by
  induction targets generalizing w last with
  | nil => exact .nothing _
  | cons target rest ih => exact combineFrom.andThen fun _ _ => ih

/-! ### Entities -/

/-- Tags are given to entities that were not dead at first. -/
theorem addTags {ids : List Nat} {tag : String} (hids : ∀ id ∈ ids, ¬ w₀.IsRemoved id) :
    LeavesAlone w₀ caller (do
      set (w.addTags ids tag).1
      return .ofCount (w.addTags ids tag).2 : Run Outcome) w := by
  refine .changing (g := fun _ => _) (fun h => ?_) (Changes.tolerates.addTags ids trivial)
    (.nothing _)
  refine Undisturbed.counting (x := (w, 0)) h fun id hid x hx => ?_
  dsimp only
  split
  · exact hx
  · exact hx.modify (hids id hid) fun _ => rfl

/-- Tags are taken from such entities as well. -/
theorem removeTags {ids : List Nat} {tag : String} (hids : ∀ id ∈ ids, ¬ w₀.IsRemoved id) :
    LeavesAlone w₀ caller (do
      set (w.removeTags ids tag).1
      return .ofCount (w.removeTags ids tag).2 : Run Outcome) w := by
  refine .changing (g := fun _ => _) (fun h => ?_) (Changes.tolerates.removeTags ids tag)
    (.nothing _)
  refine Undisturbed.counting (x := (w, 0)) h fun id hid x hx => ?_
  dsimp only
  split
  · exact hx.modify (hids id hid) fun _ => rfl
  · exact hx

/-- Such entities may be changed in any way that keeps their ties. -/
theorem changeEntities {ids : List Nat} {f : Entity → Entity} (hids : ∀ id ∈ ids, ¬ w₀.IsRemoved id)
    (hf : ∀ e, (f e).ties = e.ties) : LeavesAlone w₀ caller (World.changeEntities ids f) w :=
  .changing (fun h => h.foldl fun id hid _ hw => hw.modify (hids id hid) hf)
    (Tolerates.foldl (R := Changes) (fun id _ _ => (Change.alter id f hf).once) w) (.nothing _)

/-! ### The executing entity -/

/-- A run as an entity may keep results under these keys in its data: the run goes as the caller and
functions keep results under these keys, or it goes as an entity that is there and was not dead. -/
def MayStore (w₀ : World) (caller : Option Nat) (w : World) (keys : String → Prop)
    (executor : Option Nat) : Prop :=
  executor = caller ∧ (∀ key, keys key → w₀.StoresUnder key) ∨
    ∃ id, executor = some id ∧ ¬ w₀.IsRemoved id ∧ id < w.entities.size

/-- Entities are never taken off the list, and fewer keys are allowed all the more. -/
theorem MayStore.mono {keys keys' : String → Prop} {w' : World}
    (h : MayStore w₀ caller w keys executor) (hgrows : w.entities.size ≤ w'.entities.size)
    (hkeys : ∀ key, keys' key → keys key) : MayStore w₀ caller w' keys' executor := by
  obtain ⟨hcaller, hstores⟩ | ⟨id, hid, hnot, hlt⟩ := h
  · exact .inl ⟨hcaller, fun key hkey => hstores key (hkeys key hkey)⟩
  · exact .inr ⟨id, hid, hnot, Nat.lt_of_lt_of_le hlt hgrows⟩

/-- A function that is called runs as the same entity. -/
theorem MayStore.call {keys : String → Prop} (h : MayStore w₀ caller w keys executor) :
    MayStore w₀ caller w w₀.StoresUnder executor :=
  h.imp_left fun hcaller => ⟨hcaller.1, fun _ hkey => hkey⟩

/-- Storing a result: the caller may be dead or not there at all, every other executor is
alive. -/
theorem storeInEntity {path : String} {value : Int32} {keys : String → Prop} (hpath : keys path)
    (hmay : MayStore w₀ caller w keys executor) :
    LeavesAlone w₀ caller (World.storeInEntity executor path value) w := by
  cases executor with
  | none => exact .nothing _
  | some id =>
    intro h
    have hchanges : Changes w
        (w.modifyEntity id fun e => { e with data := e.data.insert path (.int value) }) :=
      (Change.alter id (fun e => { e with data := e.data.insert path (.int value) }) fun _ =>
        rfl).once
    refine LeavesAlone.looking ?_ h
    -- either the run goes as the caller, or as an entity that is there
    obtain ⟨rfl, hstores⟩ | ⟨_, ⟨rfl⟩, hnot, hlt⟩ := hmay
    · split
      · -- the caller was never created
        next hnone =>
        refine fun h => ⟨h, Nat.le_refl _, fun j hj => ?_⟩
        obtain rfl : id = j := SimError.strayExecutor.inj (Except.error.inj hj)
        exact ⟨rfl, Array.getElem?_eq_none_iff.1 (Option.isNone_iff_eq_none.1 hnone), path,
          hstores path hpath⟩
      · exact .changing (fun h => h.store (hstores path hpath) value) hchanges (.nothing _)
    · split
      · next hnone =>
        have hnone : w.entities[id]? = none := Option.isNone_iff_eq_none.1 hnone
        exact absurd (Array.getElem?_eq_none_iff.1 hnone) (Nat.not_le.2 hlt)
      · refine .changing (fun h => ?_) hchanges (.nothing _)
        exact h.modify (f := fun e => { e with data := e.data.insert path (.int value) }) hnot
          fun _ => rfl

/-! ### Clauses, commands and functions -/

/-- Going on as entities that are there and were not dead. -/
theorem fork {go : Option Nat → Run Outcome} {ids : List Nat} {succeeded : Nat}
    (hids : ∀ id ∈ ids, ¬ w₀.IsRemoved id ∧ id < w.entities.size)
    (hgo : ∀ id w', ¬ w₀.IsRemoved id → id < w'.entities.size →
      LeavesAlone w₀ caller (go (some id)) w') :
    LeavesAlone w₀ caller (World.fork go ids succeeded) w := by
  induction ids generalizing w succeeded with
  | nil => exact .nothing _
  | cons id rest ih =>
    obtain ⟨⟨hnot, hlt⟩, hrest⟩ := List.forall_mem_cons.1 hids
    refine (hgo id w hnot hlt).bind fun _ w' _ hgrows => ih fun id' hid' => ?_
    obtain ⟨hnot', hlt'⟩ := hrest id' hid'
    exact ⟨hnot', Nat.lt_of_lt_of_le hlt' hgrows⟩

/-- Behind the clauses runs whoever they lead to; all but the caller were found alive. -/
theorem runClauses {behind : Option Nat → Run Outcome} {keys : String → Prop}
    (hbehind : ∀ executor w', MayStore w₀ caller w' keys executor →
      LeavesAlone w₀ caller (behind executor) w')
    {clauses : List Clause}
    (hmay : MayStore w₀ caller w (fun key => Clause.Stores keys key clauses) executor) :
    LeavesAlone w₀ caller (World.runClauses behind clauses executor) w := by
  induction clauses generalizing w executor with
  | nil => exact hbehind executor w hmay
  | cons clause rest ih =>
    -- a test goes on as the same entity
    have hguard : ∀ (b : Bool) w',
        MayStore w₀ caller w' (fun key => Clause.Stores keys key rest) executor →
        LeavesAlone w₀ caller
          (if b then World.runClauses behind rest executor else pure none) w' := by
      intro b w' hrest
      cases b
      · exact .nothing _
      · exact ih hrest
    -- a branch goes on as entities that were not dead
    have hfork : ∀ id w', ¬ w₀.IsRemoved id → id < w'.entities.size →
        LeavesAlone w₀ caller (World.runClauses behind rest (some id)) w' :=
      fun id w' hnot hlt => ih (.inr ⟨id, rfl, hnot, hlt⟩)
    cases clause with
    | score negate holder objective range =>
      refine (requireObjective objective).bind fun _ w' _ hgrows => .looking (hguard _ w' ?_)
      exact hmay.mono hgrows fun _ hkey => hkey
    | entity negate selector => exact .looking (hguard _ w hmay)
    | asEach selector =>
      intro h
      exact LeavesAlone.looking
        (fork (fun id hid => h.of_lives (World.lives_of_mem_select hid)) hfork) h
    | onPassengers =>
      intro h
      refine LeavesAlone.looking (fork (fun id hid => ?_) hfork) h
      obtain ⟨v, -, hid⟩ := List.mem_flatMap.1 hid
      obtain ⟨e, he, rfl⟩ := List.mem_map.1 hid
      exact h.of_lives (World.lives_of_mem_passengers he)
    | atEach | positionedLocal | rotatedRelative => exact ih hmay
    -- the result is stored as the entity that the clause started as
    | storeResultEntity path =>
      refine (ih (hmay.mono (Nat.le_refl _) fun key hkey => .inr hkey)).bind fun _ w' _ hgrows => ?_
      have hown : MayStore w₀ caller w' (path = ·) executor :=
        hmay.mono hgrows fun key hkey => .inl hkey
      exact (storeInEntity rfl hown).andThen fun _ _ => .nothing _
    | storeResultScore holder objective =>
      exact (ih hmay).andThen fun _ _ => updateScores.andThen fun _ _ => .nothing _
    | raw condition => exact .looking (hguard _ w hmay)

/-- Every command disturbs the dead no more than the functions do that it calls. -/
theorem runCommand {call : FunctionPath → Option Nat → Run Outcome}
    (hcall : ∀ path executor w', MayStore w₀ caller w' w₀.StoresUnder executor →
      LeavesAlone w₀ caller (call path executor) w') {c : Command}
    (hmay : MayStore w₀ caller w c.Stores executor) :
    LeavesAlone w₀ caller (World.runCommand call c executor) w := by
  -- selectors find the living only
  have hselected {w : World} {executor : Option Nat} {s : Selector} (h : Undisturbed w₀ caller w) :
      ∀ id ∈ w.select s executor, ¬ w₀.IsRemoved id :=
    fun id hid => (h.of_lives (World.lives_of_mem_select hid)).1
  induction c generalizing w executor with
  | comment text => exact .nothing _
  | objectiveAdd name =>
    refine .looking ?_
    split
    · exact .nothing _
    · exact .changing_other (g := fun _ => _) rfl rfl (.nothing _)
  | scoreSet | scoreAdd | scoreRemove => exact updateScores
  | scoreOperation target targetObjective op source sourceObjective =>
    refine (requireObjective targetObjective).andThen fun _ _ => ?_
    exact (requireObjective sourceObjective).andThen fun _ _ => .looking combineAll
  | scoreGet holder objective =>
    exact (requireObjective objective).andThen fun _ _ => .looking (.nothing _)
  | scoreReset holder objective => exact .looking (.changing_other rfl rfl (.nothing _))
  | tagAdd target tag => exact fun h => LeavesAlone.looking (addTags (hselected h)) h
  | tagRemove target tag => exact fun h => LeavesAlone.looking (removeTags (hselected h)) h
  | function path => exact hcall path executor w hmay.call
  -- what the command stores is what its clauses store
  | execute clauses run ih =>
    have hclauses :
        MayStore w₀ caller w (fun key => Clause.Stores run.Stores key clauses) executor :=
      hmay
    exact runClauses (fun _ _ hrun => ih hrun) hclauses
  | dataMerge target data =>
    exact fun h => LeavesAlone.looking (changeEntities (hselected h) fun _ => rfl) h
  | teleport target offset yaw pitch =>
    exact fun h => LeavesAlone.looking (changeEntities (hselected h) fun _ => rfl) h
  | summon entityType data =>
    exact .changing (fun h => h.create _) (Change.create _).once (.nothing _)
  | kill selector =>
    refine .looking (.changing (fun h => h.foldl fun id _ _ hw => hw.kill id) ?_ (.nothing _))
    exact Tolerates.foldl (R := Changes) (fun id _ _ => (Change.remove id).once) w
  | raw text => exact .changing_other rfl rfl (.nothing _)

/-- Commands in a row; the entities grow in number from one to the next. -/
theorem runAll {run : Command → Run Outcome} {cs : List Command}
    (hrun : ∀ c ∈ cs, ∀ w', w.entities.size ≤ w'.entities.size → LeavesAlone w₀ caller (run c) w') :
    LeavesAlone w₀ caller (World.runAll run cs) w := by
  induction cs generalizing w with
  | nil => exact .nothing _
  | cons c rest ih =>
    obtain ⟨hc, hrest⟩ := List.forall_mem_cons.1 hrun
    refine (hc w (Nat.le_refl _)).bind fun _ w' _ hgrows => ih fun c' hc' w'' hgrows' => ?_
    exact hrest c' hc' w'' (Nat.le_trans hgrows hgrows')

/-- Whatever a function does, however deep it calls others and however it ends. -/
theorem callFunction (depth : Nat) (path : FunctionPath)
    (hmay : MayStore w₀ caller w w₀.StoresUnder executor) :
    LeavesAlone w₀ caller (World.callFunction depth path executor) w := by
  induction depth generalizing path executor w with
  | zero => exact .looking (.failing nofun)
  | succ depth ih =>
    intro h
    refine LeavesAlone.looking ?_ h
    split
    · exact .failing nofun
    · next body hbody =>
      refine (runAll fun c hc w' hgrows => ?_).andThen fun _ _ => .nothing _
      refine runCommand (fun path executor w'' hmay => ih path hmay) (hmay.imp ?_ ?_)
      · rintro ⟨rfl, -⟩
        refine ⟨rfl, fun key hkey => ⟨path, body, ?_, c, hc, hkey⟩⟩
        rw [← h.functions]
        exact hbody
      · rintro ⟨id, hid, hnot, hlt⟩
        exact ⟨id, hid, hnot, Nat.lt_of_lt_of_le hlt hgrows⟩

end Run.LeavesAlone

/-- Every run of a function leaves the dead alone, but for results in the data of its caller. -/
theorem World.leavesAlone_run (w : World) (path : FunctionPath) (caller : Option Nat) :
    Run.LeavesAlone w caller (run path caller) w := by
  refine .looking ((Run.LeavesAlone.callFunction _ path ?_).andThen fun _ _ => .nothing _)
  exact .inl ⟨rfl, fun _ hkey => hkey⟩

end Marionette
