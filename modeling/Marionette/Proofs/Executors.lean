import Marionette.Proofs.Isolation.Roots
import Marionette.Proofs.World.Bystanders
import Marionette.Proofs.World.Limits

/-!
# Runs as entities that are not alive

A caller may run a function as any number: that of an entity that is alive, dead or was never
created.  Only one kind of clause can tell: it keeps a result in the data of the executing entity,
and it does so without a look at whether there is one or whether it is alive.  Everything else in a
run goes through selectors and passengers, which pick living entities only.

- `World.Reached`: worlds of a pack, whatever callers do to them.
- `World.InRange`: the entities that a world refers to are there.
- `World.IsInert`: runs as the dead and as what was never created change nothing that is dead, and
  stop at no entity that is not there.
- `World.spares_dead`: what a run can do to the dead, and when it stops at an entity that is not
  there.
- `World.isInert_of_not_storesUnder`: worlds without such clauses are inert.
- `World.not_isInert_yard`: others need not be.
- `isInert_of_compile`: all worlds of what is compiled are inert.
-/

namespace Marionette

namespace World

/-- Worlds that come from a pack by whatever callers do in any order, also as entities that are dead
or were never created: deeds, answers to conditions, taking recorded commands out, and other limits
for the depth of calls. -/
inductive Reached (pack : Datapack) : World → Prop where
  | start {w : World} (h : ofPack pack = .ok w) : Reached pack w
  | deed {w : World} (h : Reached pack w) (d : Deed) : Reached pack (Run.on d.act w).2
  | answer {w : World} (h : Reached pack w) (condition : String) (passes : Bool) :
    Reached pack (w.setCondition condition passes)
  | take {w : World} (h : Reached pack w) : Reached pack w.takeOutput.2
  | limit {w : World} (h : Reached pack w) (m : Nat) : Reached pack (w.limited m)

/-- All entities that the world refers to are there: those that selectors pick, the vehicles and the
passengers. -/
structure InRange (w : World) : Prop where
  selected : ∀ s executor id, id ∈ w.select s executor → id < w.entities.size
  vehicle : ∀ i e v, w.entity? i = some e → e.vehicle = some v → v < w.entities.size
  passengers : ∀ i e p, w.entity? i = some e → p ∈ e.passengers → p < w.entities.size

/-- Whoever runs a function, it stops at no entity that was never created and leaves every entity
that is dead as it is. -/
def IsInert (w : World) : Prop :=
  ∀ path executor r w', Run.on (run path executor) w = (r, w') →
    (∀ id, r ≠ .error (.strayExecutor id)) ∧
      ∀ i e, w.entity? i = some e → e.alive = false → w'.entity? i = some e

variable {pack : Datapack} {w w' : World}

/-! ### Reached worlds -/

/-- A score that is set from outside changes no entity and no function. -/
theorem entities_setScore (w : World) (id : Nat) (objective : String) (value : Int32) :
    (Run.on (setScore id objective value) w).2.entities = w.entities ∧
      (Run.on (setScore id objective value) w).2.functions = w.functions := by
  unfold setScore
  cases ho : w.hasObjective objective with
  | true =>
    rw [Run.on_bind_ok (on_requireObjective ho)]
    exact ⟨rfl, rfl⟩
  | false =>
    rw [Run.on_bind, on_requireObjective_of_not ho]
    exact ⟨rfl, rfl⟩

/-- A deed leaves the entities in agreement on who rides whom, and the functions as they are. -/
theorem tied_act (d : Deed) (h : Tied [] w.entities) :
    Tied [] (Run.on d.act w).2.entities ∧ (Run.on d.act w).2.functions = w.functions := by
  have hmakes (hfair : d.IsFair w) :
      Tied [] (Run.on d.act w).2.entities ∧ (Run.on d.act w).2.functions = w.functions := by
    have hchanges : Changes w (Run.on d.act w).2 := makes_act hfair
    exact ⟨hchanges.tied h, hchanges.runsAlike.functions⟩
  cases d with
  | load | tick | summon => exact hmakes trivial
  | run path executor =>
    have hchanges : Changes w (Run.on (run path executor) w).2 := makes_run path
    exact ⟨hchanges.tied h, hchanges.runsAlike.functions⟩
  | setScore id objective value =>
    obtain ⟨hentities, hfunctions⟩ := entities_setScore w id objective value
    exact ⟨(congrArg (Tied []) hentities).mpr h, hfunctions⟩

namespace Reached

theorem tied (h : Reached pack w) : Tied [] w.entities := by
  induction h with
  | start h => exact (consistent_ofPack h).tied
  | deed _ d ih => exact (tied_act d ih).1
  | answer _ _ _ ih | take _ ih | limit _ _ ih => exact ih

/-- The functions of the world are those of the pack. -/
theorem mem_functions (h : Reached pack w) {path : FunctionPath} {body : List Command}
    (hbody : w.functions[path]? = some body) : (path, body) ∈ pack.functions := by
  induction h with
  | start h => exact mem_functions_of_ofPack h hbody
  | deed h d ih =>
    rw [(tied_act d h.tied).2] at hbody
    exact ih hbody
  | answer _ _ _ ih | take _ ih | limit _ _ ih => exact ih hbody

end Reached

/-- Entities that agree on who rides whom refer to entities that are there. -/
theorem inRange_of_tied (h : Tied [] w.entities) : w.InRange := by
  constructor
  case selected =>
    intro s executor id hid
    have hself : Undisturbed w none w := undisturbed_self h
    exact (hself.of_lives (lives_of_mem_select hid)).2
  case vehicle =>
    intro i e v he hv
    obtain ⟨-, carrier, hcarrier, -⟩ := h.mounted i e v he hv
    exact (Array.getElem?_eq_some_iff.1 hcarrier).1
  case passengers =>
    intro i e p he hp
    have hcount := h.listed i e he p
    have hpositive := List.count_pos_iff.2 hp
    split at hcount
    · next hrides =>
      obtain ⟨rider, hrider, -⟩ := Option.bind_eq_some_iff.1 hrides.1
      exact (Array.getElem?_eq_some_iff.1 hrider).1
    · omega

/-! ### What a run can do to the dead -/

/-- Whoever runs a function, all entities that the run refers to are there, with one exception: it
stops if it has to keep a result in the data of its caller, and the caller has not been created by
then.  Every entity that was dead is as it was, also if the run stops, with one exception: if it is
the caller and functions keep results in the data of the entity that they run as, these results have
been put into its data, under their keys. -/
theorem spares_dead (hw : Reached pack w) {path : FunctionPath} {executor : Option Nat}
    {r : Except SimError Unit} (hrun : Run.on (run path executor) w = (r, w')) :
    (∀ u, Changes w u → u.InRange) ∧
      (∀ id, r = .error (.strayExecutor id) → executor = some id ∧ w.entity? id = none ∧
        w'.entity? id = none ∧ ∃ key, w.StoresUnder key) ∧
      ∀ i e, w.entity? i = some e → e.alive = false →
        (executor ≠ some i ∨ (∀ key, ¬ w.StoresUnder key) → w'.entity? i = some e) ∧
          ∃ data, w'.entity? i = some { e with data := data } ∧
            Compound.Stored w.StoresUnder e.data data := by
  have hspared := leavesAlone_run w path executor (undisturbed_self hw.tied)
  rw [hrun] at hspared
  refine ⟨fun u hu => inRange_of_tied (hu.tied hw.tied), fun id hid => ?_, fun i e he hdead => ?_⟩
  · obtain ⟨hcaller, hsize, hkey⟩ := hspared.stray id hid
    exact ⟨hcaller, Array.getElem?_eq_none (Nat.le_trans hspared.grows hsize),
      Array.getElem?_eq_none hsize, hkey⟩
  · obtain ⟨data, hdata, hstored⟩ := hspared.undisturbed.dead i e he hdead
    refine ⟨fun hother => ?_, data, hdata, hstored.mono fun _ hkey => hkey.2⟩
    rw [hdata, hstored.eq fun key hkey => ?_]
    obtain hother | hnone := hother
    · exact hother hkey.1
    · exact hnone key hkey.2

/-- A world in which no function keeps results in the data of the entity that it runs
as is inert. -/
theorem isInert_of_not_storesUnder (hw : Reached pack w) (h : ∀ key, ¬ w.StoresUnder key) :
    w.IsInert := by
  intro path executor r w' hrun
  have hspared := leavesAlone_run w path executor (undisturbed_self hw.tied)
  rw [hrun] at hspared
  refine ⟨fun id hid => ?_, fun i e he hdead => ?_⟩
  · obtain ⟨-, -, key, hkey⟩ := hspared.stray id hid
    exact h key hkey
  · obtain ⟨data, hdata, hstored⟩ := hspared.undisturbed.dead i e he hdead
    rw [hdata, hstored.eq fun key hkey => h key hkey.2]

/-! ### A yard with a dead pig -/

/-- A function of one command ends as the command does. -/
theorem on_run_single {d : Nat} {c : Command} {path : FunctionPath} {executor : Option Nat}
    {r : Except SimError Outcome} (hdepth : w.maxDepth = d + 1)
    (hbody : w.functions[path]? = some [c])
    (hrun : Run.on (runCommand (callFunction d) c executor) w = (r, w')) :
    Run.on (run path executor) w = (r.map fun _ => (), w') := by
  show Run.on (get >>= fun w => callFunction w.maxDepth path executor >>= fun _ => pure ()) w = _
  rw [Run.on_bind_ok (Run.on_get w), hdepth]
  have hcall : Run.on (callFunction (d + 1) path executor) w =
      (r.map fun _ => some (Int32.ofNat 1), w') := by
    show Run.on (Bind.bind (get : Run World) _) w = _
    rw [Run.on_bind_ok (Run.on_get w), hbody]
    have hall : Run.on (runAll (fun c => runCommand (callFunction d) c executor) [c]) w =
        (r.map fun _ => (), w') := by
      show Run.on (runCommand (callFunction d) c executor >>= fun _ => pure ()) w = _
      rw [Run.on_bind, hrun]
      cases r <;> rfl
    show Run.on (runAll (fun c => runCommand (callFunction d) c executor) [c] >>= fun _ =>
      pure _) w = _
    rw [Run.on_bind, hall]
    cases r <;> rfl
  rw [Run.on_bind, hcall]
  cases r <;> rfl

/-- Keeping a result stops at an entity that is not there, and otherwise changes its data, alive or
not. -/
theorem on_storeInEntity (w : World) (id : Nat) (key : String) (value : Int32) :
    Run.on (storeInEntity (some id) key value) w =
      if (w.entity? id).isNone then (.error (.strayExecutor id), w)
      else (.ok (), w.modifyEntity id fun e =>
        { e with data := e.data.insert key (.int value) }) := by
  show Run.on (Bind.bind (get : Run World) _) w = _
  rw [Run.on_bind_ok (Run.on_get w)]
  dsimp only
  cases (w.entity? id).isNone <;> rfl

/-- The executing entity keeps the result of a command of the author. -/
theorem on_store_raw {call : FunctionPath → Option Nat → Run Outcome} {key text : String} {id : Nat}
    {w₁ : World} {r : Except SimError Unit}
    (h : Run.on (storeInEntity (some id) key 1)
      { w with output := w.output.push ⟨some id, text⟩ } = (r, w₁)) :
    Run.on (runCommand call (.execute [.storeResultEntity key] (.raw text)) (some id)) w =
      (r.map fun _ => some 1, w₁) := by
  show Run.on (storeInEntity (some id) key 1 >>= fun _ => pure (some 1))
    { w with output := w.output.push ⟨some id, text⟩ } = _
  rw [Run.on_bind, h]
  cases r <;> rfl

/-- The functions of a yard: a pig is summoned and removed at once, and the executing entity keeps a
result. -/
def yardFunctions : List GeneratedFunction :=
  [(⟨"yard", "round"⟩, [.summon "pig" [], .kill (Selector.entities.ofType "pig")]),
    (⟨"yard", "count"⟩, [.execute [.storeResultEntity "seen"] (.raw "say hello")])]

/-- The pig when it is dead. -/
def deadPig : Entity := { id := 0, entityType := "pig", alive := false }

/-- In a world of these functions there can be a dead pig and nothing else. -/
theorem exists_yard : ∃ (pack : Datapack) (w : World), Reached pack w ∧
    (∀ f ∈ yardFunctions, w.functions[f.1]? = some f.2) ∧ w.maxDepth = 511 + 1 ∧
    w.entities = #[deadPig] := by
  have hdistinct : ((Datapack.functionFiles yardFunctions).map (·.1)).Nodup := by decide
  obtain ⟨pack, hholds⟩ : ∃ pack : Datapack, pack.Holds (Datapack.functionFiles yardFunctions) :=
    (Datapack.holds_empty.exists_addFiles hdistinct).imp fun _ h => h.2
  have hnamed := Datapack.isNamed_functionFiles yardFunctions
  -- no tag file is in the pack
  have hnotag : ∀ name, tagFile name ∉ (Datapack.functionFiles yardFunctions).map (·.1) →
      readTag pack name = .ok [] := by
    intro name hname
    have hget : pack.get? (tagFile name) = none := by
      rw [Option.eq_none_iff_forall_ne_some]
      intro file hfile
      exact hname (List.mem_map_of_mem ((hholds _ file).1 hfile))
    unfold readTag
    dsimp only
    rw [hget]
  obtain ⟨w₀, hw₀⟩ : ∃ w₀, ofPack pack = .ok w₀ := by
    unfold ofPack
    rw [hnotag "tick" (by decide), hnotag "load" (by decide)]
    exact ⟨_, rfl⟩
  have hbody : ∀ f ∈ yardFunctions, w₀.functions[f.1]? = some f.2 := fun f hf =>
    functions_ofPack _ hholds hnamed hw₀ (List.mem_map_of_mem hf)
  obtain ⟨ticks, loads, -, -, hnew⟩ := ofPack_eq hw₀
  have hround : Does 1 (.function ⟨"yard", "round"⟩) none w₀ fun w =>
      w.functions = w₀.functions ∧ w.maxDepth = 511 + 1 ∧ w.entities = #[deadPig] := by
    -- the function summons a pig and kills it, and both steps can be followed
    refine Does.function (hbody _ List.mem_cons_self) (DoesAll.cons ?_)
    refine Leads.of_on rfl (DoesAll.cons ?_)
    refine Leads.bind_on (Run.on_get _) (Leads.of_on rfl (DoesAll.nil ?_))
    rw [hnew]
    exact ⟨rfl, rfl, rfl⟩
  have hdepth : w₀.maxDepth = defaultMaxDepth := by rw [hnew]
  obtain ⟨-, w, hrun, hfunctions, hmax, hentities⟩ := Leads.run_on hround (by rw [hdepth]; decide)
  refine ⟨pack, w, ?_, fun f hf => ?_, hmax, hentities⟩
  · have hreached := (Reached.start hw₀).deed (.run ⟨"yard", "round"⟩ none)
    rwa [show Run.on (Deed.act (.run ⟨"yard", "round"⟩ none)) w₀ = (.ok (), w) from hrun]
      at hreached
  · rw [hfunctions]
    exact hbody f hf

/-- A run as the dead pig puts nothing but results into its data, and as no one it leaves it as it
is. -/
theorem spares_dead_yard : ∃ (pack : Datapack) (w w₁ w₂ : World) (r₁ r₂ : Except SimError Unit),
    Reached pack w ∧ w.entity? 0 = some deadPig ∧
    Run.on (run ⟨"yard", "count"⟩ (some 0)) w = (r₁, w₁) ∧
    (∃ data, w₁.entity? 0 = some { deadPig with data := data } ∧
      Compound.Stored w.StoresUnder [] data) ∧
    Run.on (run ⟨"yard", "count"⟩ none) w = (r₂, w₂) ∧ w₂.entity? 0 = some deadPig := by
  obtain ⟨pack, w, hw, -, -, hentities⟩ := exists_yard
  have hpig : w.entity? 0 = some deadPig := by rw [entity?, hentities]; rfl
  rcases hpigs : Run.on (run ⟨"yard", "count"⟩ (some 0)) w with ⟨r₁, w₁⟩
  rcases hnoone : Run.on (run ⟨"yard", "count"⟩ none) w with ⟨r₂, w₂⟩
  obtain ⟨-, -, hown⟩ := spares_dead hw hpigs
  obtain ⟨-, -, hother⟩ := spares_dead hw hnoone
  exact ⟨pack, w, w₁, w₂, r₁, r₂, hw, hpig, hpigs, (hown 0 deadPig hpig rfl).2, hnoone,
    (hother 0 deadPig hpig rfl).1 (.inl (Option.some_ne_none 0).symm)⟩

/-- A function that keeps a result as its executing entity changes the data of a dead pig, and stops
at an entity that was never created. -/
theorem not_isInert_yard : ∃ (pack : Datapack) (w w₁ w₂ : World) (path : FunctionPath),
    Reached pack w ∧ ¬ w.IsInert ∧
    w.entity? 0 = some deadPig ∧ Run.on (run path (some 0)) w = (.ok (), w₁) ∧
    w₁.entity? 0 = some { deadPig with data := [("seen", .int 1)] } ∧
    w.entity? 1 = none ∧ Run.on (run path (some 1)) w = (.error (.strayExecutor 1), w₂) := by
  obtain ⟨pack, w, hw, hbody, hdepth, hentities⟩ := exists_yard
  have hcount := hbody _ (List.mem_cons_of_mem _ List.mem_cons_self)
  have hpig : w.entity? 0 = some deadPig := by rw [entity?, hentities]; rfl
  have hnone : w.entity? 1 = none := by rw [entity?, hentities]; rfl
  let noted (id : Nat) : World := { w with output := w.output.push ⟨some id, "say hello"⟩ }
  let stored : World :=
    (noted 0).modifyEntity 0 fun e => { e with data := e.data.insert "seen" (.int 1) }
  have hdead : Run.on (run ⟨"yard", "count"⟩ (some 0)) w = (.ok (), stored) := by
    refine on_run_single hdepth hcount (on_store_raw (r := .ok ()) ?_)
    refine (on_storeInEntity (noted 0) 0 "seen" 1).trans (if_neg ?_)
    rw [show (noted 0).entity? 0 = some deadPig from hpig]
    decide
  have hstray :
      Run.on (run ⟨"yard", "count"⟩ (some 1)) w = (.error (.strayExecutor 1), noted 1) := by
    refine on_run_single hdepth hcount (on_store_raw (r := .error (.strayExecutor 1)) ?_)
    refine (on_storeInEntity (noted 1) 1 "seen" 1).trans (if_pos ?_)
    rw [show (noted 1).entity? 1 = none from hnone]
    rfl
  have hchanged : stored.entity? 0 = some { deadPig with data := [("seen", .int 1)] } := by
    rw [entity?_modifyEntity, if_pos rfl, show (noted 0).entity? 0 = some deadPig from hpig]
    rfl
  refine ⟨pack, w, stored, noted 1, _, hw, fun hinert => ?_, hpig, hdead, hchanged, hnone, hstray⟩
  exact (hinert _ _ _ _ hstray).1 1 rfl

end World

/-! ### Worlds of compiled packs -/

theorem Command.StaysHome.not_stores {calls : FunctionPath → Prop} {tags : String → Prop}
    {rides : Bool} {c : Command} (h : c.StaysHome calls tags rides) (key : String) :
    ¬ c.Stores key := by
  induction h with
  | @quiet rides c note => cases c <;> first | exact id | cases note
  | @own c own => cases c <;> first | exact id | cases own
  | tag given => exact id
  | @look c look => cases c <;> first | exact id | cases look
  | function known => exact id
  | run _ ih => exact ih
  | @test rides clause rest run test _ ih => cases clause <;> first | exact ih | cases test
  | onPassengers _ _ => exact id

namespace Stage

variable {s : Stage} {clips : List CompiledClip}

/-- Functions of a rig keep results in the data of passengers only. -/
theorem not_stores_functions {f : GeneratedFunction} (hf : f ∈ s.functions clips) :
    ∀ c ∈ f.2, ∀ key, ¬ c.Stores key := by
  intro c hc key
  rcases functions_cases hf with hwide | rfl | hstays
  · simp only [wideFunctions, List.mem_cons, List.not_mem_nil, or_false] at hwide
    rcases hwide with rfl | rfl | rfl | rfl
    · -- at the start
      rcases loadBody_declares hc with ⟨name, rfl⟩ | ⟨text, rfl⟩ <;> exact id
    · -- a tick
      rw [List.mem_singleton.1 hc]
      exact id
    · -- summoning
      rcases List.mem_cons.1 hc with rfl | hc
      · exact id
      · rw [List.mem_singleton.1 hc]
        exact id
    · -- removing
      rcases List.mem_cons.1 hc with rfl | hc
      · exact id
      · rw [List.mem_singleton.1 hc]
        exact id
  · rcases List.mem_cons.1 hc with rfl | hc
    · exact id
    · rw [List.mem_singleton.1 hc]
      exact id
  · exact (hstays c hc).not_stores key

end Stage

/-- Whatever is compiled, in every world of its pack functions may run as any entity, dead or never
created: what is dead stays as it is, and all entities that a run refers to are there. -/
theorem isInert_of_compile (name : String) (nodes : List RigNode) (variants : List Variant)
    (animations : List Animation) (config : Config) :
    Ensures (Rig.build name nodes variants) fun rig =>
      Ensures (compile rig animations config) fun o =>
        ∀ w, World.Reached o.pack w → w.IsInert := by
  refine Ensures.intro fun rig hbuild => Ensures.intro fun o hcompile w hw => ?_
  have hrig : rig.IsBuilt := ⟨name, nodes, variants, hbuild⟩
  obtain ⟨s, rfl, rfl, hcompiles⟩ := Stage.exists_compiles hrig hcompile
  refine World.isInert_of_not_storesUnder hw ?_
  rintro key ⟨path, body, hbody, c, hc, hstores⟩
  have hmem := Stage.mem_functions_of_pack hcompiles.pack _ (hw.mem_functions hbody)
  exact Stage.not_stores_functions hmem c hc key hstores

end Marionette
