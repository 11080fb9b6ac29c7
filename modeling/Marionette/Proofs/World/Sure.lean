import Marionette.Proofs.World.Commands
import Marionette.Proofs.World.Consistency

/-!
# Commands that cannot fail

A command fails with an error only where it asks for an objective that was not created, where it
calls a function that the world does not have, or where calls go too deep.

- `Clause.objectives`, `Command.objectives`: what clauses and commands ask for themselves.
- `World.Sure`: commands that ask only for objectives that are declared, and that call only
  functions that are there and do so too, a number of levels deep.
- `World.Serves`: a world has the functions and the objectives.
- `Sure.does`: there such a command ends without an error.
-/

namespace Marionette

/-- The objectives that a clause asks for. -/
def Clause.objectives : Clause → List String
  | .score _ _ objective _ | .storeResultScore _ objective => [objective]
  | _ => []

/-- The objectives that a command asks for itself, behind no clauses. -/
def Command.objectives : Command → List String
  | .scoreSet _ objective _ | .scoreAdd _ objective _ | .scoreRemove _ objective _
  | .scoreGet _ objective => [objective]
  | .scoreOperation _ target _ _ source => [target, source]
  | _ => []

/-- A command that runs no other command. -/
def Command.isSimple : Command → Bool
  | .function _ | .execute .. => false
  | _ => true

namespace World

/-- Commands that ask only for objectives that are declared, where `functions` says what functions
do; calls go at most `d` levels down. -/
inductive Sure (functions : Std.HashMap FunctionPath (List Command)) (declared : String → Prop) :
    Nat → Command → Prop where
  | simple {d : Nat} {c : Command} (simple : c.isSimple = true)
    (asks : ∀ o ∈ c.objectives, declared o) : Sure functions declared d c
  | execute {d : Nat} {clauses : List Clause} {run : Command}
    (asks : ∀ c ∈ clauses, ∀ o ∈ c.objectives, declared o) (sure : Sure functions declared d run) :
    Sure functions declared d (.execute clauses run)
  | function {d : Nat} {path : FunctionPath} {body : List Command}
    (known : functions[path]? = some body) (sure : ∀ c ∈ body, Sure functions declared d c) :
    Sure functions declared (d + 1) (.function path)

/-- The world has the functions and all declared objectives, and its entities agree. -/
structure Serves (functions : Std.HashMap FunctionPath (List Command)) (declared : String → Prop)
    (w : World) : Prop where
  functions : w.functions = functions
  objectives : ∀ o, declared o → w.hasObjective o = true
  tied : Tied [] w.entities

/-- A function runs as an entity that was created, or as none. -/
def Knows (w : World) (executor : Option Nat) : Prop :=
  ∀ id, executor = some id → id < w.entities.size

variable {functions : Std.HashMap FunctionPath (List Command)} {declared : String → Prop} {d : Nat}
  {w w' : World} {executor : Option Nat} {c : Command}

/-- An executor that is found is there. -/
theorem knows_of_entity? {id : Nat} {e : Entity} (he : w.entity? id = some e) :
    w.Knows (some id) := by
  intro i hi
  obtain rfl := Option.some.inj hi
  exact (Array.getElem?_eq_some_iff.1 he).1

/-! ### What all changes keep -/

/-- Objectives are never removed. -/
theorem Change.hasObjective (h : Change w w') {o : String} (ho : w.hasObjective o = true) :
    w'.hasObjective o = true := by
  cases h with
  | declare objective =>
    show (w.objectives.insert objective).contains o = true
    rw [Std.HashSet.contains_insert, show w.objectives.contains o = true from ho, Bool.or_true]
  | remove id =>
    unfold kill
    split
    · exact ho
    · split <;> exact ho
  | _ => exact ho

/-- Entities keep their places, so their number never falls. -/
theorem Change.size_le (h : Change w w') (ht : Tied [] w.entities) :
    w.entities.size ≤ w'.entities.size := by
  by_cases hsize : w.entities.size = 0
  · omega
  · have hlast : w.entity? (w.entities.size - 1) = some w.entities[w.entities.size - 1] :=
      Array.getElem?_eq_getElem (by omega)
    obtain ⟨e', he', -⟩ := h.entity? ht hlast
    have := (Array.getElem?_eq_some_iff.1 he').1
    omega

/-- Entities are never taken off the list. -/
theorem Changes.size_le (h : Changes w w') (ht : Tied [] w.entities) :
    w.entities.size ≤ w'.entities.size := by
  induction h with
  | refl => exact Nat.le_refl _
  | tail hbefore hc ih => exact Nat.le_trans ih (hc.size_le (Changes.tied hbefore ht))

/-- A single change takes nothing away that commands rely on. -/
theorem Serves.change (h : Serves functions declared w) (hc : Change w w') :
    Serves functions declared w' where
  functions := hc.runsAlike.functions.trans h.functions
  objectives o ho := hc.hasObjective (h.objectives o ho)
  tied := hc.tied h.tied

theorem Serves.changes (h : Serves functions declared w) (hc : Changes w w') :
    Serves functions declared w' := by
  induction hc with
  | refl => exact h
  | tail _ hc ih => exact ih.change hc

/-- An executor that is there stays there. -/
theorem Knows.changes (h : w.Knows executor) (ht : Tied [] w.entities) (hc : Changes w w') :
    w'.Knows executor :=
  fun id hid => Nat.lt_of_lt_of_le (h id hid) (Changes.size_le hc ht)

/-- The number of a living or removed entity is the place at which it stands. -/
theorem Serves.lt_size (h : Serves functions declared w) {e : Entity} (he : e ∈ w.entities) :
    e.id < w.entities.size := by
  obtain ⟨i, hi⟩ := Array.getElem?_of_mem he
  rw [h.tied.numbered i e hi]
  exact (Array.getElem?_eq_some_iff.1 hi).1

/-- The owners of scores have numbers of entities that are there. -/
theorem Serves.lt_of_lives (h : Serves functions declared w) {id : Nat}
    (hid : (Owner.entity id).Lives w) : id < w.entities.size := by
  obtain ⟨e, he, rfl, -⟩ := hid
  exact h.lt_size he

theorem Serves.lt_of_mem_select (h : Serves functions declared w) {s : Selector} {id : Nat}
    (hid : id ∈ w.select s executor) : id < w.entities.size :=
  h.lt_of_lives (lives_of_mem_select hid)

/-- So have passengers. -/
theorem Serves.lt_of_mem_passengers (h : Serves functions declared w) {id : Nat}
    (hid : id ∈ executor.toList.flatMap fun i => (w.passengers i).map (·.id)) :
    id < w.entities.size := by
  obtain ⟨i, -, hid⟩ := List.mem_flatMap.1 hid
  obtain ⟨e, he, rfl⟩ := List.mem_map.1 hid
  exact h.lt_of_lives (lives_of_mem_passengers he)

/-! ### Steps that end without an error -/

/-- A command that ends without an error makes only changes. -/
theorem Does.changes {Q : World → Prop} (h : Does d c executor w Q) :
    Does d c executor w (Changes w) := by
  obtain ⟨o, w', hrun, -⟩ := h
  refine ⟨o, w', hrun, ?_⟩
  have hmakes : Run.Makes (runCommand (callFunction d) c executor) w :=
    makes_runCommand d c
  unfold Run.Makes at hmakes
  rwa [hrun d (Nat.le_refl d)] at hmakes

/-- The run ends without an error, at every depth of calls. -/
def Ends (x : Run Outcome) (w : World) : Prop :=
  Leads 0 (fun _ => x) w fun _ _ => True

theorem ends_updateOwners {objective : String} {f : Option Int32 → Int32} {owners : List Owner}
    {last : Outcome} : Ends (updateOwners objective f owners last) w := by
  induction owners generalizing w last with
  | nil => exact Leads.pure trivial
  | cons o rest ih => exact Leads.bind_on (Run.on_get w) (Leads.bind_on (Run.on_modify _ w) ih)

/-- A command on scores ends without an error once its objective has been created. -/
theorem ends_updateScores {objective : String} {f : Option Int32 → Int32} {h : Holder}
    (ho : w.hasObjective objective = true) : Ends (updateScores h objective executor f) w :=
  Leads.bind_on (on_requireObjective ho) (Leads.bind_on (Run.on_get w) ends_updateOwners)

theorem ends_combineFrom {target : Owner} {targetObjective objective : String} {op : ScoreOp}
    {sources : List Owner} {last : Outcome} :
    Ends (combineFrom target targetObjective op objective sources last) w := by
  induction sources generalizing w last with
  | nil => exact Leads.pure trivial
  | cons source rest ih =>
    exact Leads.bind_on (Run.on_get w) (Leads.bind_on (Run.on_modify (fun _ => _) w) ih)

/-- So does one that combines scores. -/
theorem ends_combineAll {targetObjective objective : String} {op : ScoreOp}
    {sources targets : List Owner} {last : Outcome} :
    Ends (combineAll targetObjective op sources objective targets last) w := by
  induction targets generalizing w last with
  | nil => exact Leads.pure trivial
  | cons target rest ih => exact Leads.bind (ends_combineFrom.imp fun _ _ _ => ih)

/-- A simple command ends without an error where its objectives have been created. -/
theorem does_of_isSimple (hc : c.isSimple = true)
    (ho : ∀ o ∈ c.objectives, w.hasObjective o = true) : Does 0 c executor w fun _ => True := by
  cases c with
  | function | execute => cases hc
  | comment | raw => exact Leads.of_on rfl trivial
  | objectiveAdd name =>
    refine Leads.bind_on (Run.on_get w) ?_
    cases w.hasObjective name <;> exact Leads.of_on rfl trivial
  | scoreSet | scoreAdd | scoreRemove => exact ends_updateScores (ho _ List.mem_cons_self)
  | scoreOperation target targetObjective op source sourceObjective =>
    have hsource := ho sourceObjective (List.mem_cons_of_mem _ List.mem_cons_self)
    refine Leads.bind_on (on_requireObjective (ho _ List.mem_cons_self)) ?_
    exact Leads.bind_on (on_requireObjective hsource)
      (Leads.bind_on (Run.on_get w) ends_combineAll)
  | scoreGet holder objective =>
    exact Leads.bind_on (on_requireObjective (ho _ List.mem_cons_self))
      (Leads.bind_on (Run.on_get w) (Leads.pure trivial))
  | scoreReset | tagAdd | tagRemove | dataMerge | teleport | kill =>
    exact Leads.bind_on (Run.on_get w) (Leads.of_on rfl trivial)
  | summon entityType data => exact Leads.of_on rfl trivial

/-! ### Clauses and calls -/

namespace Sure

/-- What holds while some entities are still to come: only changes were made so far, and those
entities have been created. -/
theorem fork_does {go : Nat → Option Nat → Run Outcome} {ids : List Nat}
    (hw : Serves functions declared w) (hids : ∀ id ∈ ids, id < w.entities.size)
    (hgo : ∀ id (w : World), Serves functions declared w → w.Knows (some id) →
      Leads d (fun n => go n (some id)) w fun _ w' => Changes w w') (count : Nat) :
    Leads d (fun n => fork (go n) ids count) w fun _ w' => Changes w w' := by
  refine Leads.fork (I := fun ids w' => Changes w w' ∧ ∀ id ∈ ids, w'.Knows (some id)) ?_
    ⟨.refl, fun id hid i hi => Option.some.inj hi ▸ hids id hid⟩ count |>.imp fun _ _ h => h.1
  rintro id rest w' ⟨hchanges, hknown⟩
  have hw' := hw.changes hchanges
  refine (hgo id w' hw' (hknown id List.mem_cons_self)).imp fun _ w'' hstep => ?_
  refine ⟨hchanges.trans hstep, fun i hi => ?_⟩
  exact (hknown i (List.mem_cons_of_mem _ hi)).changes hw'.tied hstep

/-- Keeping a result in the data of an entity that was created. -/
theorem storeInEntity_does {path : String} {value : Int32} (h : w.Knows executor) :
    Leads d (fun _ => storeInEntity executor path value) w fun _ _ => True := by
  cases executor with
  | none => exact Leads.pure trivial
  | some id =>
    have hlt : id < w.entities.size := h id rfl
    have hsome : w.entity? id = some w.entities[id] := Array.getElem?_eq_getElem hlt
    refine Leads.bind_on (Run.on_get w) ?_
    rw [hsome]
    exact Leads.of_on rfl trivial

/-- Clauses end without an error where the objectives that they ask for have been created. -/
theorem execute_does {clauses : List Clause} {run : Command}
    (asks : ∀ c ∈ clauses, ∀ o ∈ c.objectives, declared o)
    (hrun : ∀ executor (w : World), Serves functions declared w → w.Knows executor →
      Does d run executor w (Changes w))
    (hw : Serves functions declared w) (hx : w.Knows executor) :
    Does d (.execute clauses run) executor w (Changes w) := by
  induction clauses generalizing w executor with
  | nil => exact hrun executor w hw hx
  | cons c rest ih =>
    -- the clauses that are left may be run from any world like this
    have hrest : ∀ executor (w : World), Serves functions declared w → w.Knows executor →
        Does d (.execute rest run) executor w (Changes w) := fun _ _ =>
      ih fun c hc => asks c (List.mem_cons_of_mem _ hc)
    have hobjective : ∀ o ∈ c.objectives, w.hasObjective o = true := fun o ho =>
      hw.objectives o (asks c List.mem_cons_self o ho)
    cases c with
    -- a test goes on or ends the command, without an error in either case
    | score negate holder objective range =>
      refine Does.execute_score (hobjective _ List.mem_cons_self) ?_
      split
      · exact hrest executor w hw hx
      · exact .refl
    | entity negate selector =>
      refine Does.execute_entity ?_
      split
      · exact hrest executor w hw hx
      · exact .refl
    | raw condition =>
      refine Does.execute_raw ?_
      split
      · exact hrest executor w hw hx
      · exact .refl
    -- a branch goes on as entities that are there
    | asEach selector =>
      refine Leads.bind_on (Run.on_get w) (fork_does hw (fun id hid => ?_) (fun id => hrest _) 0)
      exact hw.lt_of_mem_select hid
    | onPassengers =>
      refine Leads.bind_on (Run.on_get w) (fork_does hw (fun id hid => ?_) (fun id => hrest _) 0)
      exact hw.lt_of_mem_passengers hid
    | atEach | positionedLocal | rotatedRelative => exact hrest executor w hw hx
    -- the result is stored after a run that has kept the objectives and the executor
    | storeResultEntity path =>
      refine Does.changes (Q := fun _ => True) (Leads.bind ?_)
      refine Leads.imp (hrest executor w hw hx) fun o w' hw' => Leads.bind ?_
      exact (storeInEntity_does (hx.changes hw.tied hw')).imp fun _ _ _ => Leads.pure trivial
    | storeResultScore holder objective =>
      refine Does.changes (Q := fun _ => True) (Leads.bind ?_)
      refine Leads.imp (hrest executor w hw hx) fun o w' hw' => Leads.bind ?_
      have ho := (hw.changes hw').objectives objective
        (asks _ List.mem_cons_self _ List.mem_cons_self)
      exact ((ends_updateScores ho).deeper (Nat.zero_le d)).imp fun _ _ _ => Leads.pure trivial

/-- Commands that end without an error one by one do so in a row. -/
theorem doesAll_of_does {cs : List Command}
    (hstep : ∀ c ∈ cs, ∀ w : World, Serves functions declared w → w.Knows executor →
      Does d c executor w (Changes w))
    (hw : Serves functions declared w) (hx : w.Knows executor) :
    DoesAll d cs executor w (Changes w) := by
  induction cs generalizing w with
  | nil => exact DoesAll.nil .refl
  | cons c cs ih =>
    refine DoesAll.cons ((hstep c List.mem_cons_self w hw hx).imp fun w' hw' => ?_)
    have hrest := ih (fun c hc => hstep c (List.mem_cons_of_mem _ hc)) (hw.changes hw')
      (hx.changes hw.tied hw')
    exact hrest.imp fun _ => hw'.trans

/-- In a world that has what it needs, such a command ends without an error. -/
theorem does (h : Sure functions declared d c) (hw : Serves functions declared w)
    (hx : w.Knows executor) : Does d c executor w (Changes w) := by
  induction h generalizing w executor with
  | simple simple asks =>
    have hdoes : Does 0 _ executor w fun _ => True :=
      does_of_isSimple simple fun o ho => hw.objectives o (asks o ho)
    exact Does.changes (hdoes.deeper (Nat.zero_le _))
  | execute asks _ ih => exact execute_does asks (fun _ _ hw hx => ih hw hx) hw hx
  | function known _ ih =>
    exact Does.function (hw.functions ▸ known) (doesAll_of_does (fun c hc _ => ih c hc) hw hx)

/-- What a function that can be called does can be done. -/
theorem of_function {path : FunctionPath} {body : List Command}
    (h : Sure functions declared (d + 1) (.function path)) (hf : functions[path]? = some body) :
    ∀ c ∈ body, Sure functions declared d c := by
  cases h with
  | simple simple => cases simple
  | function known sure =>
    obtain rfl := Option.some.inj (known.symm.trans hf)
    exact sure

/-- What is sure within some levels of calls is sure within more. -/
theorem deeper {e : Nat} (h : Sure functions declared d c) (hde : d ≤ e) :
    Sure functions declared e c := by
  induction h generalizing e with
  | simple simple asks => exact .simple simple asks
  | execute asks _ ih => exact .execute asks (ih hde)
  | function known _ ih =>
    obtain ⟨n, rfl⟩ : ∃ n, e = n + 1 := ⟨e - 1, by omega⟩
    exact .function known fun c hc => ih c hc (by omega)

end Sure

end World

end Marionette
