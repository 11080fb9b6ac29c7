import Mathlib.Logic.Relation
import Marionette.Proofs.World.Runs

/-!
# The changes that a run makes

Whatever a run does to a world is a sequence of changes of a few kinds.  What each of these changes
keeps, every run keeps, also one that stops with an error.

- `Entity.ties`: what ties an entity to others, without what it looks like.
- `World.Change`: a single change; `World.Changes`: changes one after the other.
- `Changes.runsAlike`: none of them touches the functions.
- `Command.Gives`: the tags that a command can give, and the entities that it can create;
  `Command.CallsOnly`: the functions that it can call.
- `Tolerates`: a relation holds wherever a single change is made that gives only such tags and
  creates only such entities.
- `Tolerates.runClauses`, `Tolerates.runCommand`, `Tolerates.callFunction`: then it holds between
  the worlds before and after clauses, commands and functions of a kind that call only each other.
- `Run.Makes`: a run makes only changes of these kinds.
-/

namespace Marionette

/-- An entity without its type, tags, data and place: its number, its life, and who rides whom. -/
def Entity.ties (e : Entity) : Entity :=
  { e with entityType := "", tags := [], data := [], teleport := none }

/-- What ties an entity to others is its number, its vehicle, its passengers and its life. -/
theorem Entity.of_ties {e e' : Entity} (h : e'.ties = e.ties) :
    e'.id = e.id ∧ e'.vehicle = e.vehicle ∧ e'.passengers = e.passengers ∧ e'.alive = e.alive :=
  ⟨(congrArg Entity.id h :), (congrArg Entity.vehicle h :), (congrArg Entity.passengers h :),
    (congrArg Entity.alive h :)⟩

/-- The owner of a score is a name or an entity that is alive. -/
def Owner.Lives (w : World) : Owner → Prop
  | .entity id => ∃ e ∈ w.entities, e.id = id ∧ e.alive = true
  | .fake _ => True

namespace World

/-- A single change of a world. -/
inductive Change (w : World) : World → Prop where
  /-- An objective is created. -/
  | declare (objective : String) : Change w { w with objectives := w.objectives.insert objective }
  /-- A score is set. -/
  | score (owner : Owner) (objective : String) (value : Int32) (lives : owner.Lives w) :
    Change w (w.setOwnerScore owner objective value)
  /-- Scores are removed. -/
  | reset (owners : List Owner) (objective : Option String) :
    Change w (w.resetScores owners objective)
  /-- An entity changes, but neither its life nor who rides whom. -/
  | alter (id : Nat) (f : Entity → Entity) (same : ∀ e, (f e).ties = e.ties) :
    Change w (w.modifyEntity id f)
  /-- An entity is created with what rides it. -/
  | create (plan : EntityPlan) : Change w { w with entities := (spawn w.entities none plan).1 }
  /-- An entity is removed. -/
  | remove (id : Nat) : Change w (w.kill id)
  /-- A command of the author is recorded. -/
  | record (line : RawOutput) : Change w { w with output := w.output.push line }
  /-- A tick passes. -/
  | clock : Change w { w with gameTime := w.gameTime + 1 }

/-- Changes one after the other. -/
abbrev Changes : World → World → Prop :=
  Relation.ReflTransGen Change

/-- A single change is a run of changes. -/
theorem Change.once {w w' : World} (h : Change w w') : Changes w w' :=
  Relation.ReflTransGen.single h

/-- The worlds run the same functions, at the same events and equally deep. -/
structure RunsAlike (w w' : World) : Prop where
  functions : w'.functions = w.functions
  tickFunctions : w'.tickFunctions = w.tickFunctions
  loadFunctions : w'.loadFunctions = w.loadFunctions
  maxDepth : w'.maxDepth = w.maxDepth

theorem RunsAlike.refl (w : World) : RunsAlike w w :=
  ⟨rfl, rfl, rfl, rfl⟩

theorem RunsAlike.trans {w w' w'' : World} (h : RunsAlike w w') (h' : RunsAlike w' w'') :
    RunsAlike w w'' :=
  ⟨h'.functions.trans h.functions, h'.tickFunctions.trans h.tickFunctions,
    h'.loadFunctions.trans h.loadFunctions, h'.maxDepth.trans h.maxDepth⟩

/-- No change touches the functions. -/
theorem Change.runsAlike {w w' : World} (h : Change w w') : RunsAlike w w' := by
  cases h with
  | remove id =>
    unfold kill
    split
    · exact .refl w
    · split
      · exact .refl w
      · exact ⟨rfl, rfl, rfl, rfl⟩
  | _ => exact ⟨rfl, rfl, rfl, rfl⟩

/-- No change touches the functions, the depth of calls or the answers. -/
theorem Changes.runsAlike {w w' : World} (h : Changes w w') : RunsAlike w w' := by
  induction h with
  | refl => exact .refl w
  | tail _ hc ih => exact ih.trans hc.runsAlike

end World

/-- What the command can give and create, wherever it runs: tags of some kind, and entities of some
kind. -/
def Command.Gives (tags : String → Prop) (plans : EntityPlan → Prop) : Command → Prop
  | .tagAdd _ tag => tags tag
  | .summon entityType data => plans (.ofData entityType data)
  | .execute _ run => run.Gives tags plans
  | _ => True

/-- The functions that the command can call, wherever it runs. -/
def Command.CallsOnly (calls : FunctionPath → Prop) : Command → Prop
  | .function path => calls path
  | .execute _ run => run.CallsOnly calls
  | _ => True

theorem Command.callsOnly_true (c : Command) : c.CallsOnly fun _ => True := by
  induction c with
  | execute clauses run ih => exact ih
  | _ => trivial

namespace World

/-- The relation holds wherever a single change is made that gives only tags of one kind and creates
only entities of one kind, and it keeps the functions. -/
structure Tolerates (tags : String → Prop) (plans : EntityPlan → Prop) (R : World → World → Prop) :
    Prop where
  functions : ∀ {w w'}, R w w' → w'.functions = w.functions
  declare : ∀ w objective, R w { w with objectives := w.objectives.insert objective }
  score : ∀ w (owner : Owner) objective value, owner.Lives w →
    R w (w.setOwnerScore owner objective value)
  reset : ∀ w owners objective, R w (w.resetScores owners objective)
  tag : ∀ w id tag, tags tag →
    R w (w.modifyEntity id fun e => { e with tags := insertTag tag e.tags })
  untag : ∀ w id tag,
    R w (w.modifyEntity id fun e => { e with tags := e.tags.filter (· != tag) })
  look : ∀ w id f, (∀ e : Entity, (f e).ties = e.ties) → (∀ e, (f e).tags = e.tags) →
    R w (w.modifyEntity id f)
  create : ∀ w plan, plans plan → R w { w with entities := (spawn w.entities none plan).1 }
  remove : ∀ w id, R w (w.kill id)
  record : ∀ w line, R w { w with output := w.output.push line }
  clock : ∀ w, R w { w with gameTime := w.gameTime + 1 }

/-- The functions of the world give only such tags and create only such entities. -/
def GivesOnly (tags : String → Prop) (plans : EntityPlan → Prop) (w : World) : Prop :=
  ∀ (path : FunctionPath) (body : List Command), w.functions[path]? = some body →
    ∀ c ∈ body, c.Gives tags plans

/-- The functions of a kind give only such tags, create only such entities, and call only each
other. -/
def GivesAmong (calls : FunctionPath → Prop) (tags : String → Prop) (plans : EntityPlan → Prop)
    (w : World) : Prop :=
  ∀ (path : FunctionPath) (body : List Command), calls path → w.functions[path]? = some body →
    ∀ c ∈ body, c.Gives tags plans ∧ c.CallsOnly calls

/-- All functions together are such a kind. -/
theorem GivesOnly.among {tags : String → Prop} {plans : EntityPlan → Prop} {w : World}
    (hw : w.GivesOnly tags plans) : w.GivesAmong (fun _ => True) tags plans :=
  fun path body _ hbody c hc => ⟨hw path body hbody c hc, c.callsOnly_true⟩

/-- Functions stay as they are, so what they may call, tag and summon does too. -/
theorem Tolerates.givesAmong {calls : FunctionPath → Prop} {tags : String → Prop}
    {plans : EntityPlan → Prop} {R : World → World → Prop} (hR : Tolerates tags plans R)
    {w w' : World} (hw : w.GivesAmong calls tags plans) (h : R w w') :
    w'.GivesAmong calls tags plans := by
  unfold GivesAmong
  rwa [hR.functions h]

open Run (Leaves)

variable {w : World} {executor : Option Nat} {objective : String}

/-- What a selector picks is alive. -/
theorem lives_of_mem_select {s : Selector} {id : Nat} (h : id ∈ w.select s executor) :
    (Owner.entity id).Lives w := by
  have halive : ∀ e : Entity, e.matches s = true → e.alive = true := by
    intro e hmatch
    simp only [Entity.matches, Bool.and_eq_true] at hmatch
    exact hmatch.1.1
  unfold select at h
  split at h
  all_goals
    obtain ⟨e, he, rfl⟩ := List.mem_map.1 h
    obtain ⟨he, hmatch⟩ := List.mem_filter.1 he
    refine ⟨e, ?_, rfl, halive e hmatch⟩
  · cases executor with
    | none => cases he
    | some i =>
      rw [Option.bind_some, Option.mem_toList] at he
      exact Array.mem_of_getElem? he
  · exact Array.mem_toList_iff.1 he

/-- So is what rides an entity. -/
theorem lives_of_mem_passengers {v : Nat} {e : Entity} (h : e ∈ w.passengers v) :
    (Owner.entity e.id).Lives w := by
  unfold passengers at h
  split at h
  · cases h
  · obtain ⟨hfound, halive⟩ := List.mem_filter.1 h
    obtain ⟨p, -, hp⟩ := List.mem_filterMap.1 hfound
    exact ⟨e, Array.mem_of_getElem? hp, rfl, halive⟩

/-- The owners that a holder stands for are alive, if they are entities. -/
theorem lives_of_mem_owners {h : Holder} {o : Owner} (ho : o ∈ w.owners h executor) :
    o.Lives w := by
  cases h with
  | fake name =>
    rw [List.mem_singleton.1 ho]
    trivial
  | entity s =>
    obtain ⟨id, hid, rfl⟩ := List.mem_map.1 ho
    exact lives_of_mem_select hid

/-- Combining scores keeps every entity. -/
theorem entities_combineFrom {target : Owner} {targetObjective : String} {op : ScoreOp}
    {sources : List Owner} {last : Outcome} (w : World) :
    (Run.on (combineFrom target targetObjective op objective sources last) w).2.entities =
      w.entities := by
  induction sources generalizing w last with
  | nil => rfl
  | cons source rest ih => exact ih _

namespace Tolerates

variable {tags : String → Prop} {plans : EntityPlan → Prop} {R : World → World → Prop}
  [IsPreorder World R]

section

variable (hR : Tolerates tags plans R)
include hR

/-! ### Scores -/

/-- One owner after the other gets its new score. -/
theorem updateOwners {f : Option Int32 → Int32} {owners : List Owner} {last : Outcome}
    (h : ∀ o ∈ owners, o.Lives w) : Leaves R (World.updateOwners objective f owners last) w := by
  induction owners generalizing w last with
  | nil => exact .nothing _
  | cons o rest ih =>
    obtain ⟨ho, hrest⟩ := List.forall_mem_cons.1 h
    refine .looking (.changing (hR.score w o objective _ ho) ?_)
    -- setting a score keeps every entity, so the owners that are left still live
    exact ih hrest

/-- A command on scores looks for its objective first and leaves the world as it is without
one. -/
theorem updateScores {h : Holder} {f : Option Int32 → Int32} :
    Leaves R (World.updateScores h objective executor f) w := by
  refine leaves_requireObjective.andThen fun _ w => .looking ?_
  exact hR.updateOwners fun o ho => lives_of_mem_owners ho

/-- Scores are combined into one target, source by source. -/
theorem combineFrom {target : Owner} {targetObjective : String} {op : ScoreOp}
    {sources : List Owner} {last : Outcome} (h : target.Lives w) :
    Leaves R (World.combineFrom target targetObjective op objective sources last) w := by
  induction sources generalizing w last with
  | nil => exact .nothing _
  | cons source rest ih =>
    refine .looking (.changing (hR.score w target targetObjective _ h) ?_)
    exact ih h

/-- Scores are combined into one target after the other. -/
theorem combineAll {targetObjective : String} {op : ScoreOp} {sources targets : List Owner}
    {last : Outcome} (h : ∀ o ∈ targets, o.Lives w) :
    Leaves R (World.combineAll targetObjective op sources objective targets last) w := by
  induction targets generalizing w last with
  | nil => exact .nothing _
  | cons target rest ih =>
    obtain ⟨htarget, hrest⟩ := List.forall_mem_cons.1 h
    refine (hR.combineFrom htarget).bind fun a w' hrun => ih fun o ho => ?_
    have hsame : w'.entities = w.entities := by
      -- the targets that are left have to be alive still, which no score can change
      rw [← entities_combineFrom w, hrun]
    have hlives := hrest o ho
    cases o with
    | fake name => trivial
    | entity id =>
      obtain ⟨e, he, hid⟩ := hlives
      exact ⟨e, hsame ▸ he, hid⟩

/-! ### Entities -/

omit hR in
/-- What every step of a fold keeps to, the fold keeps to. -/
theorem foldl {α : Type} {f : World → α → World} {items : List α}
    (h : ∀ a ∈ items, ∀ w, R w (f w a)) (w : World) : R w (items.foldl f w) := by
  induction items generalizing w with
  | nil => exact Std.Refl.refl w
  | cons a rest ih =>
    obtain ⟨ha, hrest⟩ := List.forall_mem_cons.1 h
    exact IsTrans.trans _ _ _ (ha w) (ih hrest (f w a))

omit hR in
/-- Changing tags and counting the changes. -/
theorem counting {f : World × Nat → Nat → World × Nat} {ids : List Nat}
    (h : ∀ id ∈ ids, ∀ x : World × Nat, R x.1 (f x id).1) (x : World × Nat) :
    R x.1 (ids.foldl f x).1 := by
  induction ids generalizing x with
  | nil => exact Std.Refl.refl x.1
  | cons id rest ih =>
    obtain ⟨hid, hrest⟩ := List.forall_mem_cons.1 h
    exact IsTrans.trans _ _ _ (hid x) (ih hrest (f x id))

/-- Tags are given to those that lack them. -/
theorem addTags (ids : List Nat) {tag : String} (htag : tags tag) : R w (w.addTags ids tag).1 := by
  refine counting (fun id _ x => ?_) (w, 0)
  dsimp only
  split
  · exact Std.Refl.refl x.1
  · exact hR.tag x.1 id tag htag

/-- Tags are taken from those that have them. -/
theorem removeTags (ids : List Nat) (tag : String) : R w (w.removeTags ids tag).1 := by
  refine counting (fun id _ x => ?_) (w, 0)
  dsimp only
  split
  · exact hR.untag x.1 id tag
  · exact Std.Refl.refl x.1

/-- Entities are changed apart from what ties them and from their tags. -/
theorem changeEntities {ids : List Nat} {f : Entity → Entity} (hf : ∀ e, (f e).ties = e.ties)
    (htags : ∀ e, (f e).tags = e.tags) : Leaves R (World.changeEntities ids f) w :=
  .changing (foldl (fun id _ w => hR.look w id f hf htags) w) (.nothing _)

/-- What a command returns may be stored in the entity that runs it. -/
theorem storeInEntity {path : String} {value : Int32} :
    Leaves R (World.storeInEntity executor path value) w := by
  cases executor with
  | none => exact .nothing _
  | some id =>
    refine .looking ?_
    split
    · exact .failing _
    · exact .changing (hR.look w id (fun e => { e with data := e.data.insert path (.int value) })
        (fun _ => rfl) fun _ => rfl) (.nothing _)

/-! ### Clauses, commands and functions -/

omit hR in
/-- A run that branches to several entities, one after the other. -/
theorem fork {go : Option Nat → Run Outcome}
    (hgo : ∀ executor w', R w w' → Leaves R (go executor) w') {ids : List Nat} {succeeded : Nat} :
    Leaves R (World.fork go ids succeeded) w := by
  induction ids generalizing w succeeded with
  | nil => exact .nothing _
  | cons id rest ih =>
    have hstep := hgo (some id) w (Std.Refl.refl w)
    refine hstep.bind fun _ w' hw' => ih fun executor w'' hw'' => hgo executor w'' ?_
    exact IsTrans.trans _ _ _ (hstep.of_on hw') hw''

/-- Clauses only look, branch and store; what counts is what runs behind them. -/
theorem runClauses {behind : Option Nat → Run Outcome}
    (hbehind : ∀ executor w', R w w' → Leaves R (behind executor) w') {clauses : List Clause} :
    Leaves R (World.runClauses behind clauses executor) w := by
  induction clauses generalizing w executor with
  | nil => exact hbehind executor w (Std.Refl.refl w)
  | cons clause rest ih =>
    -- a test goes on under the rest of the clauses, or is over
    have hguard : ∀ b : Bool,
        Leaves R (if b then World.runClauses behind rest executor else pure none) w := by
      intro b
      cases b
      · exact .nothing _
      · exact ih hbehind
    -- a change of executors goes on from any world in between
    have hfork : ∀ executor w', R w w' → Leaves R (World.runClauses behind rest executor) w' :=
      fun _ w' hw' => ih fun executor w'' hw'' =>
        hbehind executor w'' (IsTrans.trans _ _ _ hw' hw'')
    cases clause with
    | score negate holder objective range =>
      refine leaves_requireObjective.bind fun _ w' hrun => ?_
      obtain rfl := eq_of_requireObjective hrun
      exact .looking (hguard _)
    | entity negate selector => exact .looking (hguard _)
    | asEach selector => exact .looking (fork hfork)
    | onPassengers => exact .looking (fork hfork)
    | atEach | positionedLocal | rotatedRelative => exact ih hbehind
    | storeResultEntity path =>
      exact (ih hbehind).andThen fun _ w => hR.storeInEntity.andThen fun _ _ => .nothing _
    | storeResultScore holder objective =>
      exact (ih hbehind).andThen fun _ w => hR.updateScores.andThen fun _ _ => .nothing _
    | raw condition => exact .looking (hguard _)

/-- Every command keeps to the relation if the functions that it calls do. -/
theorem runCommand {calls : FunctionPath → Prop} {call : FunctionPath → Option Nat → Run Outcome}
    (hcall : ∀ path, calls path → ∀ executor w', R w w' → Leaves R (call path executor) w')
    {c : Command} (hc : c.Gives tags plans) (hcalls : c.CallsOnly calls) :
    Leaves R (World.runCommand call c executor) w := by
  induction c generalizing w executor with
  | comment text => exact .nothing _
  | objectiveAdd name =>
    refine .looking ?_
    split
    · exact .nothing _
    · exact .changing (f := fun _ => _) (hR.declare w name) (.nothing _)
  -- scores may be changed for living owners only
  | scoreSet | scoreAdd | scoreRemove => exact hR.updateScores
  | scoreOperation target targetObjective op source sourceObjective =>
    refine leaves_requireObjective.andThen fun _ w => leaves_requireObjective.andThen fun _ w => ?_
    exact .looking (hR.combineAll fun o ho => lives_of_mem_owners ho)
  | scoreGet holder objective =>
    exact leaves_requireObjective.andThen fun _ w => .looking (.nothing _)
  | scoreReset holder objective =>
    exact .looking (.changing (hR.reset w _ objective) (.nothing _))
  -- tags and entities that are created are restricted, those that go away are not
  | tagAdd target tag =>
    exact .looking (.changing (f := fun _ => _) (hR.addTags _ hc) (.nothing _))
  | tagRemove target tag =>
    exact .looking (.changing (f := fun _ => _) (hR.removeTags _ tag) (.nothing _))
  | function path => exact hcall path hcalls executor w (Std.Refl.refl w)
  | execute clauses run ih =>
    refine hR.runClauses fun executor w' hw' =>
      ih (fun path hpath executor w'' hw'' => ?_) hc hcalls
    exact hcall path hpath executor w'' (IsTrans.trans _ _ _ hw' hw'')
  -- data and places are no ties
  | dataMerge target data =>
    exact .looking (hR.changeEntities (fun _ => rfl) fun _ => rfl)
  | teleport target offset yaw pitch =>
    exact .looking (hR.changeEntities (fun _ => rfl) fun _ => rfl)
  | summon entityType data => exact .changing (hR.create w _ hc) (.nothing _)
  | kill selector =>
    exact .looking (.changing (foldl (fun id _ w => hR.remove w id) w) (.nothing _))
  | raw text => exact .changing (hR.record w _) (.nothing _)

omit hR in
/-- A list of commands runs until one of them fails. -/
theorem runAll {run : Command → Run Outcome} {cs : List Command}
    (hrun : ∀ c ∈ cs, ∀ w', R w w' → Leaves R (run c) w') : Leaves R (World.runAll run cs) w := by
  induction cs generalizing w with
  | nil => exact .nothing _
  | cons c rest ih =>
    obtain ⟨hc, hrest⟩ := List.forall_mem_cons.1 hrun
    have hstep := hc w (Std.Refl.refl w)
    refine hstep.bind fun _ w' hw' => ih fun c' hc' w'' hw'' => hrest c' hc' w'' ?_
    exact IsTrans.trans _ _ _ (hstep.of_on hw') hw''

/-- Whatever a function does, however deep it calls others and however it ends. -/
theorem callFunction {calls : FunctionPath → Prop} {path : FunctionPath} (depth : Nat)
    (hpath : calls path) (hw : w.GivesAmong calls tags plans) :
    Leaves R (World.callFunction depth path executor) w := by
  induction depth generalizing path executor w with
  | zero => exact .looking (.failing _)
  | succ depth ih =>
    refine .looking ?_
    split
    · exact .failing _
    · next body hbody =>
      refine (runAll fun c hc w' hw' => ?_).andThen fun _ _ => .nothing _
      obtain ⟨hgives, hcalls⟩ := hw path body hpath hbody c hc
      have hcall : ∀ path, calls path → ∀ executor w'', R w' w'' →
          Leaves R (World.callFunction depth path executor) w'' := fun path hpath _ w'' hw'' =>
        ih hpath (hR.givesAmong (hR.givesAmong hw hw') hw'')
      exact hR.runCommand hcall hgives hcalls

/-! ### What callers do -/

/-- What a function does, down to the deepest call. -/
theorem run_of_calls {calls : FunctionPath → Prop} {path : FunctionPath} (hpath : calls path)
    (hw : w.GivesAmong calls tags plans) : Leaves R (World.run path executor) w :=
  .looking ((hR.callFunction w.maxDepth hpath hw).andThen fun _ _ => .nothing _)

/-- So it is for all functions, if there is no restriction on calls. -/
theorem run (path : FunctionPath) (hw : w.GivesOnly tags plans) :
    Leaves R (World.run path executor) w :=
  hR.run_of_calls trivial hw.among

/-- Functions in a row: each of them leaves a world to which the next one keeps. -/
theorem runEach {calls : FunctionPath → Prop} {paths : List FunctionPath}
    (hpaths : ∀ path ∈ paths, calls path) (hw : w.GivesAmong calls tags plans) :
    Leaves R (World.runEach paths) w := by
  induction paths generalizing w with
  | nil => exact .nothing _
  | cons path rest ih =>
    obtain ⟨hpath, hrest⟩ := List.forall_mem_cons.1 hpaths
    have hstep : Leaves R (World.run path none) w := hR.run_of_calls hpath hw
    exact hstep.bind fun _ w' hrun => ih hrest (hR.givesAmong hw (hstep.of_on hrun))

/-- Loading runs the functions for it. -/
theorem load_of_calls {calls : FunctionPath → Prop} (hload : ∀ path ∈ w.loadFunctions, calls path)
    (hw : w.GivesAmong calls tags plans) : Leaves R World.load w :=
  .looking (hR.runEach hload hw)

theorem load (hw : w.GivesOnly tags plans) : Leaves R World.load w :=
  hR.load_of_calls (fun _ _ => trivial) hw.among

/-- A tick moves the clock and runs its functions. -/
theorem tick_of_calls {calls : FunctionPath → Prop} (htick : ∀ path ∈ w.tickFunctions, calls path)
    (hw : w.GivesAmong calls tags plans) : Leaves R World.tick w :=
  .changing (hR.clock w) (.looking (hR.runEach htick (hR.givesAmong hw (hR.clock w))))

theorem tick (hw : w.GivesOnly tags plans) : Leaves R World.tick w :=
  hR.tick_of_calls (fun _ _ => trivial) hw.among

/-- Summoning runs a function and then looks for the new root. -/
theorem summon (namespaceName : String) (hw : w.GivesOnly tags plans) :
    Leaves R (World.summon namespaceName) w := by
  refine .looking ((hR.run _ hw).andThen fun _ w => .looking ?_)
  split
  · exact .nothing _
  · exact .failing _

end

end Tolerates

end World

/-! ### Changes of any kind -/

open World (Change Changes GivesOnly Tolerates)

theorem Command.gives_true (c : Command) : c.Gives (fun _ => True) fun _ => True := by
  induction c with
  | execute clauses run ih => exact ih
  | _ => trivial

namespace World

/-- Every single change is a change. -/
theorem Changes.tolerates : Tolerates (fun _ => True) (fun _ => True) Changes where
  functions h := (Changes.runsAlike h).functions
  declare _ objective := (Change.declare objective).once
  score _ owner objective value lives := (Change.score owner objective value lives).once
  reset _ owners objective := (Change.reset owners objective).once
  tag _ id tag _ :=
    (Change.alter id (fun e => { e with tags := insertTag tag e.tags }) fun _ => rfl).once
  untag _ id tag :=
    (Change.alter id (fun e => { e with tags := e.tags.filter (· != tag) }) fun _ => rfl).once
  look _ id f same _ := (Change.alter id f same).once
  create _ plan _ := (Change.create plan).once
  remove _ id := (Change.remove id).once
  record _ line := (Change.record line).once
  clock _ := Change.clock.once

end World

namespace Run

variable {α β : Type} {w : World}

/-- From the world, the run makes only changes of these kinds, whether or not it ends with an
error. -/
def Makes (x : Run α) (w : World) : Prop :=
  Changes w (Run.on x w).2

namespace Makes

theorem nothing (a : α) : Makes (pure a : Run α) w :=
  Leaves.nothing (R := Changes) a

/-- A run, and then another one that makes such changes from every world. -/
theorem andThen {x : Run α} {f : α → Run β} (hx : Makes x w) (hf : ∀ a w', Makes (f a) w') :
    Makes (x >>= f) w :=
  Leaves.andThen (R := Changes) hx hf

end Makes

end Run

namespace World

open Run (Makes)

variable {w : World} {executor : Option Nat}

theorem givesOnly_true (w : World) : w.GivesOnly (fun _ => True) fun _ => True :=
  fun _ _ _ c _ => Command.gives_true c

theorem makes_runCommand (depth : Nat) (c : Command) :
    Makes (runCommand (callFunction depth) c executor) w :=
  Changes.tolerates.runCommand (fun _ hpath _ w _ => Changes.tolerates.callFunction depth hpath
    w.givesOnly_true.among) c.gives_true c.callsOnly_true

theorem makes_run (path : FunctionPath) : Makes (run path executor) w :=
  Changes.tolerates.run path w.givesOnly_true

theorem makes_load : Makes load w :=
  Changes.tolerates.load w.givesOnly_true

theorem makes_tick : Makes tick w :=
  Changes.tolerates.tick w.givesOnly_true

theorem makes_summon (namespaceName : String) : Makes (summon namespaceName) w :=
  Changes.tolerates.summon namespaceName w.givesOnly_true

end World

end Marionette
