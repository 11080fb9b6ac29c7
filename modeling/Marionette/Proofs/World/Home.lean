import Marionette.Proofs.World.Looks
import Marionette.RuntimeNames

/-!
# Commands that keep to one household

The household of an entity is the entity itself and what rides it.  Most commands of a rig, run as a
root, change nothing but the scores and tags of the root and what its passengers look like, so they
leave every other household alone.

- `World.KeepsTo`: from one world to another, only the household of an entity has changed.
- `Command.KeepsHome`: commands that stay in the household of the executing entity, where `calls`
  says which functions they may call.
- `Command.StaysHome`: those of them that look at nothing outside of the household either, and that
  give only tags of one kind.
- `KeepsHome.leaves`: whatever such a command does, also if it ends with an error, keeps to the
  household.
- `leaves_callFunction`: so does a function if all functions that it may call keep home.
-/

namespace Marionette

/-- An entity without its tags, its data and the place to which it was moved. -/
def Entity.core (e : Entity) : Entity :=
  { e with tags := [], data := [], teleport := none }

namespace World

/-- The entity carries another one as a passenger. -/
def Carries (w : World) (id p : Nat) : Prop :=
  ∃ e, w.entity? id = some e ∧ p ∈ e.passengers

/-- Entities stand at the places of their numbers. -/
def IsNumbered (w : World) : Prop :=
  ∀ i e, w.entity? i = some e → e.id = i

section Cores

variable {w w' : World} {i : Nat} {e e' : Entity}
  (h : ∀ i, (w'.entity? i).map Entity.core = (w.entity? i).map Entity.core)
include h

/-- Where no core has changed, what was there still is. -/
theorem exists_core (he : w.entity? i = some e) : ∃ e', w'.entity? i = some e' ∧
    e'.core = e.core := by
  have hi := h i
  rw [he] at hi
  exact Option.map_eq_some_iff.1 hi

/-- And what is there was there before. -/
theorem exists_core_before (he' : w'.entity? i = some e') :
    ∃ e, w.entity? i = some e ∧ e'.core = e.core := by
  obtain ⟨e, he, hcore⟩ := exists_core (fun i => (h i).symm) he'
  exact ⟨e, he, hcore.symm⟩

end Cores

/-- Only the household of an entity has changed: its own scores and tags, and what its passengers
look like.  The name that carries a score from a root to its passengers belongs
to every household. -/
structure KeepsTo (id : Nat) (w w' : World) : Prop where
  setting : w'.setting = w.setting
  gameTime : w'.gameTime = w.gameTime
  core : ∀ i, (w'.entity? i).map Entity.core = (w.entity? i).map Entity.core
  bare : ∀ i, i ≠ id → (w'.entity? i).map Entity.bare = (w.entity? i).map Entity.bare
  entity? : ∀ i, i ≠ id → ¬w.Carries id i → w'.entity? i = w.entity? i
  score : ∀ o objective, o ≠ .entity id → o ≠ .fake "#interp" →
    w'.ownerScore? o objective = w.ownerScore? o objective

namespace KeepsTo

variable {id : Nat} {w w' w'' : World}

/-- Nobody mounts or leaves. -/
theorem carries (h : KeepsTo id w w') {v p : Nat} (hp : w.Carries v p) : w'.Carries v p := by
  obtain ⟨e, he, hmem⟩ := hp
  obtain ⟨e', he', hcore⟩ := exists_core h.core he
  have hpassengers : e'.passengers = e.passengers := (congrArg Entity.passengers hcore :)
  exact ⟨e', he', hpassengers ▸ hmem⟩

/-- Neither do others appear among those that are carried. -/
theorem carries_iff (h : KeepsTo id w w') {v p : Nat} : w'.Carries v p ↔ w.Carries v p := by
  refine ⟨?_, h.carries⟩
  rintro ⟨e', he', hmem⟩
  obtain ⟨e, he, hcore⟩ := exists_core_before h.core he'
  have hpassengers : e'.passengers = e.passengers := (congrArg Entity.passengers hcore :)
  exact ⟨e, he, hpassengers ▸ hmem⟩

/-- Entities keep their numbers, and no one is moved. -/
theorem isNumbered (h : KeepsTo id w w') (hw : w.IsNumbered) : w'.IsNumbered := by
  intro i e' he'
  obtain ⟨e, he, hcore⟩ := exists_core_before h.core he'
  exact (congrArg Entity.id hcore :).trans (hw i e he)

theorem refl (id : Nat) (w : World) : KeepsTo id w w :=
  ⟨rfl, rfl, fun _ => rfl, fun _ _ => rfl, fun _ _ _ => rfl, fun _ _ _ _ => rfl⟩

/-- What two steps leave alone is left alone by both together. -/
theorem trans (h : KeepsTo id w w') (h' : KeepsTo id w' w'') : KeepsTo id w w'' where
  setting := h'.setting.trans h.setting
  gameTime := h'.gameTime.trans h.gameTime
  core i := (h'.core i).trans (h.core i)
  bare i hi := (h'.bare i hi).trans (h.bare i hi)
  entity? i hi hcarried :=
    (h'.entity? i hi fun hp => hcarried (h.carries_iff.1 hp)).trans (h.entity? i hi hcarried)
  score o objective ho hfake :=
    (h'.score o objective ho hfake).trans (h.score o objective ho hfake)

instance (id : Nat) : IsPreorder World (KeepsTo id) where
  refl := refl id
  trans _ _ _ := trans

/-! ### Single changes -/

/-- A recorded line belongs to no household. -/
theorem record (id : Nat) (w : World) (line : RawOutput) :
    KeepsTo id w { w with output := w.output.push line } :=
  ⟨rfl, rfl, fun _ => rfl, fun _ _ => rfl, fun _ _ _ => rfl, fun _ _ _ _ => rfl⟩

/-- A change of an own score, or of the score that the passengers read. -/
theorem setOwnerScore {o : Owner} (ho : o = .entity id ∨ o = .fake "#interp") (w : World)
    (objective : String) (v : Int32) : KeepsTo id w (w.setOwnerScore o objective v) := by
  refine ⟨rfl, rfl, fun _ => rfl, fun _ _ => rfl, fun _ _ _ => rfl, fun o' b hown hfake => ?_⟩
  have hne : o ≠ o' := by
    rintro rfl
    exact ho.elim hown hfake
  unfold World.setOwnerScore ownerScore?
  rw [Std.HashMap.getElem?_insert, if_neg (by simp [hne])]

/-- Scores of the entity itself may be removed. -/
theorem resetScores {owners : List Owner} (howners : ∀ o ∈ owners, o = .entity id) (w : World)
    (objective : Option String) : KeepsTo id w (w.resetScores owners objective) := by
  refine ⟨rfl, rfl, fun _ => rfl, fun _ _ => rfl, fun _ _ _ => rfl, fun o b hown _ => ?_⟩
  have hout : owners.contains o = false := by
    rw [List.contains_eq_mem, decide_eq_false_iff_not]
    exact fun ho => hown (howners o ho)
  unfold World.resetScores ownerScore?
  rw [Std.HashMap.getElem?_filter']
  cases w.scores[(o, b)]? with
  | none => rfl
  | some v => rw [Option.filter_some, hout]; rfl

/-- A change of the own tags. -/
theorem retag (id : Nat) (w : World) (f : List String → List String) :
    KeepsTo id w (w.modifyEntity id fun e => { e with tags := f e.tags }) := by
  have hothers : ∀ i, i ≠ id →
      (w.modifyEntity id fun e => { e with tags := f e.tags }).entity? i = w.entity? i := by
    intro i hi
    rw [entity?_modifyEntity, if_neg hi]
  refine ⟨rfl, rfl, fun i => map_entity?_modifyEntity w id i fun _ => rfl, fun i hi => ?_,
    fun i hi _ => hothers i hi, fun _ _ _ _ => rfl⟩
  rw [hothers i hi]

/-- A change of what a passenger looks like. -/
theorem relook {p : Nat} (hp : w.Carries id p) {f : Entity → Entity}
    (hf : ∀ e, (f e).bare = e.bare) :
    KeepsTo id w (w.modifyEntity p f) := by
  refine ⟨rfl, rfl, fun i => map_entity?_modifyEntity w p i fun e => ?_,
    fun i _ => map_entity?_modifyEntity w p i hf, fun i _ hcarried => ?_, fun _ _ _ _ => rfl⟩
  · exact congrArg (fun e => ({ e with tags := [] } : Entity)) (hf e)
  · rw [entity?_modifyEntity, if_neg]
    rintro rfl
    exact hcarried hp

/-- Changes one after the other. -/
theorem foldl {α : Type} {f : World → α → World} {items : List α} {P : World → Prop}
    (hP : ∀ {w w'}, KeepsTo id w w' → P w → P w') (h : ∀ a ∈ items, ∀ w, P w → KeepsTo id w (f w a))
    (hw : P w) : KeepsTo id w (items.foldl f w) := by
  induction items generalizing w with
  | nil => exact refl id w
  | cons a rest ih =>
    obtain ⟨ha, hrest⟩ := List.forall_mem_cons.1 h
    have hstep := ha w hw
    exact hstep.trans (ih hrest (hP hstep hw))

end KeepsTo

end World

/-! ### Commands -/

/-- A clause that asks something and goes on as the same entity. -/
def Clause.isTest : Clause → Bool
  | .asEach _ | .onPassengers | .storeResultEntity _ | .storeResultScore .. => false
  | _ => true

/-- A test of the executing entity, or of what the author asks. -/
def Clause.isOwnTest : Clause → Bool
  | .score _ holder _ _ => holder == .this
  | .entity _ selector => selector.base == .this
  | clause => clause.isTest

/-- Tests of the executing entity are tests. -/
theorem Clause.isTest_of_isOwnTest {clause : Clause} (h : clause.isOwnTest = true) :
    clause.isTest = true := by
  cases clause with
  | score | entity => rfl
  | _ => exact h

namespace Command

/-- A command that changes neither entities nor scores. -/
def isQuiet : Command → Bool
  | .comment _ | .raw _ | .scoreGet .. => true
  | _ => false

/-- A command that changes the scores and tags of the executing entity only, and the score that its
passengers read. -/
def isOwn : Command → Bool
  | .scoreSet holder _ _ | .scoreAdd holder _ _ | .scoreRemove holder _ _ | .scoreReset holder _ =>
    holder == .this
  | .scoreOperation target _ _ _ _ => target == .this || target == interpHolder
  | .tagAdd target _ | .tagRemove target _ => target == .this
  | _ => false

/-- A command that only says something. -/
def isNote : Command → Bool
  | .comment _ | .raw _ => true
  | _ => false

/-- A command that changes the scores of the executing entity by what they were, or takes a tag away
from it. -/
def isPrivate : Command → Bool
  | .scoreSet holder _ _ | .scoreAdd holder _ _ | .scoreRemove holder _ _ | .scoreReset holder _ =>
    holder == .this
  | .scoreOperation target _ _ source _ => target == .this && source == .this
  | .tagRemove target _ => target == .this
  | _ => false

/-- A command that changes what the executing entity looks like. -/
def isLook : Command → Bool
  | .dataMerge target _ | .teleport target _ _ _ => target == .this
  | _ => false

/-- Commands that stay in the household of a root: run as the root itself, or as one of its
passengers where `rides` is true.  They may call the functions of `calls`. -/
inductive KeepsHome (calls : FunctionPath → Prop) : Bool → Command → Prop where
  | quiet {rides : Bool} {c : Command} (quiet : c.isQuiet = true) : KeepsHome calls rides c
  | own {c : Command} (own : c.isOwn = true) : KeepsHome calls false c
  | look {c : Command} (look : c.isLook = true) : KeepsHome calls true c
  | function {path : FunctionPath} (known : calls path) : KeepsHome calls false (.function path)
  | run {rides : Bool} {run : Command} (home : KeepsHome calls rides run) :
    KeepsHome calls rides (.execute [] run)
  | test {rides : Bool} {clause : Clause} {rest : List Clause} {run : Command}
    (test : clause.isTest = true) (home : KeepsHome calls rides (.execute rest run)) :
    KeepsHome calls rides (.execute (clause :: rest) run)
  | onPassengers {rest : List Clause} {run : Command}
    (home : KeepsHome calls true (.execute rest run)) :
    KeepsHome calls false (.execute (.onPassengers :: rest) run)
  | store {path : String} {rest : List Clause} {run : Command}
    (home : KeepsHome calls true (.execute rest run)) :
    KeepsHome calls true (.execute (.storeResultEntity path :: rest) run)

/-- Commands that stay in the household of a root and look at nothing outside of it, and that give
only the tags of `tags`. -/
inductive StaysHome (calls : FunctionPath → Prop) (tags : String → Prop) :
    Bool → Command → Prop where
  | quiet {rides : Bool} {c : Command} (note : c.isNote = true) : StaysHome calls tags rides c
  | own {c : Command} (own : c.isPrivate = true) : StaysHome calls tags false c
  | tag {tag : String} (given : tags tag) : StaysHome calls tags false (.tagAdd .this tag)
  | look {c : Command} (look : c.isLook = true) : StaysHome calls tags true c
  | function {path : FunctionPath} (known : calls path) :
      StaysHome calls tags false (.function path)
  | run {rides : Bool} {run : Command} (home : StaysHome calls tags rides run) :
    StaysHome calls tags rides (.execute [] run)
  | test {rides : Bool} {clause : Clause} {rest : List Clause} {run : Command}
    (test : clause.isOwnTest = true) (home : StaysHome calls tags rides (.execute rest run)) :
    StaysHome calls tags rides (.execute (clause :: rest) run)
  | onPassengers {rest : List Clause} {run : Command}
    (home : StaysHome calls tags true (.execute rest run)) :
    StaysHome calls tags false (.execute (.onPassengers :: rest) run)

namespace StaysHome

variable {calls : FunctionPath → Prop} {tags : String → Prop} {rides : Bool} {c : Command}

/-- A command behind tests. -/
theorem tests {clauses : List Clause} (hclauses : ∀ clause ∈ clauses, clause.isOwnTest = true)
    (h : c.StaysHome calls tags rides) : StaysHome calls tags rides (.execute clauses c) := by
  induction clauses with
  | nil => exact .run h
  | cons clause rest ih =>
    obtain ⟨hclause, hrest⟩ := List.forall_mem_cons.1 hclauses
    exact .test hclause (ih hrest)

/-- A command behind a single test. -/
theorem ifThen {clause : Clause} (htest : clause.isOwnTest = true)
    (h : c.StaysHome calls tags rides) : StaysHome calls tags rides (.execute [clause] c) :=
  .test htest (.run h)

/-- What stays home keeps home. -/
theorem keepsHome (h : c.StaysHome calls tags rides) : c.KeepsHome calls rides := by
  induction h with
  | @quiet rides c note =>
    refine .quiet ?_
    cases c with
    | comment | raw => rfl
    | _ => cases note
  | @own c own =>
    refine .own ?_
    cases c with
    | scoreOperation target targetObjective op source sourceObjective =>
      obtain ⟨htarget, -⟩ := Bool.and_eq_true_iff.1 own
      exact Bool.or_eq_true_iff.2 (.inl htarget)
    | scoreSet | scoreAdd | scoreRemove | scoreReset | tagRemove => exact own
    | _ => cases own
  | tag given => exact .own rfl
  | look look => exact .look look
  | function known => exact .function known
  | run _ ih => exact .run ih
  | test test _ ih => exact .test (Clause.isTest_of_isOwnTest test) ih
  | onPassengers _ ih => exact .onPassengers ih

end StaysHome

end Command

/-- The owner is the entity itself, or the name that every household shares. -/
def Owner.IsHome (id : Nat) (o : Owner) : Prop :=
  o = .entity id ∨ o = .fake "#interp"

namespace World

open Run (Leaves)

variable {id x : Nat} {w : World} {objective : String}

/-! ### What such commands change -/

/-- A test goes on or not. -/
theorem leaves_test {R : World → World → Prop} [IsPreorder World R] {clause : Clause}
    {rest : List Clause} {behind : Option Nat → Run Outcome} {executor : Option Nat}
    (htest : clause.isTest = true) (h : Leaves R (runClauses behind rest executor) w) :
    Leaves R (runClauses behind (clause :: rest) executor) w := by
  have hguard : ∀ b :
      Bool, Leaves R (if b then runClauses behind rest executor else pure none) w := by
    intro b
    cases b
    · exact .nothing _
    · exact h
  cases clause with
  | asEach | onPassengers | storeResultEntity | storeResultScore => cases htest
  | score negate holder objective range =>
    refine leaves_requireObjective.bind fun _ w' hrun => ?_
    obtain rfl := eq_of_requireObjective hrun
    exact .looking (hguard _)
  | entity negate selector => exact .looking (hguard _)
  | raw condition => exact .looking (hguard _)
  | atEach | positionedLocal | rotatedRelative => exact h

/-- Who selects itself finds itself only, as there is one entity for each number. -/
theorem eq_of_mem_select_this (hw : w.IsNumbered) {i : Nat} (hi : i ∈ w.select .this (some x)) :
    i = x := by
  obtain ⟨e, he, rfl⟩ := List.mem_map.1 hi
  have he := Option.mem_toList.1 (List.mem_filter.1 he).1
  exact hw x e he

/-- The scores of whoever selects itself are its own. -/
theorem isHome_of_mem_owners_this (hw : w.IsNumbered) {o : Owner}
    (ho : o ∈ w.owners .this (some id)) : o = .entity id := by
  obtain ⟨i, hi, rfl⟩ := List.mem_map.1 ho
  rw [eq_of_mem_select_this hw hi]

/-- Only scores at home are set. -/
theorem leaves_updateOwners {f : Option Int32 → Int32} {owners : List Owner} {last : Outcome}
    (h : ∀ o ∈ owners, o.IsHome id) :
    Leaves (KeepsTo id) (updateOwners objective f owners last) w := by
  induction owners generalizing w last with
  | nil => exact .nothing _
  | cons o rest ih =>
    obtain ⟨ho, hrest⟩ := List.forall_mem_cons.1 h
    exact .looking (.changing (KeepsTo.setOwnerScore ho w objective _) (ih hrest))

/-- Setting one's own score keeps home. -/
theorem leaves_updateScores {f : Option Int32 → Int32} (hw : w.IsNumbered) :
    Leaves (KeepsTo id) (updateScores .this objective (some id) f) w := by
  refine leaves_requireObjective.bind fun _ w' hrun => ?_
  obtain rfl := eq_of_requireObjective hrun
  exact .looking (leaves_updateOwners fun o ho => .inl (isHome_of_mem_owners_this hw ho))

/-- What is combined into an owner at home stays at home, wherever the sources are. -/
theorem leaves_combineFrom {target : Owner} {targetObjective : String} {op : ScoreOp}
    {sources : List Owner} {last : Outcome} (h : target.IsHome id) :
    Leaves (KeepsTo id) (combineFrom target targetObjective op objective sources last) w := by
  induction sources generalizing w last with
  | nil => exact .nothing _
  | cons source rest ih =>
    exact .looking (.changing (KeepsTo.setOwnerScore h w targetObjective _) ih)

/-- So it is for several targets. -/
theorem leaves_combineAll {targetObjective : String} {op : ScoreOp} {sources targets : List Owner}
    {last : Outcome} (h : ∀ o ∈ targets, o.IsHome id) :
    Leaves (KeepsTo id) (combineAll targetObjective op sources objective targets last) w := by
  induction targets generalizing w last with
  | nil => exact .nothing _
  | cons target rest ih =>
    obtain ⟨htarget, hrest⟩ := List.forall_mem_cons.1 h
    exact (leaves_combineFrom htarget).andThen fun _ _ => ih hrest

variable {call : FunctionPath → Option Nat → Run Outcome} {c : Command}

/-- Comments, recorded lines and questions about scores change no household. -/
theorem leaves_quiet (hc : c.isQuiet = true) :
    Leaves (KeepsTo id) (runCommand call c (some x)) w := by
  cases c with
  | comment text => exact .nothing _
  | raw text => exact .changing (KeepsTo.record id w _) (.nothing _)
  | scoreGet holder objective =>
    exact leaves_requireObjective.andThen fun _ _ => .looking (.nothing _)
  | _ => cases hc

/-- Changing tags of the entity and counting the changes. -/
theorem keepsTo_counting {f : World × Nat → Nat → World × Nat} {ids : List Nat}
    (h : ∀ i ∈ ids, ∀ y : World × Nat, KeepsTo id y.1 (f y i).1) (y : World × Nat) :
    KeepsTo id y.1 (ids.foldl f y).1 := by
  induction ids generalizing y with
  | nil => exact .refl id y.1
  | cons i rest ih =>
    obtain ⟨hi, hrest⟩ := List.forall_mem_cons.1 h
    exact (hi y).trans (ih hrest (f y i))

/-- A command that names the executing entity as its target writes to that entity only. -/
theorem leaves_own (hc : c.isOwn = true) (hw : w.IsNumbered) :
    Leaves (KeepsTo id) (runCommand call c (some id)) w := by
  -- a selector of the executor itself picks no one else
  have hids : ∀ i ∈ w.select .this (some id), i = id := fun i => eq_of_mem_select_this hw
  cases c with
  | scoreSet holder objective value | scoreAdd holder objective value
  | scoreRemove holder objective value =>
    obtain rfl := beq_iff_eq.1 hc
    exact leaves_updateScores hw
  | scoreReset holder objective =>
    obtain rfl := beq_iff_eq.1 hc
    refine .looking (.changing (KeepsTo.resetScores (fun o ho => ?_) w objective) (.nothing _))
    exact isHome_of_mem_owners_this hw ho
  | scoreOperation target targetObjective op source sourceObjective =>
    refine leaves_requireObjective.bind fun _ w' hrun => ?_
    obtain rfl := eq_of_requireObjective hrun
    refine leaves_requireObjective.bind fun _ w' hrun => ?_
    obtain rfl := eq_of_requireObjective hrun
    refine .looking (leaves_combineAll fun o ho => ?_)
    -- the target is the entity itself, or the name that is shared by all households
    rcases Bool.or_eq_true_iff.1 hc with htarget | htarget
    · obtain rfl := beq_iff_eq.1 htarget
      exact .inl (isHome_of_mem_owners_this hw ho)
    · obtain rfl := beq_iff_eq.1 htarget
      exact .inr (List.mem_singleton.1 ho)
  | tagAdd target tag =>
    obtain rfl := beq_iff_eq.1 hc
    refine .looking
      (.changing (f := fun _ => _) (keepsTo_counting (fun i hi y => ?_) (w, 0)) (.nothing _))
    obtain rfl := hids i hi
    dsimp only
    split
    · exact .refl i y.1
    · exact KeepsTo.retag i y.1 (insertTag tag)
  | tagRemove target tag =>
    obtain rfl := beq_iff_eq.1 hc
    refine .looking
      (.changing (f := fun _ => _) (keepsTo_counting (fun i hi y => ?_) (w, 0)) (.nothing _))
    obtain rfl := hids i hi
    dsimp only
    split
    · exact KeepsTo.retag i y.1 (List.filter (· != tag))
    · exact .refl i y.1
  | _ => cases hc

/-- Changing what a passenger looks like. -/
theorem leaves_changeEntities {ids : List Nat} {f : Entity → Entity} (hids : ∀ i ∈ ids, i = x)
    (hx : w.Carries id x) (hf : ∀ e, (f e).bare = e.bare) :
    Leaves (KeepsTo id) (changeEntities ids f) w := by
  refine .changing
    (KeepsTo.foldl (P := fun w => w.Carries id x) (fun h => h.carries) (fun i hi w hw => ?_) hx)
    (.nothing _)
  obtain rfl := hids i hi
  exact KeepsTo.relook hw hf

/-- Data and place of a passenger are changed by a command that the passenger runs on itself. -/
theorem leaves_look (hc : c.isLook = true) (hx : w.Carries id x) (hw : w.IsNumbered) :
    Leaves (KeepsTo id) (runCommand call c (some x)) w := by
  have hids : ∀ i ∈ w.select .this (some x), i = x := fun i => eq_of_mem_select_this hw
  cases c with
  | dataMerge target data | teleport target offset yaw pitch =>
    obtain rfl := beq_iff_eq.1 hc
    exact .looking (leaves_changeEntities hids hx fun _ => rfl)
  | _ => cases hc

/-- A result is stored in the passenger that runs the command. -/
theorem leaves_storeInEntity {path : String} {value : Int32} (hx : w.Carries id x) :
    Leaves (KeepsTo id) (storeInEntity (some x) path value) w := by
  refine .looking ?_
  split
  · exact .failing _
  · refine .changing ?_ (.nothing _)
    exact KeepsTo.relook hx (f := fun e => { e with data := e.data.insert path (.int value) })
      fun _ => rfl

/-- Who is found among the passengers is carried. -/
theorem carries_of_mem_passengers (hw : w.IsNumbered) {p : Nat}
    (hp : p ∈ (w.passengers id).map (·.id)) : w.Carries id p := by
  obtain ⟨e, he, rfl⟩ := List.mem_map.1 hp
  unfold passengers at he
  split at he
  · cases he
  · next carrier hcarrier =>
    obtain ⟨i, hi, hfound⟩ := List.mem_filterMap.1 (List.mem_filter.1 he).1
    rw [hw i e hfound]
    exact ⟨carrier, hcarrier, hi⟩

/-- A world of which entities stand at the places of their numbers, with these functions. -/
structure Runs (functions : Std.HashMap FunctionPath (List Command)) (w : World) : Prop where
  numbered : w.IsNumbered
  functions : w.functions = functions

variable {functions : Std.HashMap FunctionPath (List Command)}

/-- In a world where only a household has changed, the same functions run. -/
theorem Runs.keepsTo {w' : World} (h : Runs functions w) (hw : KeepsTo id w w') :
    Runs functions w' :=
  ⟨hw.isNumbered h.numbered, (functions_eq_of_setting hw.setting).trans h.functions⟩

/-- Going on as passengers one after the other. -/
theorem leaves_fork {go : Option Nat → Run Outcome} {ids : List Nat} {succeeded : Nat}
    (hgo : ∀ p (w : World), Runs functions w → w.Carries id p → Leaves (KeepsTo id) (go (some p)) w)
    (hw : Runs functions w) (hids : ∀ p ∈ ids, w.Carries id p) :
    Leaves (KeepsTo id) (fork go ids succeeded) w := by
  induction ids generalizing w succeeded with
  | nil => exact .nothing _
  | cons p rest ih =>
    obtain ⟨hp, hrest⟩ := List.forall_mem_cons.1 hids
    have hstep := hgo p w hw hp
    refine hstep.bind fun a w' hrun => ?_
    have hkeeps := hstep.of_on hrun
    exact ih (hw.keepsTo hkeeps) fun p hp => hkeeps.carries (hrest p hp)

/-- Commands in order keep to a household if each of them does. -/
theorem leaves_runAll {run : Command → Run Outcome} {cs : List Command}
    (hrun : ∀ c ∈ cs, ∀ w : World, Runs functions w → Leaves (KeepsTo id) (run c) w)
    (hw : Runs functions w) : Leaves (KeepsTo id) (runAll run cs) w := by
  induction cs generalizing w with
  | nil => exact .nothing _
  | cons c rest ih =>
    obtain ⟨hc, hrest⟩ := List.forall_mem_cons.1 hrun
    have hstep := hc w hw
    exact hstep.bind fun o w' hw' => ih hrest (hw.keepsTo (hstep.of_on hw'))

end World

open Run (Leaves)
open World (KeepsTo Runs)

variable {functions : Std.HashMap FunctionPath (List Command)} {calls : FunctionPath → Prop}
  {id : Nat} {w : World}

/-- Whatever a command does that keeps home, also if it ends with an error, keeps to the household
of the root, as long as the functions do that it may call. -/
theorem Command.KeepsHome.leaves {call : FunctionPath → Option Nat → Run Outcome} {c : Command}
    {rides : Bool} {x : Nat}
    (hcall : ∀ path, calls path → ∀ w : World, Runs functions w →
      Leaves (KeepsTo id) (call path (some id)) w)
    (h : c.KeepsHome calls rides) (hx : if rides then w.Carries id x else x = id)
    (hw : Runs functions w) : Leaves (KeepsTo id) (World.runCommand call c (some x)) w := by
  induction h generalizing w x with
  | quiet quiet => exact World.leaves_quiet quiet
  | own own =>
    obtain rfl : x = id := hx
    exact World.leaves_own own hw.numbered
  | look look => exact World.leaves_look look hx hw.numbered
  | function known =>
    obtain rfl : x = id := hx
    exact hcall _ known w hw
  | run _ ih => exact ih hx hw
  | test test _ ih => exact World.leaves_test test (ih hx hw)
  -- the passengers stand at their numbers, so each of them runs as itself
  | onPassengers _ ih =>
    obtain rfl : x = id := hx
    refine .looking (World.leaves_fork (fun p w hw hp => ih hp hw) hw fun p hp => ?_)
    refine World.carries_of_mem_passengers hw.numbered ?_
    simpa using hp
  -- the passenger is still carried after the run behind the clause
  | store _ ih =>
    have hstep := ih hx hw
    refine hstep.bind fun o w' hrun => ?_
    exact (World.leaves_storeInEntity ((hstep.of_on hrun).carries hx)).andThen fun _ _ => .nothing _

/-- If every command of the functions that may be called keeps home, each of these functions keeps
to the household of the root, however deep it calls others and however it ends. -/
theorem World.leaves_callFunction
    (hhome : ∀ path body, functions[path]? = some body → calls path →
      ∀ c ∈ body, c.KeepsHome calls false)
    {path : FunctionPath} (hpath : calls path) (depth : Nat) (hw : Runs functions w) :
    Leaves (KeepsTo id) (World.callFunction depth path (some id)) w := by
  induction depth generalizing path w with
  | zero => exact .looking (.failing _)
  | succ depth ih =>
    refine .looking ?_
    split
    · exact .failing _
    · next body hbody =>
      rw [hw.functions] at hbody
      refine (leaves_runAll (fun c hc w hw => ?_) hw).andThen fun _ _ => .nothing _
      exact Command.KeepsHome.leaves (fun path hpath w hw => ih hpath hw)
        (hhome path body hbody hpath c hc) rfl hw

end Marionette
