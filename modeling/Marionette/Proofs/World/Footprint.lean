import Marionette.Proofs.World.Changes
import Marionette.Proofs.World.Commands
import Marionette.Proofs.World.Spawning

/-!
# What functions may write

Commands name the objectives and the tags that they write.  So the text of a function tells which
scores and tags it leaves as they are, in every world, whoever runs it and however it ends.

- `Footprint`: objectives and tags that may be written, and functions that may be called.
- `Command.Within`: a command writes and calls nothing else.
- `World.KeepsBeyond`: all other scores and tags are the same in two worlds.
- `Command.Within.leaves`: whatever such a command does keeps them.
- `World.keepsBeyond_callFunction`: so does a function if all functions that it may call are within
  the footprint.
-/

namespace Marionette

/-- What functions may write and call. -/
structure Footprint where
  /-- Objectives whose scores may be written. -/
  objectives : List String
  /-- Tags that may be given and taken away. -/
  tags : List String
  /-- Functions that may be called. -/
  calls : FunctionPath → Prop

/-- A clause writes nothing else. -/
def Clause.Within (p : Footprint) : Clause → Prop
  | .storeResultScore _ objective => objective ∈ p.objectives
  | _ => True

/-- A command writes and calls nothing else, and it neither creates nor removes entities. -/
def Command.Within (p : Footprint) : Command → Prop
  | .scoreSet _ objective _ | .scoreAdd _ objective _ | .scoreRemove _ objective _
  | .scoreOperation _ objective _ _ _ | .scoreReset _ (some objective) => objective ∈ p.objectives
  | .scoreReset _ none | .summon _ _ | .kill _ => False
  | .tagAdd _ tag | .tagRemove _ tag => tag ∈ p.tags
  | .function path => p.calls path
  | .execute clauses run => (∀ clause ∈ clauses, clause.Within p) ∧ run.Within p
  | .objectiveAdd _ | .scoreGet _ _ | .dataMerge _ _ | .teleport _ _ _ _ | .raw _ | .comment _ =>
    True

namespace World

/-- The functions are the same, and so are all scores and tags beyond a footprint. -/
structure KeepsBeyond (p : Footprint) (w w' : World) : Prop where
  functions : w'.functions = w.functions
  score : ∀ owner objective, objective ∉ p.objectives →
    w'.ownerScore? owner objective = w.ownerScore? owner objective
  tag : ∀ id tag, tag ∉ p.tags → w'.hasTag id tag = w.hasTag id tag

namespace KeepsBeyond

variable {p : Footprint} {w : World}

instance (p : Footprint) : IsPreorder World (KeepsBeyond p) where
  refl _ := ⟨rfl, fun _ _ _ => rfl, fun _ _ _ => rfl⟩
  trans _ _ _ h h' := ⟨h'.functions.trans h.functions,
    fun owner objective ho => (h'.score owner objective ho).trans (h.score owner objective ho),
    fun id tag ht => (h'.tag id tag ht).trans (h.tag id tag ht)⟩

/-! ### Single changes -/

/-- New objectives and recorded lines are beyond no footprint. -/
theorem declare (w : World) (objective : String) :
    KeepsBeyond p w { w with objectives := w.objectives.insert objective } :=
  ⟨rfl, fun _ _ _ => rfl, fun _ _ _ => rfl⟩

theorem record (w : World) (line : RawOutput) :
    KeepsBeyond p w { w with output := w.output.push line } :=
  ⟨rfl, fun _ _ _ => rfl, fun _ _ _ => rfl⟩

/-- A score of the footprint may be set for any owner. -/
theorem setOwnerScore {objective : String} (ho : objective ∈ p.objectives) (owner : Owner)
    (value : Int32) : KeepsBeyond p w (w.setOwnerScore owner objective value) := by
  refine ⟨rfl, fun owner' other hother => ?_, fun _ _ _ => rfl⟩
  have hne : objective ≠ other := fun heq => hother (heq ▸ ho)
  unfold World.setOwnerScore ownerScore?
  rw [Std.HashMap.getElem?_insert, if_neg (by simp [hne])]

/-- Scores of one objective of the footprint may be removed. -/
theorem resetScores {objective : String} (ho : objective ∈ p.objectives) (owners : List Owner) :
    KeepsBeyond p w (w.resetScores owners (some objective)) := by
  refine ⟨rfl, fun owner other hother => ?_, fun _ _ _ => rfl⟩
  have hne : (objective == other) = false := beq_false_of_ne fun heq => hother (heq ▸ ho)
  unfold World.resetScores ownerScore?
  rw [Std.HashMap.getElem?_filter']
  cases w.scores[(owner, other)]? with
  | none => rfl
  | some value => simp [hne]

/-- An entity changes, but all its tags beyond the footprint stay. -/
theorem alter {f : Entity → Entity} (hf : ∀ e tag, tag ∉ p.tags → (f e).hasTag tag = e.hasTag tag)
    (id : Nat) : KeepsBeyond p w (w.modifyEntity id f) := by
  refine ⟨rfl, fun _ _ _ => rfl, fun i tag htag => ?_⟩
  unfold hasTag
  rw [entity?_modifyEntity]
  split
  · cases w.entity? i with
    | none => rfl
    | some e => exact hf e tag htag
  · rfl

/-- A tag of the footprint may be given to any entity. -/
theorem giveTag {tag : String} (htag : tag ∈ p.tags) (id : Nat) :
    KeepsBeyond p w (w.modifyEntity id fun e => { e with tags := insertTag tag e.tags }) := by
  refine alter (fun e other hother => ?_) id
  have hne : other ≠ tag := fun heq => hother (heq ▸ htag)
  simp [Entity.hasTag, mem_insertTag, hne]

/-- And it may be taken away. -/
theorem takeTag {tag : String} (htag : tag ∈ p.tags) (id : Nat) :
    KeepsBeyond p w (w.modifyEntity id fun e => { e with tags := e.tags.filter (· != tag) }) := by
  refine alter (fun e other hother => ?_) id
  have hne : other ≠ tag := fun heq => hother (heq ▸ htag)
  simp [Entity.hasTag, hne]

end KeepsBeyond

open Run (Leaves)

variable {p : Footprint} {w : World} {executor : Option Nat} {objective : String}

/-! ### Scores and entities -/

/-- Setting scores of the footprint, one owner after the other. -/
theorem keepsBeyond_updateOwners {f : Option Int32 → Int32} {owners : List Owner} {last : Outcome}
    (ho : objective ∈ p.objectives) :
    Leaves (KeepsBeyond p) (updateOwners objective f owners last) w := by
  induction owners generalizing w last with
  | nil => exact .nothing _
  | cons owner rest ih => exact .looking (.changing (.setOwnerScore ho owner _) ih)

/-- Commands on scores of the footprint keep everything beyond it. -/
theorem keepsBeyond_updateScores {holder : Holder} {f : Option Int32 → Int32}
    (ho : objective ∈ p.objectives) :
    Leaves (KeepsBeyond p) (updateScores holder objective executor f) w :=
  leaves_requireObjective.andThen fun _ _ => .looking (keepsBeyond_updateOwners ho)

/-- Only the objective of the targets has to be in the footprint. -/
theorem keepsBeyond_combineAll {source : String} {op : ScoreOp} {sources targets : List Owner}
    {last : Outcome} (ho : objective ∈ p.objectives) :
    Leaves (KeepsBeyond p) (combineAll objective op sources source targets last) w := by
  have hfrom : ∀ target (w : World) last,
      Leaves (KeepsBeyond p) (combineFrom target objective op source sources last) w := by
    intro target
    induction sources with
    | nil => exact fun _ _ => .nothing _
    | cons source rest ih =>
      exact fun w _ => .looking (.changing (.setOwnerScore ho target _) (ih _ _))
  induction targets generalizing w last with
  | nil => exact .nothing _
  | cons target rest ih => exact (hfrom target w last).andThen fun _ _ => ih

/-- Changes of what entities look like. -/
theorem keepsBeyond_changeEntities {ids : List Nat} {f : Entity → Entity}
    (hf : ∀ e, (f e).tags = e.tags) : Leaves (KeepsBeyond p) (changeEntities ids f) w := by
  refine .changing (Tolerates.foldl (fun id _ w => .alter (fun e tag _ => ?_) id) w) (.nothing _)
  rw [Entity.hasTag, hf, Entity.hasTag]

/-- Data of entities is in every footprint. -/
theorem keepsBeyond_storeInEntity {path : String} {value : Int32} :
    Leaves (KeepsBeyond p) (storeInEntity executor path value) w := by
  cases executor with
  | none => exact .nothing _
  | some id =>
    refine .looking ?_
    split
    · exact .failing _
    · exact .changing (.alter (f := fun e => { e with data := e.data.insert path (.int value) })
        (fun _ _ _ => rfl) id) (.nothing _)

/-! ### Clauses, commands and functions -/

/-- Of the clauses, only the one that stores a result in a score has to be in the footprint. -/
theorem keepsBeyond_runClauses {behind : Option Nat → Run Outcome} {clauses : List Clause}
    (hclauses : ∀ clause ∈ clauses, clause.Within p)
    (hbehind : ∀ executor w', KeepsBeyond p w w' → Leaves (KeepsBeyond p) (behind executor) w') :
    Leaves (KeepsBeyond p) (runClauses behind clauses executor) w := by
  induction clauses generalizing w executor with
  | nil => exact hbehind executor w (Std.Refl.refl w)
  | cons clause rest ih =>
    obtain ⟨hclause, hrest⟩ := List.forall_mem_cons.1 hclauses
    -- the clauses that are left go on from any world in between
    have hgo : ∀ executor w', KeepsBeyond p w w' →
        Leaves (KeepsBeyond p) (runClauses behind rest executor) w' := fun _ w' hw' =>
      ih hrest fun executor w'' hw'' => hbehind executor w'' (IsTrans.trans _ _ _ hw' hw'')
    have hguard : ∀ b : Bool,
        Leaves (KeepsBeyond p) (if b then runClauses behind rest executor else pure none) w := by
      intro b
      cases b
      · exact .nothing _
      · exact hgo executor w (Std.Refl.refl w)
    cases clause with
    | score negate holder objective range =>
      refine leaves_requireObjective.bind fun _ w' hrun => ?_
      obtain rfl := eq_of_requireObjective hrun
      exact .looking (hguard _)
    | entity negate selector => exact .looking (hguard _)
    | asEach selector => exact .looking (Tolerates.fork hgo)
    | onPassengers => exact .looking (Tolerates.fork hgo)
    | atEach | positionedLocal | rotatedRelative => exact hgo executor w (Std.Refl.refl w)
    -- results in the data of an entity concern no score and no tag
    | storeResultEntity path =>
      exact (hgo executor w (Std.Refl.refl w)).andThen fun _ _ =>
        keepsBeyond_storeInEntity.andThen fun _ _ => .nothing _
    | storeResultScore holder objective =>
      exact (hgo executor w (Std.Refl.refl w)).andThen fun _ _ =>
        (keepsBeyond_updateScores hclause).andThen fun _ _ => .nothing _
    | raw condition => exact .looking (hguard _)

end World

open Run (Leaves)
open World (KeepsBeyond)

variable {p : Footprint} {w : World} {executor : Option Nat}

/-- Whatever a command does that is within a footprint, also if it ends with an error, keeps all
scores and tags beyond it, as long as the functions do that it may call. -/
theorem Command.Within.leaves {call : FunctionPath → Option Nat → Run Outcome} {c : Command}
    (hcall : ∀ path, p.calls path → ∀ executor w', KeepsBeyond p w w' →
      Leaves (KeepsBeyond p) (call path executor) w')
    (h : c.Within p) : Leaves (KeepsBeyond p) (World.runCommand call c executor) w := by
  induction c generalizing w executor with
  | comment text => exact .nothing _
  | objectiveAdd name =>
    refine .looking ?_
    split
    · exact .nothing _
    · exact .changing (f := fun _ => _) (.declare w name) (.nothing _)
  | scoreSet | scoreAdd | scoreRemove => exact World.keepsBeyond_updateScores h
  | scoreOperation target targetObjective op source sourceObjective =>
    exact World.leaves_requireObjective.andThen fun _ w =>
      World.leaves_requireObjective.andThen fun _ w => .looking (World.keepsBeyond_combineAll h)
  | scoreGet holder objective =>
    exact World.leaves_requireObjective.andThen fun _ w => .looking (.nothing _)
  | scoreReset holder objective =>
    -- without an objective all scores of the owners would go
    cases objective with
    | none => exact absurd h id
    | some objective => exact .looking (.changing (.resetScores h _) (.nothing _))
  -- a tag of the footprint may be given to anyone
  | tagAdd target tag =>
    refine .looking
      (.changing (f := fun _ => _) (World.Tolerates.counting (fun id _ y => ?_) (w, 0))
      (.nothing _))
    dsimp only
    split
    · exact Std.Refl.refl y.1
    · exact .giveTag h id
  | tagRemove target tag =>
    refine .looking
      (.changing (f := fun _ => _) (World.Tolerates.counting (fun id _ y => ?_) (w, 0))
      (.nothing _))
    dsimp only
    split
    · exact .takeTag h id
    · exact Std.Refl.refl y.1
  | function path => exact hcall path h executor w (Std.Refl.refl w)
  | execute clauses run ih =>
    refine World.keepsBeyond_runClauses h.1 fun executor w' hw' =>
      ih (fun path hpath executor w'' hw'' => ?_) h.2
    exact hcall path hpath executor w'' (IsTrans.trans _ _ _ hw' hw'')
  | dataMerge target data => exact .looking (World.keepsBeyond_changeEntities fun _ => rfl)
  | teleport target offset yaw pitch =>
    exact .looking (World.keepsBeyond_changeEntities fun _ => rfl)
  -- entities that come or go are not within a footprint
  | summon | kill => exact absurd h id
  | raw text => exact .changing (.record w _) (.nothing _)

/-- If every command of the functions that may be called is within the footprint, each of these
functions keeps all scores and tags beyond it, however deep it calls others and however it ends. -/
theorem World.keepsBeyond_callFunction {functions : Std.HashMap FunctionPath (List Command)}
    (hwithin : ∀ path body, functions[path]? = some body → p.calls path → ∀ c ∈ body, c.Within p)
    {path : FunctionPath} (hpath : p.calls path) (depth : Nat) (hw : w.functions = functions) :
    Leaves (KeepsBeyond p) (World.callFunction depth path executor) w := by
  induction depth generalizing path executor w with
  | zero => exact .looking (.failing _)
  | succ depth ih =>
    refine .looking ?_
    split
    · exact .failing _
    · next body hbody =>
      rw [hw] at hbody
      refine (Tolerates.runAll fun c hc w' hw' => ?_).andThen fun _ _ => .nothing _
      refine Command.Within.leaves (fun path hpath executor w'' hw'' => ?_)
        (hwithin path body hbody hpath c hc)
      exact ih hpath ((hw''.functions.trans hw'.functions).trans hw)

end Marionette
