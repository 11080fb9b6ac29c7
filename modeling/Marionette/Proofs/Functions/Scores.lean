import Marionette.Proofs.DispatchTree.Order
import Marionette.Proofs.Functions.Data

/-!
# Numbers of ticks in functions

Scores are signed integers of 32 bits, while settings, lengths and ticks are natural numbers.  The
tables here say which numbers the functions should set scores to, change them by and compare them
with; a range contributes its least and its greatest score.

- `Command.scores`: the numbers in a command.
- `asScore`: what becomes of a number as a score.
- `ScoreTable`: functions with the numbers they should have; `Stage.Writes`: functions have them, as
  far as scores can.
- `ClipPaths.treeScores`, `ClipPaths.controlScores`, `rigScores`: the tables.
- `Stage.lt_of_mem_treeScores`: all numbers in the trees of an animation are ticks of it.
- `Stage.writes_dispatchFunctions`, `Stage.writes_controlFunctions`, `Stage.writes_scoreFunctions`:
  the functions have the numbers of the tables.
- `Stage.scores_framesFrom`: there are no numbers for scores in the functions of frames.
-/

namespace Marionette

/-- The bounds of a range. -/
def ScoreRange.bounds (r : ScoreRange) : List Int32 :=
  r.min.toList ++ r.max.toList

/-- The numbers that a clause compares scores with. -/
def Clause.scores : Clause → List Int32
  | .score _ _ _ range => range.bounds
  | _ => []

/-- The numbers that a command sets scores to, changes them by or compares them with. -/
def Command.scores : Command → List Int32
  | .scoreSet _ _ value | .scoreAdd _ _ value | .scoreRemove _ _ value => [value]
  | .execute clauses run => clauses.flatMap Clause.scores ++ run.scores
  | _ => []

/-- The numbers in commands, in order. -/
def scoresOf (commands : List Command) : List Int :=
  (commands.flatMap Command.scores).map Int32.toInt

/-- Functions with the numbers that they should have. -/
abbrev ScoreTable := List (FunctionPath × List Nat)

/-! ### What the numbers should be -/

namespace ClipPaths

variable (paths : ClipPaths)

/-- A branch asks whether the frame is in the range of a child. -/
def exactScores : DispatchNode → ScoreTable
  | .leaf _ => []
  | .branch lo hi left right =>
    (paths.branch lo hi, [left.lo, left.hi, right.lo, right.hi]) ::
      (exactScores left ++ exactScores right)

/-- Under seeking a child serves every tick up to the next child, and the last one up to `upper`. -/
def seekScores (upper : Nat) : DispatchNode → ScoreTable
  | .leaf _ => []
  | .branch lo hi left right =>
    (paths.seekBranch lo hi, [left.lo, right.lo - 1, right.lo, upper]) ::
      (seekScores (right.lo - 1) left ++ seekScores upper right)

/-- Both trees with their entry points. -/
def treeScores (tree : DispatchTree) : ScoreTable :=
  match tree.root with
  | none => [(paths.dispatch, []), (paths.seek, [])]
  | some root =>
    [(paths.dispatch, [root.lo, root.hi])] ++ paths.exactScores root ++
      [(paths.seek, [root.lo, tree.duration - 1])] ++ paths.seekScores (tree.duration - 1) root

/-- The controls of an animation. -/
def controlScores (config : Config) (clip : Clip) : ScoreTable :=
  let interp := config.interpolationDuration
  let tween := config.tweenDuration
  [(paths.control "play", [0, 0, 0, 0, interp]),
    (paths.control "resume", [interp]),
    (paths.control "pause", []),
    (paths.control "stop", [0, 0, 0]),
    (paths.control "tween_play", [0, tween, 1, 0]),
    (paths.control "tween_resume", [tween, 1]),
    (paths.control "tick", [1]),
    (paths.control "advance", [1, clip.duration]),
    (paths.control "end", [0, 0, clip.duration + clip.loopDelay, 0, 0, 0, 0, 0, 1, 1, 2, 2,
      max clip.duration 1 - 1, 2, 2]),
    (paths.control "apply_frame", []),
    (paths.control "set_frame", [])]

end ClipPaths

/-- The number of a loop mode. -/
def LoopMode.number : LoopMode → Nat
  | .loop => 0
  | .once => 1
  | .hold => 2

/-- The functions of a rig that have numbers for scores. -/
def rigScores (namespaceName : String) (config : Config) (clips : List Clip) : ScoreTable :=
  let interp := config.interpolationDuration
  [(⟨namespaceName, "on_tick"⟩, [1, 1]),
    (⟨namespaceName, "tween_step"⟩, [1, 0, interp]),
    (⟨namespaceName, "init_instance"⟩,
      [0, 0, 0, interp] ++ clips.flatMap fun clip => [0, clip.loopMode.number])]

/-- Commands without numbers. -/
theorem scoresOf_eq_nil {cs : List Command} (h : ∀ c ∈ cs, c.scores = []) : scoresOf cs = [] := by
  rw [scoresOf, List.flatMap_eq_nil_iff.2 h]
  rfl

/-! ### Numbers as scores -/

/-- What becomes of a number as a score. -/
def asScore (n : Nat) : Int := (Int32.ofNat n).toInt

/-- A number is kept as a score if and only if it is in the range of scores. -/
theorem asScore_eq_iff {n : Nat} : asScore n = n ↔ n ≤ 2147483647 := by
  unfold asScore
  constructor
  · intro h
    have hlt := Int32.toInt_lt (Int32.ofNat n)
    omega
  · intro h
    exact Int32.toInt_ofNat_of_lt (by omega)

/-- Numbers are kept as scores if and only if they all are in that range. -/
theorem map_asScore_eq_iff {ns : List Nat} :
    ns.map asScore = ns.map Nat.cast ↔ ∀ n ∈ ns, n ≤ 2147483647 := by
  rw [List.map_inj_left]
  exact forall₂_congr fun _ _ => asScore_eq_iff

section Short

@[simp] theorem ScoreRange.bounds_exact (v : Int32) : (ScoreRange.exact v).bounds = [v, v] := rfl

@[simp] theorem ScoreRange.bounds_atLeast (v : Int32) : (ScoreRange.atLeast v).bounds = [v] := rfl

@[simp] theorem ScoreRange.bounds_atMost (v : Int32) : (ScoreRange.atMost v).bounds = [v] := rfl

@[simp] theorem Clause.scores_ifOwn (objective : String) (range : ScoreRange) :
    (ifOwn objective range).scores = range.bounds := rfl

@[simp] theorem Clause.scores_unlessScore (holder : Holder) (objective : String)
    (range : ScoreRange) : (Clause.unlessScore holder objective range).scores = range.bounds := rfl

@[simp] theorem Clause.scores_ifEntity (selector : Selector) :
    (Clause.ifEntity selector).scores = [] := rfl

@[simp] theorem scores_setOwn (objective : String) (value : Int32) :
    (setOwn objective value).scores = [value] := rfl

@[simp] theorem scores_copyOwn (target source : String) : (copyOwn target source).scores = [] := rfl

@[simp] theorem Stage.scores_sync (s : Stage) : s.sync.scores = [] := rfl

end Short

namespace Stage

variable {s : Stage} {paths : ClipPaths} {frame : Frame} {clip : Clip} {clips : List CompiledClip}

/-- The functions have the numbers of a table, as far as scores can. -/
def Writes (fs : List GeneratedFunction) (table : ScoreTable) : Prop :=
  List.Forall₂ (fun g e => g.1 = e.1 ∧ scoresOf g.2 = e.2.map asScore) fs table

/-- Tables of parts make up the table of the whole. -/
theorem Writes.append {fs gs : List GeneratedFunction} {table table' : ScoreTable}
    (hf : Writes fs table) (hg : Writes gs table') : Writes (fs ++ gs) (table ++ table') :=
  List.rel_append hf hg

/-! ### Trees -/

/-- In a tree all numbers are ticks up to the last one that it serves. -/
theorem le_of_mem_exactScores {n : DispatchNode} (hn : n.Ordered) :
    ∀ e ∈ paths.exactScores n, ∀ tick ∈ e.2, tick ≤ n.hi := by
  induction n with
  | leaf frame => exact List.forall_mem_nil _
  | branch lo hi left right ihl ihr =>
    obtain ⟨rfl, rfl, hlt, hl, hr⟩ := hn
    have hll := hl.lo_le_hi
    have hrr := hr.lo_le_hi
    refine List.forall_mem_cons.2 ⟨?_, List.forall_mem_append.2 ⟨fun e he tick htick => ?_, ihr hr⟩⟩
    · show ∀ tick ∈ [left.lo, left.hi, right.lo, right.hi], tick ≤ right.hi
      simp
      omega
    · have hle := ihl hl e he tick htick
      show tick ≤ right.hi
      omega

/-- Seeking compares with no tick beyond the last one that is served. -/
theorem le_of_mem_seekScores {n : DispatchNode} {upper : Nat} (hn : n.Ordered)
    (hhi : n.hi ≤ upper) :
    ∀ e ∈ paths.seekScores upper n, ∀ tick ∈ e.2, tick ≤ upper := by
  induction n generalizing upper with
  | leaf frame => exact List.forall_mem_nil _
  | branch lo hi left right ihl ihr =>
    obtain ⟨rfl, rfl, hlt, hl, hr⟩ := hn
    have hll := hl.lo_le_hi
    have hrr := hr.lo_le_hi
    have hhi : right.hi ≤ upper := hhi
    -- the left part serves the ticks below the right one, the right part the rest
    refine List.forall_mem_cons.2
      ⟨?_, List.forall_mem_append.2 ⟨fun e he tick htick => ?_, ihr hr hhi⟩⟩
    · show ∀ tick ∈ [left.lo, right.lo - 1, right.lo, upper], tick ≤ upper
      simp
      omega
    · have hle := ihl hl (by omega : left.hi ≤ right.lo - 1) e he tick htick
      omega

/-- So they lie below the duration. -/
theorem lt_of_mem_treeScores {tree : DispatchTree} (hroot : ∀ n, tree.root = some n → n.Ordered)
    (hhi : ∀ n, tree.root = some n → n.hi < tree.duration) :
    ∀ e ∈ paths.treeScores tree, ∀ tick ∈ e.2, tick < tree.duration := by
  unfold ClipPaths.treeScores
  cases h : tree.root with
  | none => simp
  | some root =>
    have hn := hroot root h
    have hlt := hhi root h
    have hle := hn.lo_le_hi
    dsimp only
    refine List.forall_mem_append.2
      ⟨List.forall_mem_append.2 ⟨List.forall_mem_append.2 ⟨?_, ?_⟩, ?_⟩, ?_⟩
    · simp
      omega
    · exact fun e he tick htick => Nat.lt_of_le_of_lt (le_of_mem_exactScores hn e he tick htick) hlt
    · simp
      omega
    · intro e he tick htick
      have hupper :=
        le_of_mem_seekScores hn (by omega : root.hi ≤ tree.duration - 1) e he tick htick
      omega

/-- The exact lookup asks for the ranges of the children. -/
theorem writes_exactFunctions (n : DispatchNode) :
    Writes (s.exactFunctions paths n) (paths.exactScores n) := by
  induction n with
  | leaf frame => exact .nil
  | branch lo hi left right ihl ihr => exact .cons ⟨rfl, rfl⟩ (ihl.append ihr)

/-- The one that seeks asks for where the next child begins. -/
theorem writes_seekFunctions (upper : Nat) (n : DispatchNode) :
    Writes (s.seekFunctions paths upper n) (paths.seekScores upper n) := by
  induction n generalizing upper with
  | leaf frame => exact .nil
  | branch lo hi left right ihl ihr =>
    -- on the left the upper bound is the tick before the right part
    exact .cons ⟨rfl, rfl⟩ ((ihl (right.lo - 1)).append (ihr upper))

/-- A dispatch tree has the numbers of its two lookups. -/
theorem writes_dispatchFunctions (tree : DispatchTree) :
    Writes (s.dispatchFunctions paths tree) (paths.treeScores tree) := by
  unfold dispatchFunctions ClipPaths.treeScores
  cases tree.root with
  | none => exact .cons ⟨rfl, rfl⟩ (.cons ⟨rfl, rfl⟩ .nil)
  | some root =>
    refine ((Writes.append ?_ (writes_exactFunctions root)).append ?_).append
      (writes_seekFunctions (tree.duration - 1) root)
    · exact .cons ⟨rfl, rfl⟩ .nil
    · exact .cons ⟨rfl, rfl⟩ .nil

/-! ### Controls and the rig -/

/-- The controls have the numbers of the clip and of the configuration. -/
theorem writes_controlFunctions (hduration : clip.duration ≤ 2147483647) :
    Writes (s.controlFunctions paths clip) (paths.controlScores s.config clip) := by
  have hlast := @ofNat_lastTick clip.duration (by omega)
  simp [-Int32.toInt_sub, Writes, controlFunctions, ClipPaths.controlScores, scoresOf, playBody,
    applyFirst, suppressed, tweenSetup, seekCurrent, advanceBody, endBody, defaultInterp,
    Command.scores, asScore, hlast]

/-- The functions of the rig that have numbers for scores. -/
def scoreFunctions (s : Stage) (clips : List Clip) : List GeneratedFunction :=
  [(s.function "on_tick", s.onTickBody clips), (s.function "tween_step", s.tweenStepBody),
    (s.function "init_instance", s.initBody clips)]

/-- The number of a loop mode is kept as a score. -/
theorem toInt_score (mode : LoopMode) : mode.score.toInt = asScore mode.number := by
  cases mode <;> rfl

/-- The functions of the rig that set scores. -/
theorem writes_scoreFunctions (clips : List Clip) :
    Writes (s.scoreFunctions clips) (rigScores s.names.namespaceName s.config clips) := by
  refine .cons ⟨rfl, ?_⟩ (.cons ⟨rfl, ?_⟩ (.cons ⟨rfl, ?_⟩ .nil))
  · simp [scoresOf, onTickBody, Command.scores, List.flatMap_map, asScore]
  · simp [scoresOf, tweenStepBody, defaultInterp, Command.scores, asScore]
  · simp [scoresOf, initBody, defaultInterp, Command.scores, List.flatMap_assoc,
      List.map_flatMap, toInt_score]
    simp [asScore]

/-! ### Functions without numbers -/

/-- A clause about tags alone has no numbers. -/
theorem scores_of_isPlain {c : Clause} (h : c.isPlain = true) : c.scores = [] := by
  cases c with
  | score negate holder objective range => cases h
  | _ => rfl

/-- Commands that change looks only have no numbers for scores. -/
theorem scores_of_cosmetic {functions : Std.HashMap FunctionPath (List Command)} {d : Nat}
    {c : Command} (h : World.Cosmetic functions d c) : c.scores = [] := by
  induction h with
  | execute plain cosmetic ih =>
    rw [Command.scores, ih, List.append_nil]
    exact List.flatMap_eq_nil_iff.2 fun c hc => scores_of_isPlain (plain c hc)
  | _ => rfl

/-- The condition of an author adds no numbers. -/
theorem scores_conditioned {clauses : List Clause} {condition : Option String} {run : Command}
    (hplain : ∀ c ∈ clauses, c.isPlain = true) (hrun : run.scores = []) :
    (conditioned clauses condition run).scores = [] := by
  unfold conditioned
  split
  · exact hrun
  · rw [Command.scores, hrun, List.append_nil]
    refine List.flatMap_eq_nil_iff.2 fun c hc => ?_
    rcases List.mem_append.1 hc with hc | hc
    · exact scores_of_isPlain (hplain c hc)
    · obtain ⟨text, -, rfl⟩ := List.mem_map.1 hc
      rfl

/-- Effects set no scores. -/
theorem scores_effects {e : Effect} (he : e ∈ s.effects frame) : e.command.scores = [] := by
  rcases effects_cases he with
    ⟨effect, -, v, -, h⟩ | ⟨effect, -, line, -, h⟩ | ⟨slot, -, pose, effect, -, line, -, h⟩
      <;> rw [h]
  · exact scores_conditioned (List.forall_mem_nil _) rfl
  · exact scores_conditioned (List.forall_mem_nil _) rfl
  · exact scores_conditioned (isPlain_locatorClauses slot pose) rfl

/-- Neither does the call of them. -/
theorem scores_effectCall : ∀ c ∈ (s.effectCall paths frame).1, c.scores = [] := by
  rcases s.effectCall_cases paths frame with ⟨-, h⟩ | ⟨command, heq, h⟩ | h <;> rw [h]
  · exact List.forall_mem_nil _
  · have hcommand : command.scores = [] :=
      scores_effects (e := ⟨command, false⟩) (heq ▸ List.mem_cons_self)
    refine List.forall_mem_singleton.2 ?_
    unfold guardedEffect
    split
    · exact hcommand
    · exact hcommand
  · exact List.forall_mem_singleton.2 rfl

/-- Nor do the functions of the frames. -/
theorem scores_framesFrom {frames : List Frame} {flags : List (Slot × Bool)} :
    ∀ g ∈ s.framesFrom paths flags frames, scoresOf g.2 = [] := by
  intro g hg
  refine scoresOf_eq_nil fun c hc => ?_
  obtain ⟨before, frame, after, -, rfl | hg⟩ := mem_framesFrom_cases hg
  · rcases List.mem_append.1 hc with hc | hc
    · have hlooks : World.Cosmetic {} 0 c := cosmetic_updates hc
      exact scores_of_cosmetic hlooks
    · exact scores_effectCall c hc
  · obtain ⟨e, he, rfl⟩ := mem_effectCall hg hc
    exact scores_effects he

/-- A function that has numbers for scores is one of a tree, one that controls an animation, or one
of three functions of the rig. -/
theorem scores_functions_cases {g : GeneratedFunction} (hg : g ∈ s.functions clips) :
    scoresOf g.2 = [] ∨
      (∃ c ∈ clips, g ∈ s.dispatchFunctions (.ofClip s.names.namespaceName c.clip) c.tree ++
        s.controlFunctions (.ofClip s.names.namespaceName c.clip) c.clip) ∨
      g ∈ s.scoreFunctions (clips.map (·.clip)) := by
  -- along the list of functions: trees, frames, controls, then those of the rig
  rcases List.mem_append.1 hg with hg | hg
  · rcases List.mem_append.1 hg with hg | hg
    · obtain ⟨c, hc, hg⟩ := List.mem_flatMap.1 hg
      rcases List.mem_append.1 hg with hg | hg
      · rcases List.mem_append.1 hg with hg | hg
        · exact .inr (.inl ⟨c, hc, List.mem_append_left _ hg⟩)
        · exact .inl (scores_framesFrom g hg)
      · exact .inr (.inl ⟨c, hc, List.mem_append_right _ hg⟩)
    · simp only [tickFunctions, List.mem_cons, List.not_mem_nil, or_false] at hg
      rcases hg with rfl | rfl | rfl | rfl
      · refine .inl (scoresOf_eq_nil fun c hc => ?_)
        simp only [loadBody, List.mem_append, List.mem_cons, List.mem_flatMap, List.mem_map,
          List.not_mem_nil, or_false] at hc
        rcases hc with ((rfl | ⟨o, -, rfl | rfl⟩) | rfl | rfl) | ⟨clip, -, rfl⟩ <;> rfl
      · exact .inl rfl
      · exact .inr (.inr (.head _))
      · exact .inr (.inr (.tail _ (.head _)))
  · simp only [instanceFunctions, List.mem_append, List.mem_cons, List.not_mem_nil, or_false,
      List.mem_map] at hg
    rcases hg with (rfl | rfl | rfl | rfl | rfl) | ⟨v, -, rfl⟩
    · exact .inl rfl
    · exact .inr (.inr (.tail _ (.tail _ (.head _))))
    · exact .inl rfl
    · refine .inl (scoresOf_eq_nil fun c hc => ?_)
      obtain ⟨clip, -, rfl⟩ := List.mem_map.1 hc
      rfl
    · exact .inl rfl
    · refine .inl (scoresOf_eq_nil fun c hc => ?_)
      have hlooks : World.Cosmetic {} 0 c := cosmetic_variantBody v.1 hc
      exact scores_of_cosmetic hlooks

end Stage

end Marionette
