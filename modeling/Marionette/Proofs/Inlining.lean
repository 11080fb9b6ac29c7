import Marionette.Proofs.Functions.Leaves
import Marionette.Proofs.Functions.PackExists
import Marionette.Proofs.World.Follows

/-!
# Inlining a single effect

What happens at a frame beside the poses is put into a function of its own, except where it is a
single command without a condition: then this command stands in the function of the frame, with the
guard in front of its own clauses.  That makes no difference.

- `Stage.plainCall`, `Stage.plainFrames`: the functions of the frames, where a function of its own
  is always made for what happens beside the poses.
- `Stage.RunsFrames`: functions that contain those of frames and of variants.
- `Stage.runCommand_guardedEffect`: the guard in front of the clauses of a command is a guard in
  front of the whole command.
- `Stage.follows_effectCall`: what happens beside the poses is the same either way.
- `Stage.inlining_of_runsFrames`: so is everything that the function of a frame does, whoever runs
  it.
-/

namespace Marionette

namespace Stage

variable (s : Stage)

/-- What happens beside the poses, always as a function that is called unless the root is tagged to
change poses only. -/
def plainCall (paths : ClipPaths) (frame : Frame) : List Command × List GeneratedFunction :=
  let path := paths.effects frame.tick
  ([.execute [s.unlessSuppressed] (.function path)], [(path, (s.effects frame).map (·.command))])

/-- The functions of frames in order, all with such a function. -/
def plainFrom (paths : ClipPaths) (flags : List (Slot × Bool)) : List Frame → List GeneratedFunction
  | [] => []
  | frame :: rest =>
    let (commands, flags) := s.updates frame flags
    let (call, functions) := s.plainCall paths frame
    functions ++ [(paths.frame frame.tick, commands ++ call)] ++ plainFrom paths flags rest

/-- The functions of all frames of a tree, all with such a function. -/
def plainFrames (paths : ClipPaths) (tree : DispatchTree) : List GeneratedFunction :=
  s.plainFrom paths (s.rig.slots.toList.map fun slot => (slot, false)) tree.frames

/-- The functions of a world contain some functions of frames, and those that show the variants. -/
structure RunsFrames (leaves : List GeneratedFunction)
    (functions : Std.HashMap FunctionPath (List Command)) : Prop where
  leaves : ∀ f ∈ leaves, functions[f.1]? = some f.2
  variants : s.KnowsVariants functions

variable {s} {paths : ClipPaths} {frame : Frame} {tree : DispatchTree}

/-- The function of a frame and its function for what happens beside the poses. -/
theorem mem_plainFrom (s : Stage) (paths : ClipPaths) (frame : Frame) (flags : List (Slot × Bool))
    (before after : List Frame) :
    (paths.frame frame.tick, (s.updates frame (s.flagsAfter flags before)).1 ++
      (s.plainCall paths frame).1) ∈
        s.plainFrom paths flags (before ++ frame :: after) ∧
      (paths.effects frame.tick, (s.effects frame).map (·.command)) ∈
        s.plainFrom paths flags (before ++ frame :: after) := by
  induction before generalizing flags with
  | nil =>
    refine ⟨List.mem_append_left _ (List.mem_append_right _ List.mem_cons_self), ?_⟩
    exact List.mem_append_left _ (List.mem_append_left _ List.mem_cons_self)
  | cons first before ih =>
    obtain ⟨hbody, heffects⟩ := ih (s.updates first flags).2
    exact ⟨List.mem_append_right _ hbody, List.mem_append_right _ heffects⟩

open Run (Follows)
open World (callFunction runClauses runCommand runAll)

variable {F F' : Std.HashMap FunctionPath (List Command)} {executor : Option Nat} {n m : Nat}

/-! ### What happens beside the poses -/

/-- Showing a variant is the same with any number of calls left, as long as they suffice. -/
theorem follows_variantApply (h : s.KnowsVariants F) (h' : s.KnowsVariants F') (hmn : m ≤ n)
    {v : Variant × String} (hv : v ∈ s.rig.variants) :
    Follows F F' Eq (callFunction n (s.variantApply v.2) executor)
      (callFunction m (s.variantApply v.2) executor) := by
  cases m with
  | zero => exact .tooDeep _ _
  | succ m =>
    obtain ⟨n, rfl⟩ : ∃ k, n = k + 1 := ⟨n - 1, by omega⟩
    refine .callLeft (h v hv) (.callRight (h' v hv) ?_)
    refine (Follows.runAll fun c hc => ?_).imp fun _ _ _ => rfl
    exact (Follows.cosmetic (cosmetic_variantBody v.1 hc) executor).imp fun _ _ _ => trivial

theorem follows_conditioned {clauses : List Clause} {condition : Option String} {run : Command}
    {call call' : FunctionPath → Option Nat → Run Outcome}
    (hplain : ∀ c ∈ clauses, c.isPlain = true) (h : ∀ executor,
      Follows F F' Eq (runCommand call run executor) (runCommand call' run executor)) :
    Follows F F' Eq (runCommand call (conditioned clauses condition run) executor)
      (runCommand call' (conditioned clauses condition run) executor) := by
  unfold conditioned
  split
  · exact h executor
  · refine Follows.runClauses (List.forall_mem_append.2 ⟨hplain, fun c hc => ?_⟩) h executor
    obtain ⟨text, -, rfl⟩ := List.mem_map.1 hc
    rfl

/-- A single effect is the same with any number of calls left, as long as they suffice. -/
theorem follows_effects (h : s.KnowsVariants F) (h' : s.KnowsVariants F') (hmn : m ≤ n) {e : Effect}
    (he : e ∈ s.effects frame) :
    Follows F F' Eq (runCommand (callFunction n) e.command executor)
      (runCommand (callFunction m) e.command executor) := by
  rcases effects_cases he with
    ⟨effect, -, v, hv, hcommand⟩ | ⟨effect, -, line, -, hcommand⟩ |
      ⟨slot, -, pose, effect, -, line, -, hcommand⟩ <;> rw [hcommand]
  · exact follows_conditioned (List.forall_mem_nil _) fun _ => follows_variantApply h h' hmn hv
  · exact follows_conditioned (List.forall_mem_nil _) (Follows.cosmetic (.raw _))
  · exact follows_conditioned (isPlain_locatorClauses slot pose) (Follows.cosmetic (.raw _))

/-- The guard in front of the clauses of a command is a guard in front of the whole command. -/
theorem runCommand_guardedEffect (call : FunctionPath → Option Nat → Run Outcome) (c : Command) :
    runCommand call (s.guardedEffect c) executor =
      runClauses (fun executor => runCommand call c executor) [s.unlessSuppressed] executor := by
  cases c <;> rfl

/-- Where there is nothing to do, calling a function that does nothing makes no difference. -/
theorem follows_nothing {path : FunctionPath} (hbody : F'[path]? = some []) :
    Follows F F' (fun _ _ => True) (pure none : Run Outcome)
      (runClauses (callFunction n path) [s.unlessSuppressed] executor) := by
  refine .lookingRight fun w hw => ?_
  dsimp only
  split
  · cases n with
    | zero => exact .tooDeep _ _
    | succ n => exact .callRight hbody (.nothing trivial)
  · exact .nothing trivial

/-- A single command behind the guard does what a function does that consists of it. -/
theorem follows_inlined (h : s.KnowsVariants F) (h' : s.KnowsVariants F') {path : FunctionPath}
    {e : Effect} (he : e ∈ s.effects frame) (hbody : F'[path]? = some [e.command]) :
    Follows F F' (fun _ _ => True)
      (runCommand (callFunction n) (s.guardedEffect e.command) executor)
      (runClauses (callFunction n path) [s.unlessSuppressed] executor) := by
  rw [runCommand_guardedEffect]
  refine .looking fun w hw => .guard _ ?_ trivial
  cases n with
  | zero => exact .tooDeep _ _
  | succ n =>
    refine .callRight hbody ?_
    have hcommand : Follows F F' Eq (runCommand (callFunction (n + 1)) e.command executor)
        (runCommand (callFunction n) e.command executor) := follows_effects h h' (Nat.le_succ n) he
    have hdone := hcommand.bind (f := pure) (g := fun _ => pure ()) (q := fun _ _ => True)
      fun _ _ _ => .nothing trivial
    rwa [bind_pure] at hdone

/-- So does a function for the same commands. -/
theorem follows_outlined (h : s.KnowsVariants F) (h' : s.KnowsVariants F') {path : FunctionPath}
    (hbody : F[path]? = some ((s.effects frame).map (·.command)))
    (hbody' : F'[path]? = some ((s.effects frame).map (·.command))) :
    Follows F F' (fun _ _ => True) (runClauses (callFunction n path) [s.unlessSuppressed] executor)
      (runClauses (callFunction n path) [s.unlessSuppressed] executor) := by
  refine .looking fun w hw => .guard _ ?_ trivial
  cases n with
  | zero => exact .tooDeep _ _
  | succ n =>
    refine .callLeft hbody
      (.callRight hbody' ((Follows.runAll fun c hc => ?_).imp fun _ _ _ => trivial))
    obtain ⟨e, he, rfl⟩ := List.mem_map.1 hc
    exact (follows_effects h h' (Nat.le_refl n) he).imp fun _ _ _ => trivial

/-- What happens beside the poses is the same whether or not a function is made for it. -/
theorem follows_effectCall (h : s.KnowsVariants F) (h' : s.KnowsVariants F')
    (hown : ∀ g ∈ (s.effectCall paths frame).2, F[g.1]? = some g.2)
    (hplain : F'[paths.effects frame.tick]? = some ((s.effects frame).map (·.command))) (n : Nat) :
    Follows F F' (fun _ _ => True)
      (runAll (fun c => runCommand (callFunction n) c executor) (s.effectCall paths frame).1)
      (runAll (fun c => runCommand (callFunction n) c executor) (s.plainCall paths frame).1) := by
  rcases s.effectCall_cases paths frame with ⟨hnone, heq⟩ | ⟨command, hone, heq⟩ | heq <;>
    rw [heq] at hown ⊢
  · rw [hnone] at hplain
    exact (follows_nothing hplain).bind (f := fun _ => pure ()) fun _ _ _ => .nothing trivial
  · rw [hone] at hplain
    have he : ⟨command, false⟩ ∈ s.effects frame := hone ▸ List.mem_cons_self
    exact (follows_inlined h h' he hplain).bind fun _ _ _ => .nothing trivial
  · exact (follows_outlined h h' (hown _ List.mem_cons_self) hplain).bind fun _ _ _ =>
      .nothing trivial

/-! ### Whole frames -/

/-- The function of a frame does the same, however what happens beside its poses is put. -/
theorem follows_frame (h : s.RunsFrames (s.leafFunctions paths tree) F)
    (h' : s.RunsFrames (s.plainFrames paths tree) F') (hframe : frame ∈ tree.frames) :
    Follows F F' (fun _ _ => True) (callFunction n (paths.frame frame.tick) executor)
      (callFunction n (paths.frame frame.tick) executor) := by
  obtain ⟨before, after, hframes⟩ := List.append_of_mem hframe
  have hleaves := h.leaves
  have hleaves' := h'.leaves
  unfold leafFunctions at hleaves
  unfold plainFrames at hleaves'
  rw [hframes] at hleaves hleaves'
  obtain ⟨hbody, hown⟩ :=
    s.mem_framesFrom paths frame (s.rig.slots.toList.map fun slot => (slot, false))
    before after
  obtain ⟨hbody', heffects⟩ := s.mem_plainFrom paths frame
    (s.rig.slots.toList.map fun slot => (slot, false)) before after
  cases n with
  | zero => exact .tooDeep _ _
  | succ n =>
    refine .callLeft (hleaves _ hbody) (.callRight (hleaves' _ hbody') ?_)
    refine Follows.runAll_append (fun c hc => ?_) (follows_effectCall h.variants h'.variants
      (fun g hg => hleaves g (hown g hg)) (hleaves' _ heffects) n)
    exact (Follows.cosmetic (cosmetic_updates hc) executor).imp fun _ _ _ => trivial

/-- Running the function of a frame, as whichever entity, leaves the same world where a single
effect is put in place and where it always gets a function of its own, but for the functions of the
two worlds: the same entities, the same scores and the same recorded commands in the same order.
This is so as long as the further call does not go too deep. -/
theorem inlining_of_runsFrames {w : World} (hframe : frame ∈ tree.frames)
    (h : s.RunsFrames (s.leafFunctions paths tree) w.functions)
    (h' : s.RunsFrames (s.plainFrames paths tree) F')
    (hdeep : ¬Run.IsTooDeep
      (Run.on (World.run (paths.frame frame.tick) executor) (w.withFunctions F'))) :
    ∃ w', Run.on (World.run (paths.frame frame.tick) executor) w = (.ok (), w') ∧
      Run.on (World.run (paths.frame frame.tick) executor) (w.withFunctions F') =
        (.ok (), w'.withFunctions F') := by
  have hrun : Follows w.functions F' (fun _ _ => True) (World.run (paths.frame frame.tick) executor)
      (World.run (paths.frame frame.tick) executor) :=
    .looking fun _ _ => (follows_frame h h' hframe).bind (g := fun _ => pure ()) fun _ _ _ =>
      .nothing trivial
  obtain ⟨⟨⟩, ⟨⟩, w', -, -, hgenerated, hplain⟩ := (hrun w rfl).resolve_left hdeep
  exact ⟨w', hgenerated, hplain⟩

/-- A frame with a single command of the root, which stands in the function of the frame. -/
theorem inlining_of_greeting :
    ∃ (paths : ClipPaths) (tree : DispatchTree) (w : World)
      (functions : Std.HashMap FunctionPath (List Command)) (w' : World),
      nodeless.leafFunctions paths tree =
        [(paths.frame 0, [.execute [nodeless.unlessSuppressed] (rawLine "say hi")])] ∧
      Run.on (World.run (paths.frame 0) (some 0)) w = (.ok (), w') ∧
      Run.on (World.run (paths.frame 0) (some 0)) (w.withFunctions functions) =
        (.ok (), w'.withFunctions functions) := by
  let frame : Frame := { tick := 0, commands := some { commands := ["say hi"] } }
  let tree : DispatchTree := ⟨some (.leaf frame), 1⟩
  let paths : ClipPaths := ⟨⟨"rig", "animations/greet"⟩⟩
  -- the frame with its line inlined, and the frame that calls a function for it
  have hleaves : nodeless.leafFunctions paths tree =
      [(paths.frame 0, [.execute [nodeless.unlessSuppressed] (rawLine "say hi")])] := rfl
  have hplain : nodeless.plainFrames paths tree =
      [(paths.effects 0, [rawLine "say hi"]),
        (paths.frame 0, [.execute [nodeless.unlessSuppressed] (.function (paths.effects 0))])] :=
          rfl
  let w : World := {
    functions := .ofList (nodeless.leafFunctions paths tree)
    tickFunctions := []
    loadFunctions := []
    entities := #[{ id := 0, entityType := "minecraft:item_display" }] }
  let functions : Std.HashMap FunctionPath (List Command) :=
    .ofList (nodeless.plainFrames paths tree)
  have hruns : nodeless.RunsFrames (nodeless.leafFunctions paths tree) w.functions := by
    refine ⟨fun f hf => Std.HashMap.getElem?_ofList_of_mem (k := f.1) (by simp) ?_ hf,
      fun v hv => nomatch hv⟩
    rw [hleaves]
    exact List.pairwise_singleton _ _
  have hruns' : nodeless.RunsFrames (nodeless.plainFrames paths tree) functions := by
    refine ⟨fun f hf => Std.HashMap.getElem?_ofList_of_mem (k := f.1) (by simp) ?_ hf,
      fun v hv => nomatch hv⟩
    rw [hplain]
    decide
  have hcosmetic : World.Cosmetic functions 2 (.function (paths.frame 0)) := by
    rw [hplain] at hruns'
    refine .function (hruns'.leaves _ (.tail _ (.head _))) (List.forall_mem_singleton.2 ?_)
    refine .execute (List.forall_mem_singleton.2 rfl) (.function (hruns'.leaves _ (.head _)) ?_)
    exact List.forall_mem_singleton.2 (.raw _)
  -- the plain frame runs to its end, so that it does not go too deep
  have hdoes : World.Does 2 (.function (paths.frame 0)) (some 0) (w.withFunctions functions)
      (w.withFunctions functions).OnlyLooks := hcosmetic.does rfl
  obtain ⟨-, w'', hrun, -⟩ := World.Leads.run_on hdoes (show 2 ≤ defaultMaxDepth by decide)
  have hframe : frame ∈ tree.frames := List.mem_singleton_self _
  have hdeep : ¬Run.IsTooDeep
      (Run.on (World.run (paths.frame frame.tick) (some 0)) (w.withFunctions functions)) := by
    rintro ⟨path, limit, hdeep⟩
    cases (congrArg Prod.fst hrun).symm.trans hdeep
  obtain ⟨w', hown, hother⟩ := inlining_of_runsFrames hframe hruns hruns' hdeep
  exact ⟨paths, tree, w, functions, w', hleaves, hown, hother⟩

end Stage

end Marionette
