import Marionette.Proofs.Instance.Summon
import Marionette.Proofs.World.Sure

/-!
# Generated functions cannot fail

Every function that a generated function calls is generated too, every objective that it asks for is
created at the start, and the calls go only so deep as the dispatch trees of the animations are
high.

- `Stage.Declares`: the objectives that the start of a rig creates.
- `Stage.Hosts.Sure`: what a command of the rig needs is there, a number of calls deep.
- `Hosts.sure_dispatchFunctions`, `Hosts.sure_leafFunctions`, `Hosts.sure_controlFunctions`,
  `Hosts.sure_tickFunctions`, `Hosts.sure_instanceFunctions`: the functions of each kind are sure.
- `Hosts.sure_functions`: all functions of a rig are.
-/

namespace Marionette

namespace World

/-- Commands that change looks only cannot fail. -/
theorem Cosmetic.sure {functions : Std.HashMap FunctionPath (List Command)}
    {declared : String → Prop} {d : Nat} {c : Command} (h : Cosmetic functions d c) :
    Sure functions declared d c := by
  induction h with
  | dataMerge | teleport | raw | comment => exact .simple rfl fun o ho => (nomatch ho)
  | execute plain _ ih =>
    refine .execute (fun c hc o ho => ?_) ih
    have hplain := plain c hc
    cases c with
    | score | storeResultEntity | storeResultScore => cases hplain
    | _ => cases ho
  | function known _ ih => exact .function known ih

end World

namespace Stage

variable {s : Stage} {clips : List CompiledClip} {c : CompiledClip} {w : World} {d : Nat}
  {paths : ClipPaths}

/-- The start of the rig creates the objective. -/
def Declares (s : Stage) (clips : List CompiledClip) (objective : String) : Prop :=
  ∃ k : ScoreKey, k.IsAmong clips ∧ objective = s.names.score k

namespace Hosts

/-- What a command of the rig needs is there, and its calls go at most `d` levels down. -/
abbrev Sure (_ : s.Hosts clips w) (d : Nat) (c : Command) : Prop :=
  World.Sure w.functions (s.Declares clips) d c

variable (h : s.Hosts clips w)

/-! ### Single commands -/

/-- Every one of the commands is sure. -/
def SureBody (h : s.Hosts clips w) (d : Nat) (cs : List Command) : Prop :=
  ∀ c ∈ cs, h.Sure d c

namespace SureBody

variable {h}

theorem nil : h.SureBody d [] :=
  fun _ hc => nomatch hc

theorem cons {c : Command} {cs : List Command} (hc : h.Sure d c) (hcs : h.SureBody d cs) :
    h.SureBody d (c :: cs) :=
  List.forall_mem_cons.2 ⟨hc, hcs⟩

theorem append {as bs : List Command} (ha : h.SureBody d as) (hb : h.SureBody d bs) :
    h.SureBody d (as ++ bs) :=
  List.forall_mem_append.2 ⟨ha, hb⟩

theorem single {c : Command} (hc : h.Sure d c) : h.SureBody d [c] :=
  .cons hc .nil

end SureBody

/-- A call is sure if what it calls is there and sure. -/
theorem sure_call {fs : List GeneratedFunction} (hi : w.Installs fs) {path : FunctionPath}
    {body : List Command} (hg : (path, body) ∈ fs) (hbody : h.SureBody d body) :
    h.Sure (d + 1) (.function path) :=
  .function (hi _ hg) hbody

/-- Commands that ask for no objective. -/
theorem sure_silent {c : Command} (hc : c.isSimple = true) (ho : c.objectives = []) :
    h.Sure d c := by
  refine .simple hc fun o hmem => ?_
  rw [ho] at hmem
  cases hmem

/-- The scores of a rig belong to it. -/
theorem declares {k : ScoreKey} (hk : k.IsAmong clips) : s.Declares clips (s.names.score k) :=
  ⟨k, hk, rfl⟩

/-- Setting a score asks for its objective. -/
theorem sure_setOwn {k : ScoreKey} (hk : k.IsAmong clips) (value : Int32) :
    h.Sure d (setOwn (s.names.score k) value) := by
  refine .simple rfl fun o ho => ?_
  rw [List.mem_singleton.1 ho]
  exact declares hk

/-- Copying asks for both. -/
theorem sure_copyOwn {k t : ScoreKey} (hk : k.IsAmong clips) (ht : t.IsAmong clips) :
    h.Sure d (copyOwn (s.names.score k) (s.names.score t)) := by
  refine .simple rfl fun o ho => ?_
  rcases List.mem_cons.1 ho with rfl | ho
  · exact declares hk
  · rw [List.mem_singleton.1 ho]
    exact declares ht

/-- A command behind clauses of which each asks for nothing, or for a score of the rig. -/
theorem sure_execute {clauses : List Clause} {run : Command}
    (hclauses : ∀ c ∈ clauses, c.objectives = [] ∨
      ∃ k : ScoreKey, k.IsAmong clips ∧ c.objectives = [s.names.score k])
    (hrun : h.Sure d run) : h.Sure d (.execute clauses run) := by
  refine .execute (fun c hc o ho => ?_) hrun
  rcases hclauses c hc with hnone | ⟨k, hk, hone⟩
  · rw [hnone] at ho
    cases ho
  · rw [hone, List.mem_singleton] at ho
    exact ⟨k, hk, ho⟩

/-- A command behind a question about an own score. -/
theorem sure_ifOwn {k : ScoreKey} (hk : k.IsAmong clips) {range : ScoreRange} {run : Command}
    (hrun : h.Sure d run) : h.Sure d (.execute [ifOwn (s.names.score k) range] run) := by
  refine h.sure_execute (fun c hc => .inr ⟨k, hk, ?_⟩) hrun
  rw [List.mem_singleton.1 hc]
  rfl

/-- A command behind a question about the frame score. -/
theorem sure_guardedCall {lo hi : Nat} {path : FunctionPath} (hcall : h.Sure d (.function path)) :
    h.Sure d (s.guardedCall lo hi path) :=
  h.sure_ifOwn (k := .frame) trivial hcall

/-- A command behind a question about the own tags. -/
theorem sure_ifTagged {tag : String} {run : Command} (hrun : h.Sure d run) :
    h.Sure d (.execute [.ifEntity (Selector.this.tagged tag)] run) := by
  refine h.sure_execute (fun c hc => .inl ?_) hrun
  rw [List.mem_singleton.1 hc]
  rfl

/-- Taking the interpolation duration over to the entities of the nodes. -/
theorem sure_sync : h.Sure 1 s.sync := by
  have hinterp : s.Declares clips s.names.interp := ⟨.interp, trivial, rfl⟩
  refine h.sure_call h.installs_instance
    (.tail _ <| .tail _ <| .tail _ <| .tail _ <| .head _) (.cons ?_ (.single ?_))
  · refine .simple rfl fun o ho => ?_
    rcases List.mem_cons.1 ho with rfl | ho
    · exact hinterp
    · exact List.mem_singleton.1 ho ▸ hinterp
  · refine h.sure_execute (fun c hc => .inl ?_) (.simple rfl fun o ho => ?_)
    · rcases List.mem_cons.1 hc with rfl | hc
      · rfl
      · rw [List.mem_singleton.1 hc]
        rfl
    · exact List.mem_singleton.1 ho ▸ hinterp

/-- Every one of the functions can be called. -/
def SureAll (h : s.Hosts clips w) (d : Nat) (fs : List GeneratedFunction) : Prop :=
  ∀ g ∈ fs, h.Sure d (.function g.1)

variable {h} in
/-- Functions side by side. -/
theorem SureAll.append {fs gs : List GeneratedFunction} (hf : h.SureAll d fs)
    (hg : h.SureAll d gs) :
    h.SureAll d (fs ++ gs) := by
  intro g hmem
  rcases List.mem_append.1 hmem with hmem | hmem
  · exact hf g hmem
  · exact hg g hmem

variable {h} in
/-- A deeper limit does no harm. -/
theorem SureAll.deeper {e : Nat} {fs : List GeneratedFunction} (hf : h.SureAll d fs) (hde : d ≤ e) :
    h.SureAll e fs := fun g hg => World.Sure.deeper (hf g hg) hde

/-! ### Dispatch trees and frames -/

/-- A branch calls what is below it. -/
theorem sure_branch {path : FunctionPath} {first second : Command}
    {lefts rights : List GeneratedFunction} {left right : Nat}
    (hi : w.Installs ((path, [first, second]) :: (lefts ++ rights)))
    (hfirst : h.Sure (d + left) first) (hsecond : h.Sure (d + right) second)
    (hlefts : h.SureAll (d + left) lefts) (hrights : h.SureAll (d + right) rights) :
    h.SureAll (d + (1 + max left right)) ((path, [first, second]) :: (lefts ++ rights)) := by
  intro g hg
  rcases List.mem_cons.1 hg with rfl | hg
  · rw [show d + (1 + max left right) = d + max left right + 1 by omega]
    exact h.sure_call hi List.mem_cons_self (.cons (World.Sure.deeper hfirst (by omega))
      (.single (World.Sure.deeper hsecond (by omega))))
  · rcases List.mem_append.1 hg with hg | hg
    · exact World.Sure.deeper (hlefts g hg) (by omega)
    · exact World.Sure.deeper (hrights g hg) (by omega)

/-- A node of the exact tree and all branches below it, where the frames are sure. -/
theorem sure_exact {n : DispatchNode} (hi : w.Installs (s.exactFunctions paths n))
    (hframes : ∀ frame ∈ n.frames, h.Sure d (.function (paths.frame frame.tick))) :
    h.Sure (d + n.depth) (s.exactCall paths n) ∧
      h.SureAll (d + n.depth) (s.exactFunctions paths n) := by
  induction n with
  | leaf frame =>
    refine ⟨h.sure_guardedCall ?_, fun g hg => nomatch hg⟩
    exact World.Sure.deeper (hframes frame (List.mem_singleton_self _)) (Nat.le_add_right d _)
  | branch lo hi' left right ihl ihr =>
    obtain ⟨hleft, hlefts⟩ := ihl
      (fun f hf => hi f (List.mem_cons_of_mem _ (List.mem_append_left _ hf)))
      fun frame hf => hframes frame (List.mem_append_left _ hf)
    obtain ⟨hright, hrights⟩ := ihr
      (fun f hf => hi f (List.mem_cons_of_mem _ (List.mem_append_right _ hf)))
      fun frame hf => hframes frame (List.mem_append_right _ hf)
    have hall := h.sure_branch hi hleft hright hlefts hrights
    exact ⟨h.sure_guardedCall (hall _ List.mem_cons_self), hall⟩

/-- The same for the seeking tree. -/
theorem sure_seek {n : DispatchNode} {upper : Nat}
    (hi : w.Installs (s.seekFunctions paths upper n))
    (hframes : ∀ frame ∈ n.frames, h.Sure d (.function (paths.frame frame.tick))) :
    h.Sure (d + n.depth) (.function (seekTarget paths n)) ∧
      h.SureAll (d + n.depth) (s.seekFunctions paths upper n) := by
  induction n generalizing upper with
  | leaf frame =>
    refine ⟨?_, fun g hg => nomatch hg⟩
    exact World.Sure.deeper (hframes frame (List.mem_singleton_self _)) (Nat.le_add_right d _)
  | branch lo hi' left right ihl ihr =>
    obtain ⟨hleft, hlefts⟩ := ihl
      (fun f hf => hi f (List.mem_cons_of_mem _ (List.mem_append_left _ hf)))
      fun frame hf => hframes frame (List.mem_append_left _ hf)
    obtain ⟨hright, hrights⟩ := ihr
      (fun f hf => hi f (List.mem_cons_of_mem _ (List.mem_append_right _ hf)))
      fun frame hf => hframes frame (List.mem_append_right _ hf)
    have hall := h.sure_branch hi (h.sure_guardedCall hleft) (h.sure_guardedCall hright) hlefts
      hrights
    exact ⟨hall _ List.mem_cons_self, hall⟩

/-- Both trees of an animation, with their entry points. -/
theorem sure_dispatchFunctions {tree : DispatchTree}
    (hi : w.Installs (s.dispatchFunctions paths tree))
    (hframes : ∀ frame ∈ tree.frames, h.Sure d (.function (paths.frame frame.tick))) :
    h.SureAll (d + tree.depth + 1) (s.dispatchFunctions paths tree) ∧
      h.Sure (d + tree.depth + 1) (.function paths.dispatch) ∧
      h.Sure (d + tree.depth + 1) (.function paths.seek) := by
  unfold dispatchFunctions at hi ⊢
  cases hroot : tree.root with
  | none =>
    rw [hroot] at hi
    dsimp only at hi ⊢
    -- without frames both entry points do nothing
    have hcomment : h.SureBody (d + tree.depth) [.comment "no frames"] :=
      .single (h.sure_silent rfl rfl)
    have hdispatch := h.sure_call hi List.mem_cons_self hcomment
    have hseek := h.sure_call hi (List.mem_cons_of_mem _ List.mem_cons_self) hcomment
    refine ⟨fun g hg => ?_, hdispatch, hseek⟩
    rcases List.mem_cons.1 hg with rfl | hg
    · exact hdispatch
    · rw [List.mem_singleton.1 hg]
      exact hseek
  | some n =>
    rw [hroot] at hi
    dsimp only at hi ⊢
    -- else they call the root of their tree
    have hdepth : tree.depth = n.depth := by simp [DispatchTree.depth, hroot]
    have hframes : ∀ frame ∈ n.frames, h.Sure d (.function (paths.frame frame.tick)) := by
      intro frame hf
      refine hframes frame ?_
      simpa [DispatchTree.frames, hroot] using hf
    obtain ⟨hexact, hexactAll⟩ := h.sure_exact hi.left.left.right hframes
    obtain ⟨hseek, hseekAll⟩ := h.sure_seek hi.right hframes
    rw [hdepth]
    have hdispatch : h.Sure (d + n.depth + 1) (.function paths.dispatch) :=
      h.sure_call hi.left.left.left (List.mem_singleton_self _) (.single hexact)
    have hseek : h.Sure (d + n.depth + 1) (.function paths.seek) :=
      h.sure_call hi.left.right (List.mem_singleton_self _) (.single (h.sure_guardedCall hseek))
    refine ⟨?_, hdispatch, hseek⟩
    refine (((SureAll.append ?_ ?_).append ?_).append ?_)
    · intro g hg
      rw [List.mem_singleton.1 hg]
      exact hdispatch
    · exact hexactAll.deeper (Nat.le_succ _)
    · intro g hg
      rw [List.mem_singleton.1 hg]
      exact hseek
    · exact hseekAll.deeper (Nat.le_succ _)

/-- The frames of an animation, and what happens beside their poses. -/
theorem sure_leafFunctions (hc : c ∈ clips) :
    let paths := ClipPaths.ofClip s.names.namespaceName c.clip
    (∀ frame ∈ c.tree.frames, h.Sure 3 (.function (paths.frame frame.tick))) ∧
      h.SureAll 3 (s.leafFunctions paths c.tree) := by
  intro paths
  have hframes : ∀ frame ∈ c.tree.frames, h.Sure 3 (.function (paths.frame frame.tick)) :=
    fun frame hframe => World.Cosmetic.sure (h.cosmetic_frame hc hframe)
  have hi : w.Installs (s.leafFunctions paths c.tree) := (h.installs_clip hc).left.right
  refine ⟨hframes, fun g hg => ?_⟩
  obtain ⟨before, frame, after, hall, rfl | heffects⟩ := mem_framesFrom_cases hg
  · exact hframes frame (hall ▸ List.mem_append_right _ List.mem_cons_self)
  · refine .function (hi g hg) fun command hcommand => ?_
    obtain ⟨e, he, rfl⟩ := mem_effectCall heffects hcommand
    exact World.Cosmetic.sure (World.Cosmetic.deeper (cosmetic_effects (d := 0) h.knowsVariants he)
      (Nat.le_succ _))

/-! ### Controls -/

section Controls

variable {h} {animation : String}

/-- Giving and taking the tag around commands. -/
theorem SureBody.suppressed {cs : List Command} (hcs : h.SureBody d cs) :
    h.SureBody d (s.suppressed cs) :=
  .append (.append (.single (h.sure_silent rfl rfl)) hcs) (.single (h.sure_silent rfl rfl))

/-- Applying the first frame calls the exact tree. -/
theorem sureBody_applyFirst (hdispatch : h.Sure d (.function paths.dispatch)) :
    h.SureBody d (s.applyFirst paths) :=
  .cons (h.sure_setOwn (k := .frame) trivial 0) (.single hdispatch)

/-- Seeking the frame of the current time calls the other one. -/
theorem sureBody_seekCurrent (ha : ScoreKey.IsAmong clips (.localTime animation))
    (hseek : h.Sure d (.function paths.seek)) :
    h.SureBody d (s.seekCurrent paths (s.names.localTime animation)) :=
  .cons (h.sure_copyOwn (k := .frame) (t := .localTime animation) trivial ha) (.single hseek)

/-- Setting up a tween. -/
theorem sureBody_tweenSetup (hd : 1 ≤ d) : h.SureBody d s.tweenSetup :=
  .cons (h.sure_setOwn (k := .tween) trivial _) <|
    .cons (h.sure_ifOwn (k := .tweenRequest) trivial
      (h.sure_copyOwn (k := .tween) (t := .tweenRequest) trivial trivial)) <|
    .cons (h.sure_silent rfl rfl) <|
    .cons (h.sure_copyOwn (k := .interp) (t := .tween) trivial trivial) <|
    .single (World.Sure.deeper h.sure_sync hd)

variable (h)

/-- The controls of an animation: most of them call the dispatch trees, the end of a pass calls some
of these, and a tick goes through `advance` to the end of a pass. -/
theorem sure_controlFunctions (hc : c ∈ clips) (hd : 1 ≤ d)
    (hdispatch : h.Sure d (.function (ClipPaths.ofClip s.names.namespaceName c.clip).dispatch))
    (hseek : h.Sure d (.function (ClipPaths.ofClip s.names.namespaceName c.clip).seek)) :
    h.SureAll (d + 4)
      (s.controlFunctions (ClipPaths.ofClip s.names.namespaceName c.clip) c.clip) := by
  intro g hg
  have hi := (h.installs_clip hc).right
  have hkey : ScoreKey.IsAmong clips (.localTime c.clip.storageName) := ⟨c, hc, rfl⟩
  have hmode : ScoreKey.IsAmong clips (.loopMode c.clip.storageName) := ⟨c, hc, rfl⟩
  -- what the bodies are put together from
  have htime : ∀ {d} v, h.Sure d (setOwn (s.names.localTime c.clip.storageName) v) := fun v =>
    h.sure_setOwn (k := .localTime _) hkey v
  have htween : h.Sure d (setOwn s.names.tween 0) := h.sure_setOwn (k := .tween) trivial 0
  have hinterp : ∀ v, h.Sure d (setOwn s.names.interp v) := h.sure_setOwn (k := .interp) trivial
  have htag : ∀ {d} tag, h.Sure d (.tagAdd .this tag) := fun _ => h.sure_silent rfl rfl
  have huntag : ∀ {d} tag, h.Sure d (.tagRemove .this tag) := fun _ => h.sure_silent rfl rfl
  have hsync : h.Sure d s.sync := World.Sure.deeper h.sure_sync hd
  have hfirst : h.SureBody d (s.applyFirst _) := sureBody_applyFirst hdispatch
  have hcurrent : h.SureBody d (s.seekCurrent _ _) := sureBody_seekCurrent hkey hseek
  have hsetup : h.SureBody d s.tweenSetup := sureBody_tweenSetup hd
  -- controls that no others call, and then those that the tick goes through
  have hpause : h.Sure 1 (.function ((ClipPaths.ofClip s.names.namespaceName c.clip).control
      "pause")) :=
    h.sure_call hi (.tail _ <| .tail _ <| .head _) (.single (huntag _))
  have hstop : h.Sure (d + 1) (.function ((ClipPaths.ofClip s.names.namespaceName c.clip).control
      "stop")) :=
    h.sure_call hi (.tail _ <| .tail _ <| .tail _ <| .head _)
      (.append (.append (.cons (htime 0) (.single htween)) hfirst.suppressed) (.single (huntag _)))
  have hend : h.Sure (d + 2) (.function ((ClipPaths.ofClip s.names.namespaceName c.clip).control
      "end")) := by
    refine h.sure_call hi (.tail _ <| .tail _ <| .tail _ <| .tail _ <| .tail _ <| .tail _ <|
      .tail _ <| .tail _ <| .head _) ?_
    have hboth : ∀ {range} {run : Command}, h.Sure (d + 1) run →
        h.Sure (d + 1) (.execute [ifOwn (s.names.loopMode c.clip.storageName) (.exact 0),
          ifOwn (s.names.localTime c.clip.storageName) range] run) := by
      intro range run hrun
      refine h.sure_execute (fun c hc => .inr ?_) hrun
      rcases List.mem_cons.1 hc with rfl | hc
      · exact ⟨_, hmode, rfl⟩
      · rw [List.mem_singleton.1 hc]
        exact ⟨_, hkey, rfl⟩
    have hone : ∀ {range} {run : Command}, h.Sure (d + 1) run →
        h.Sure (d + 1) (.execute [ifOwn (s.names.loopMode c.clip.storageName) range] run) :=
      fun hrun => h.sure_ifOwn hmode hrun
    exact .cons (hboth (htime 0)) <| .cons (hboth (World.Sure.deeper hsync (Nat.le_succ d))) <|
      .cons (hone hstop) <| .cons (hone (htime _)) <|
      .single (hone (World.Sure.deeper hpause (by omega)))
  have hadvance : h.Sure (d + 3) (.function ((ClipPaths.ofClip s.names.namespaceName
      c.clip).control "advance")) := by
    refine h.sure_call hi (.tail _ <| .tail _ <| .tail _ <| .tail _ <| .tail _ <| .tail _ <|
      .tail _ <| .head _) ?_
    have hadd : h.Sure (d + 2) (.scoreAdd .this (s.names.localTime c.clip.storageName) 1) :=
      .simple rfl fun o ho => ⟨_, hkey, List.mem_singleton.1 ho⟩
    exact .cons hadd <| .cons (h.sure_ifOwn hkey hend) <|
      .cons (h.sure_ifTagged (h.sure_copyOwn (k := .frame) (t := .localTime _) trivial hkey)) <|
      .single (h.sure_ifTagged (World.Sure.deeper hdispatch (by omega)))
  have hall : ∀ {e}, e ≤ d + 4 → h.Sure e (.function g.1) → h.Sure (d + 4) (.function g.1) :=
    fun hle hsure => World.Sure.deeper hsure hle
  have hmem := hg
  simp only [controlFunctions, List.mem_cons, List.not_mem_nil, or_false] at hg
  rcases hg with rfl | rfl | rfl | rfl | rfl | rfl | rfl | rfl | rfl | rfl | rfl
  · -- play
    refine hall (by omega) (h.sure_call (d := d) hi hmem (.append (.append ?_ hfirst) ?_))
    · exact .cons (htime 0) <| .cons htween <| .cons (hinterp 0) <| .single hsync
    · exact .cons (hinterp _) <| .cons hsync <| .single (htag _)
  · -- resume
    refine hall (by omega) (h.sure_call (d := d) hi hmem ?_)
    exact .cons (htag _) <| .cons (hinterp _) <| .single hsync
  · exact hall (by omega) hpause
  · exact hall (by omega) hstop
  · -- a tween from the start
    refine hall (by omega) (h.sure_call (d := d) hi hmem ?_)
    exact .append (.append (.append (.single (htime 0)) hsetup) hfirst.suppressed)
      (.single (htag _))
  · -- a tween to the local time
    refine hall (by omega) (h.sure_call (d := d) hi hmem ?_)
    exact .append (.append hsetup hcurrent.suppressed) (.single (htag _))
  · -- tick
    refine h.sure_call hi hmem (.single (h.sure_execute (fun c hc => .inr ?_) hadvance))
    rw [List.mem_singleton.1 hc]
    exact ⟨.tween, trivial, rfl⟩
  · exact hall (by omega) hadvance
  · exact hall (by omega) hend
  · -- the frame of the local time
    refine hall (by omega) (h.sure_call (d := d) hi hmem ?_)
    exact .cons (h.sure_copyOwn (k := .frame) (t := .localTime _) trivial hkey)
      (.single hdispatch)
  · exact hall (by omega) (h.sure_call (d := d) hi hmem hcurrent.suppressed)

end Controls

/-- All functions of an animation of which the tree has at most 32 levels. -/
theorem sure_clipFunctions (hc : c ∈ clips) (hdepth : c.tree.depth ≤ 32) :
    h.SureAll 40 (s.clipFunctions c.clip c.tree) := by
  obtain ⟨hframes, hleaves⟩ := h.sure_leafFunctions hc
  obtain ⟨htrees, hdispatch, hseek⟩ :=
    h.sure_dispatchFunctions (h.installs_clip hc).left.left hframes
  have hdeep : 3 + c.tree.depth + 1 ≤ 36 := by omega
  have hcontrols := h.sure_controlFunctions hc (by decide) (World.Sure.deeper hdispatch hdeep)
    (World.Sure.deeper hseek hdeep)
  exact ((htrees.deeper (by omega)).append (hleaves.deeper (by decide))).append hcontrols

/-! ### Functions of the whole rig -/

/-- Objectives and the tick, where the ticks of the animations are sure. -/
theorem sure_tickFunctions (hd : 1 ≤ d)
    (hticks : ∀ c ∈ clips, h.Sure d
      (.function ((ClipPaths.ofClip s.names.namespaceName c.clip).control "tick"))) :
    h.SureAll (d + 3) (s.tickFunctions (clips.map (·.clip))) := by
  have hi := h.installs_ticks
  -- each of the four functions by itself, with the calls that it makes
  have hload : h.Sure 1 (.function (s.function "load")) := by
    refine h.sure_call hi (.head _) fun c hc => ?_
    rcases loadBody_declares hc with ⟨name, rfl⟩ | ⟨text, rfl⟩
    · exact h.sure_silent rfl rfl
    · exact h.sure_silent rfl rfl
  have htween : h.Sure 2 (.function (s.function "tween_step")) := by
    refine h.sure_call hi (.tail _ <| .tail _ <| .tail _ <| .head _) ?_
    have hremove : h.Sure 1 (.scoreRemove .this s.names.tween 1) :=
      .simple rfl fun o ho => ⟨.tween, trivial, List.mem_singleton.1 ho⟩
    exact .cons hremove <| .cons (h.sure_copyOwn (k := .interp) (t := .tween) trivial trivial) <|
      .cons (h.sure_ifOwn (k := .tween) trivial (h.sure_setOwn (k := .interp) trivial _)) <|
      .single h.sure_sync
  have honTick : h.Sure (d + 2) (.function (s.function "on_tick")) := by
    refine h.sure_call (d := d + 1) hi (.tail _ <| .tail _ <| .head _) (.append (.append ?_ ?_) ?_)
    · exact .single (.simple rfl fun o ho => ⟨.lifetime, trivial, List.mem_singleton.1 ho⟩)
    · intro command hcommand
      obtain ⟨clip, hclip, rfl⟩ := List.mem_map.1 hcommand
      obtain ⟨c, hc, rfl⟩ := List.mem_map.1 hclip
      exact h.sure_ifTagged (World.Sure.deeper (hticks c hc) (Nat.le_succ d))
    · exact .single (h.sure_ifOwn (k := .tween) trivial (World.Sure.deeper htween (by omega)))
  intro g hg
  have hmem := hg
  simp only [tickFunctions, List.mem_cons, List.not_mem_nil, or_false] at hg
  rcases hg with rfl | rfl | rfl | rfl
  · exact World.Sure.deeper hload (by omega)
  · refine h.sure_call hi hmem (.single (h.sure_execute (fun c hc => .inl ?_) honTick))
    rw [List.mem_singleton.1 hc]
    rfl
  · exact World.Sure.deeper honTick (by omega)
  · exact World.Sure.deeper htween (by omega)

/-- Summoning, removing, interpolation and variants. -/
theorem sure_instanceFunctions : h.SureAll 2 (s.instanceFunctions (clips.map (·.clip))) := by
  have hi := h.installs_instance
  have hinit : h.Sure 1 (.function (s.function "init_instance")) := by
    refine h.sure_call hi (.tail _ <| .head _) (.append (.append ?_ ?_) ?_)
    · exact .cons (h.sure_setOwn (k := .lifetime) trivial _) <|
        .cons (h.sure_setOwn (k := .frame) trivial _) <|
        .cons (h.sure_setOwn (k := .tween) trivial _) <|
        .single (h.sure_setOwn (k := .interp) trivial _)
    · intro command hcommand
      obtain ⟨clip, hclip, hcommand⟩ := List.mem_flatMap.1 hcommand
      obtain ⟨c, hc, rfl⟩ := List.mem_map.1 hclip
      rcases List.mem_cons.1 hcommand with rfl | hcommand
      · exact h.sure_setOwn (k := .localTime _) ⟨c, hc, rfl⟩ _
      · rw [List.mem_singleton.1 hcommand]
        exact h.sure_setOwn (k := .loopMode _) ⟨c, hc, rfl⟩ _
    · exact .single (h.sure_silent rfl rfl)
  intro g hg
  have hmem := hg
  simp only [instanceFunctions, List.mem_append, List.mem_cons, List.not_mem_nil, or_false,
    List.mem_map] at hg
  rcases hg with (rfl | rfl | rfl | rfl | rfl) | ⟨v, hv, rfl⟩
  · -- the new root gets its scores
    refine h.sure_call hi hmem (.cons (h.sure_silent rfl rfl) (.single ?_))
    refine h.sure_execute (fun c hc => .inl ?_) hinit
    rw [List.mem_singleton.1 hc]
    rfl
  · exact World.Sure.deeper hinit (by decide)
  · refine h.sure_call hi hmem (.cons ?_ (.single (h.sure_silent rfl rfl)))
    refine h.sure_execute (fun c hc => .inl ?_) (h.sure_silent rfl rfl)
    rw [List.mem_singleton.1 hc]
    rfl
  · refine h.sure_call (d := 1) hi hmem fun command hcommand => ?_
    obtain ⟨clip, -, rfl⟩ := List.mem_map.1 hcommand
    exact h.sure_silent rfl rfl
  · exact World.Sure.deeper h.sure_sync (by decide)
  · refine h.sure_call (d := 1) hi hmem fun command hcommand => ?_
    exact World.Cosmetic.sure (cosmetic_variantBody v.1 hcommand)

/-- No function of a rig can fail, and the calls stay well below the limit. -/
theorem sure_functions (hdepth : ∀ c ∈ clips, c.tree.depth ≤ 32) :
    h.SureAll 43 (s.functions clips) := by
  have hticks : ∀ c ∈ clips, h.Sure 40
      (.function ((ClipPaths.ofClip s.names.namespaceName c.clip).control "tick")) := by
    intro c hc
    obtain ⟨body, hbody⟩ : ∃ body, ((ClipPaths.ofClip s.names.namespaceName c.clip).control "tick",
        body) ∈ s.clipFunctions c.clip c.tree :=
      ⟨_, List.mem_append_right _ <| .tail _ <| .tail _ <| .tail _ <| .tail _ <| .tail _ <|
        .tail _ <| .head _⟩
    exact h.sure_clipFunctions hc (hdepth c hc) _ hbody
  refine .append (.append ?_ (h.sure_tickFunctions (by decide) hticks))
    (h.sure_instanceFunctions.deeper (by decide))
  intro g hg
  obtain ⟨c, hc, hg⟩ := List.mem_flatMap.1 hg
  exact World.Sure.deeper (h.sure_clipFunctions hc (hdepth c hc) g hg) (by decide)

end Hosts

end Stage

end Marionette
