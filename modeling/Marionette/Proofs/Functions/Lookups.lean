import Marionette.Proofs.Functions.Dispatch
import Marionette.Proofs.Functions.Leaves
import Marionette.Proofs.Functions.PackExists

/-!
# Dispatch functions and lookups

In a world of a pack, the dispatch functions of an animation do what the frame does that the lookup
in its tree finds, whatever the frame score is.

- `Stage.Hosts`: the world runs the functions of a pack.
- `Stage.Hosts.cosmetic_frame`: frames change looks only.
- `RunsLeaf`: running a function is running the frame of a leaf, or nothing.
- `Stage.Hosts.runsLeaf_dispatch`: the dispatch functions run the leaves that lookups find.
-/

namespace Marionette

/-- The world runs the functions of a pack, with the default depth of calls. -/
structure Stage.Hosts (s : Stage) (clips : List CompiledClip) (w : World) : Prop where
  installs : w.Installs (s.functions clips)
  maxDepth : w.maxDepth = defaultMaxDepth

/-- Running a function as the root does what the function of the frame of a leaf does, and nothing
if there is no leaf. -/
def RunsLeaf (paths : ClipPaths) (tree : DispatchTree) (root : Nat) (w : World)
    (path : FunctionPath) (leaf : Option Nat) : Prop :=
  match leaf with
  | none => Run.on (World.run path (some root)) w = (.ok (), w)
  | some id => ∃ frame w', tree.entries[id]? = some (.leaf frame) ∧
      Run.on (World.run (paths.frame frame.tick) (some root)) w = (.ok (), w') ∧
      Run.on (World.run path (some root)) w = (.ok (), w')

namespace Stage

variable {s : Stage} {clips : List CompiledClip} {c : CompiledClip} {w w₀ : World} {p : Datapack}

/-- A world that shares its functions and its depth of calls with a new world of the pack. -/
theorem hosts_ofPack (hp : s.pack clips = .ok p) (hw₀ : World.ofPack p = .ok w₀)
    (hf : w.functions = w₀.functions) (hd : w.maxDepth = w₀.maxDepth) : s.Hosts clips w := by
  refine ⟨(installs_ofPack hp hw₀).congr hf, hd.trans ?_⟩
  obtain ⟨ticks, loads, -, -, rfl⟩ := World.ofPack_eq hw₀
  rfl

namespace Hosts

theorem installs_clip (h : s.Hosts clips w) (hc : c ∈ clips) :
    w.Installs (s.clipFunctions c.clip c.tree) := fun f hf =>
  h.installs f (mem_functions_of_clip hc hf)

theorem installs_ticks (h : s.Hosts clips w) :
    w.Installs (s.tickFunctions (clips.map (·.clip))) := fun f hf =>
  h.installs f (mem_functions_of_tick hf)

theorem installs_instance (h : s.Hosts clips w) :
    w.Installs (s.instanceFunctions (clips.map (·.clip))) := h.installs.right

theorem knowsVariants (h : s.Hosts clips w) : s.KnowsVariants w.functions := fun _ hv =>
  h.installs_instance _ (List.mem_append_right _ (List.mem_map_of_mem hv))

/-- Frames of an animation change looks only. -/
theorem cosmetic_frame (h : s.Hosts clips w) (hc : c ∈ clips) {frame : Frame}
    (hframe : frame ∈ c.tree.frames) :
    World.Cosmetic w.functions 3
      (.function ((ClipPaths.ofClip s.names.namespaceName c.clip).frame frame.tick)) :=
  Stage.cosmetic_frame h.knowsVariants (h.installs_clip hc).left.right hframe

end Hosts

section RunsLeaf

variable {paths : ClipPaths} {tree : DispatchTree} {root d : Nat} {v : Int32} {path : FunctionPath}
  {id : Nat} {frame : Frame}

open World (Does DoesFound Cosmetic)

/-- A function that does nothing runs no leaf. -/
theorem runsLeaf_none (hd : d ≤ w.maxDepth) (h : Does d (.function path) (some root) w (· = w)) :
    RunsLeaf paths tree root w path none := by
  obtain ⟨-, w', hrun, rfl⟩ := World.Leads.run_on h hd
  exact hrun

/-- A function that does what a frame does runs the leaf of that frame. -/
theorem runsLeaf_some (hd : d ≤ w.maxDepth) (hdepth : 3 ≤ d) (hat : AtFrame s root v w)
    (hentry : tree.entries[id]? = some (.leaf frame))
    (hframe : Cosmetic w.functions 3 (.function (paths.frame frame.tick)))
    (h : ∀ Q : World → Prop, (∀ w', Q w' → AtFrame s root v w') →
      DoesFound 3 paths root (some frame) w Q → Does d (.function path) (some root) w Q) :
    RunsLeaf paths tree root w path (some id) := by
  obtain ⟨o, w₁, hleaf, hlooks⟩ : Does 3 (.function (paths.frame frame.tick)) (some root) w
      (World.OnlyLooks w) := hframe.does rfl
  have hat₁ : ∀ w', w' = w₁ → AtFrame s root v w' := by
    rintro w' rfl
    exact hat.of_onlyLooks hlooks
  obtain ⟨-, w', hrun, rfl⟩ := World.Leads.run_on (h (· = w₁) hat₁ ⟨o, w₁, hleaf, rfl⟩) hd
  obtain ⟨-, w'', hrun', rfl⟩ :=
    World.Leads.run_on (Q := fun _ w'' => w'' = w') ⟨o, w', hleaf, rfl⟩ (Nat.le_trans hdepth hd)
  exact ⟨frame, w'', hentry, hrun', hrun⟩

end RunsLeaf

/-- In a world of the pack, on a root that is alive and has a frame score, the dispatch functions of
an animation run the leaves that the lookups in its tree find; a negative score finds none. -/
theorem runsLeaf_dispatch_seek {root : Nat} {v : Int32} {frames : List Frame} {duration : Nat}
    (hp : s.pack clips = .ok p) (hw₀ : World.ofPack p = .ok w₀)
    (hf : w.functions = w₀.functions) (hd : w.maxDepth = w₀.maxDepth) (hc : c ∈ clips)
    (hb : c.tree = .build frames duration) (hdur : duration ≤ 2147483647)
    (hat : AtFrame s root v w) :
    let paths := ClipPaths.ofClip s.names.namespaceName c.clip
    let tick := v.toInt.toNat
    RunsLeaf paths c.tree root w paths.dispatch (if v < 0 then none else c.tree.find? tick) ∧
      RunsLeaf paths c.tree root w paths.seek (if v < 0 then none else c.tree.route? tick) := by
  intro paths tick
  have hosts : s.Hosts clips w := hosts_ofPack hp hw₀ hf hd
  have hi : w.Installs (s.dispatchFunctions paths c.tree) := (hosts.installs_clip hc).left.left
  have ht : c.tree.IsSound := hb ▸ DispatchTree.isSound_build frames hdur
  have hdepth : 3 + c.tree.depth + 1 ≤ w.maxDepth := by
    have := ht.depth_le
    rw [hosts.maxDepth, defaultMaxDepth]
    omega
  -- a negative score passes no range test of the trees
  by_cases hneg : v < 0
  · have hv : ∀ v', w.score? root s.names.frame = some v' → v'.toInt < 0 := by
      intro v' hv'
      obtain rfl : v = v' := Option.some.inj (hat.score.symm.trans hv')
      exact Int32.lt_iff_toInt_lt.1 hneg
    rw [if_pos hneg, if_pos hneg]
    exact ⟨runsLeaf_none hdepth (World.Does.dispatch_skip ht hi hat.living hat.objective hv rfl),
      runsLeaf_none hdepth
        (World.Does.seek_skip ht hi hat.living hat.objective hv rfl)⟩
  · have hv : v.toInt = tick := by
      have : ¬v.toInt < 0 := fun hlt => hneg (Int32.lt_iff_toInt_lt.2 hlt)
      omega
    rw [if_neg hneg, if_neg hneg]
    constructor
    -- either tree finds a leaf and runs its frame, or finds none and changes nothing
    · rcases c.tree.find?_cases tick with ⟨hid, hfound⟩ | ⟨id, frame, hid, hfound, hentry⟩
      all_goals rw [hid]
      · refine runsLeaf_none hdepth (World.Does.dispatch ht hi hv hat ?_ ?_)
        · rintro w' rfl
          exact hat
        · rw [hfound]
          rfl
      · have hframe := hosts.cosmetic_frame hc (DispatchTree.mem_frames_of_findFrame? hfound)
        refine runsLeaf_some hdepth (by omega) hat hentry hframe fun Q hQ h => ?_
        exact World.Does.dispatch ht hi hv hat hQ (hfound ▸ h)
    · rcases c.tree.route?_cases tick with ⟨hid, hfound⟩ | ⟨id, frame, hid, hfound, hentry⟩
      all_goals rw [hid]
      · refine runsLeaf_none hdepth (World.Does.seek ht hi hv hat ?_ ?_)
        · rintro w' rfl
          exact hat
        · rw [hfound]
          rfl
      · have hframe := hosts.cosmetic_frame hc (DispatchTree.mem_frames_of_routeFrame? hfound)
        refine runsLeaf_some hdepth (by omega) hat hentry hframe fun Q hQ h => ?_
        exact World.Does.seek ht hi hv hat hQ (hfound ▸ h)

/-- An animation that says something at ticks 0, 2 and 4.  At tick 3 there is nothing to apply, and
seeking goes back to the second leaf; at tick 4 both run the third. -/
theorem runsLeaf_second_tick :
    ∃ (c : CompiledClip) (frames : List Frame) (w w' : World), c.tree = .build frames 6 ∧
      (frames.map fun frame => (frame.tick, frame.commands)) =
        [(0, some ⟨["say start"], none⟩), (2, some ⟨["say step"], none⟩),
          (4, some ⟨["say end"], none⟩)] ∧
      c.tree.entries[4]? = some (.branch 0 4 [0, 3]) ∧
      AtFrame nodeless 0 3 w ∧ AtFrame nodeless 0 4 w' ∧
      let paths := ClipPaths.ofClip "rig" c.clip
      RunsLeaf paths c.tree 0 w paths.dispatch none ∧
        RunsLeaf paths c.tree 0 w paths.seek (some 1) ∧
        RunsLeaf paths c.tree 0 w' paths.dispatch (some 2) ∧
        RunsLeaf paths c.tree 0 w' paths.seek (some 2) := by
  let frames : List Frame := [{ tick := 0, commands := some ⟨["say start"], none⟩ },
    { tick := 2, commands := some ⟨["say step"], none⟩ },
    { tick := 4, commands := some ⟨["say end"], none⟩ }]
  let c : CompiledClip := ⟨⟨"walk", "walk", "walk", 6, .once, 0, [], frames⟩, .build frames 6⟩
  obtain ⟨p, w₀, hp, hw₀⟩ := exists_pack_nodeless c rfl (by decide)
  -- the same world with one root, whose frame score is given
  let scored (v : Int32) : World := { w₀ with
    entities := #[{ id := 0, entityType := "minecraft:item_display" }]
    objectives := .ofList ["rig.frame"]
    scores := .ofList [((.entity 0, "rig.frame"), v)] }
  have hframe : nodeless.names.frame = "rig.frame" := by
    show "rig" ++ "." ++ "frame" = _
    simp only [String.reduceAppend]
  have hat (v : Int32) : AtFrame nodeless 0 v (scored v) := by
    refine ⟨⟨_, rfl, rfl, rfl⟩, ?_, ?_⟩
    · rw [hframe]
      exact Std.HashSet.contains_ofList.trans (by decide)
    · rw [hframe]
      exact Std.HashMap.getElem?_ofList_of_mem (k := (.entity 0, "rig.frame")) (by simp) (by simp)
        (List.mem_singleton_self _)
  have hruns (v : Int32) := runsLeaf_dispatch_seek (w := scored v) hp hw₀ rfl rfl
    (List.mem_singleton_self c) rfl (by decide) (hat v)
  -- a leaf below the root on the left, and two leaves below a branch on the right
  have hsorted : DispatchTree.distinctFrames frames 6 = frames :=
    congrArg (DispatchTree.mergeTicks []) (List.mergeSort_of_pairwise (by decide))
  have hroot : c.tree.root = some (.branch 0 4 (.leaf frames[0])
      (.branch 2 4 (.leaf frames[1]) (.leaf frames[2]))) := by
    rw [show c.tree.root = DispatchNode.ofFrames? (DispatchTree.distinctFrames frames 6) from rfl,
      hsorted]
    simp [frames, DispatchNode.ofFrames?, DispatchNode.lo, DispatchNode.hi]
  obtain ⟨hnothing, hback⟩ := hruns 3
  obtain ⟨hexact, hsought⟩ := hruns 4
  rw [DispatchTree.find?, hroot] at hnothing hexact
  rw [DispatchTree.route?, hroot] at hback hsought
  refine ⟨c, frames, _, _, rfl, rfl, ?_, hat 3, hat 4, hnothing, hback, hexact, hsought⟩
  rw [DispatchTree.entries, hroot]
  rfl

end Stage

end Marionette
