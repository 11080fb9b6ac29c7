import Marionette.Proofs.Instance.Company
import Marionette.Proofs.Instance.Places
import Marionette.Proofs.Outcome

/-!
# Silent controls

Stopping an animation, seeking, and beginning a tween show a frame without what happens beside its
poses.

- `Scene.happened`: what frames do beside the poses: the items that are shown and the commands that
  are recorded.
- `Instance.happened_framed`: while the root is tagged so, a frame does nothing of this.
- `Instance.IsSilent`: a control does nothing of it and leaves the tag off; `isSilent_stopped` and
  its like: these controls are silent.
- `silence_of_compile`: so it is for everything that is compiled.
-/

namespace Marionette

/-- The item of the data of an entity. -/
def Look.item (look : Look) : Option Datum := Compound.get? look.data "item"

/-- What was shown and recorded beside poses: the items of the passengers and the commands. -/
def Scene.happened (sc : Scene) : (Nat → Option Datum) × List RawOutput :=
  (fun r => (sc.look r).item, sc.output)

namespace Look

/-- The data of a pose has no item. -/
theorem item_poseData (look : Look) (s : Stage) (pose : Pose) (restore : Bool) :
    (look.merged (s.poseData pose restore)).item = look.item := by
  refine Compound.get?_merge_of_ne look.data fun e he => ?_
  unfold Stage.poseData at he
  simp only [List.cons_append, List.nil_append, List.mem_cons] at he
  rcases he with rfl | rfl | he
  · simp
  · simp
  · split at he
    · rw [List.mem_singleton.1 he]
      simp
    · split at he
      · rw [List.mem_singleton.1 he]
        simp
      · cases he

/-- Nor has an interpolation duration. -/
theorem item_timed (look : Look) (v : Int32) : (look.timed v).item = look.item := by
  refine (Compound.get?_insert look.data _ _ _).trans (if_neg ?_)
  simp

end Look

namespace Instance

variable {I : Instance} {c : CompiledClip} {sc : Scene} {tree : DispatchTree} {frame : Frame}

/-- Changed looks show no item as long as the item stays. -/
theorem happened_relook {id : Nat} {g : Look → Look} (hg : ∀ look, (g look).item = look.item)
    (sc : Scene) : (sc.relook id g).happened = sc.happened := by
  refine Prod.ext (funext fun r => ?_) rfl
  show Look.item (if r = id then g (sc.look r) else sc.look r) = _
  split
  · exact hg _
  · rfl

/-- Telling the nodes about interpolation shows nothing. -/
theorem happened_synced (sc : Scene) : (I.synced sc).happened = sc.happened :=
  synced_same Scene.happened fun _ v sc => happened_relook (fun look => look.item_timed v) sc

/-- While the root is tagged to change poses only, a frame shows no items and
records no commands. -/
theorem happened_framed (h : sc.tagged .suppress = true) (tree : DispatchTree) (frame : Frame) :
    (I.framed tree frame sc).happened = sc.happened := by
  have hposed : (I.posed frame (I.stage.flagsBefore tree frame) sc).tagged = sc.tagged :=
    posed_same Scene.tagged fun _ _ _ => rfl
  unfold framed
  dsimp only
  rw [hposed, if_pos h]
  exact posed_same_of_poses Scene.happened
    (fun _ pose restore sc => happened_relook (fun look => look.item_poseData _ pose restore) sc)
    fun _ offset yaw pitch sc => happened_relook (g := (·.moved offset yaw pitch)) (fun _ => rfl) sc

/-- As long as effects are suppressed, a frame shows its poses alone. -/
theorem happened_dispatched (h : sc.tagged .suppress = true) (tree : DispatchTree) :
    (I.dispatched tree sc).happened = sc.happened := by
  unfold dispatched
  split
  · rfl
  · exact happened_framed h tree _

/-- So does a frame that is sought. -/
theorem happened_sought (h : sc.tagged .suppress = true) (tree : DispatchTree) :
    (I.sought tree sc).happened = sc.happened := by
  unfold sought
  split
  · rfl
  · exact happened_framed h tree _

/-- From one scene to another, no item was shown and no command was recorded, and the next frame
will do all that belongs to it. -/
structure IsSilent (sc sc' : Scene) : Prop where
  happened : sc'.happened = sc.happened
  suppress : sc'.tagged .suppress = false

/-- Stopping suppresses the effects while the first frame is applied. -/
theorem isSilent_stopped (sc : Scene) : IsSilent sc (stopped I c sc) where
  happened := by
    let start := (((sc.set (timeKey c) 0).set .tween 0).tag .suppress).set .frame 0
    have hframe : (I.dispatched c.tree start).happened = start.happened :=
      happened_dispatched (by simp [start]) c.tree
    exact hframe
  suppress := by simp [stopped]

/-- Beginning a tween shows nothing yet. -/
theorem happened_tweenBegun (sc : Scene) : (I.tweenBegun sc).happened = sc.happened := by
  unfold tweenBegun
  dsimp only
  rw [happened_synced]
  split <;> rfl

/-- A tween to the start suppresses the effects of the first frame. -/
theorem isSilent_tweenPlayed (sc : Scene) : IsSilent sc (tweenPlayed I c sc) where
  happened := by
    let start := ((I.tweenBegun (sc.set (timeKey c) 0)).tag .suppress).set .frame 0
    have hframe : (I.dispatched c.tree start).happened = start.happened :=
      happened_dispatched (by simp [start]) c.tree
    exact hframe.trans (happened_tweenBegun (sc.set (timeKey c) 0))
  suppress := by simp [tweenPlayed, playingKey]

/-- Seeking suppresses the effects of the frame it finds. -/
theorem isSilent_frameSet (sc : Scene) : IsSilent sc (frameSet I c sc) where
  happened := by
    let asked := (sc.tag .suppress).set .frame ((sc.score (timeKey c)).getD 0)
    have hframe : (I.sought c.tree asked).happened = asked.happened :=
      happened_sought (by simp [asked]) c.tree
    exact hframe
  suppress := by simp [frameSet]

/-- A tween to where the animation stands begins, and seeks. -/
theorem isSilent_tweenResumed (sc : Scene) : IsSilent sc (tweenResumed I c sc) where
  happened := (isSilent_frameSet (c := c) (I.tweenBegun sc)).happened.trans (happened_tweenBegun sc)
  suppress := by simp [tweenResumed, frameSet, playingKey]

/-- The controls that are silent. -/
theorem Takes.silent {name : String} (h : I.Runs c)
    (hname : name ∈ ["stop", "tween_play", "tween_resume", "set_frame"]) (sc : Scene) :
    ∃ sc', I.Takes 41 (some I.root) (.function ((I.paths c).control name)) sc sc' ∧
      IsSilent sc sc' := by
  simp only [List.mem_cons, List.not_mem_nil, or_false] at hname
  rcases hname with rfl | rfl | rfl | rfl
  · exact ⟨_, .deeper (by decide) (.stop h), isSilent_stopped sc⟩
  · exact ⟨_, .deeper (by decide) (.tweenPlay h), isSilent_tweenPlayed sc⟩
  · exact ⟨_, .deeper (by decide) (.tweenResume h), isSilent_tweenResumed sc⟩
  · exact ⟨_, .deeper (by decide) (.setFrame h), isSilent_frameSet sc⟩

end Instance

namespace World

/-- The item of the data of an entity. -/
def item? (w : World) (id : Nat) : Option Datum :=
  (w.entity? id).bind fun e => e.look.item

/-- From one world to another, no command was recorded, no entity but the root has changed its item,
and the next frame of the root will do all that belongs to it. -/
structure IsSilent (w w' : World) (v : RuntimeNames) (root : Nat) : Prop where
  output : w'.output = w.output
  item : ∀ id, id ≠ root → w'.item? id = w.item? id
  suppress : w'.hasTag root v.suppressTag = false

end World

namespace Instance

variable {I : Instance} {w w' : World} {sc sc' : Scene}

/-- The item that the world knows is that of the looks. -/
theorem Shows.item?_eq (h : I.Shows w sc) {r : Nat} (hr : r ∈ I.riders) :
    w.item? r = (sc.look r).item := by
  obtain ⟨e, he, hshown⟩ := h.riders r hr
  rw [World.item?, he, Option.bind_some, hshown.look]

/-- What is silent in a scene is so in the world. -/
theorem Reaches.isSilent (hreach : I.Reaches w sc' w') (hI : I.Shows w sc) (h : IsSilent sc sc') :
    w.IsSilent w' I.stage.names I.root where
  output := by
    rw [← Array.toList_inj, hreach.1.output, hI.output]
    exact congrArg Prod.snd h.happened
  item id hne := by
    by_cases hr : id ∈ I.riders
    · rw [hreach.1.item?_eq hr, hI.item?_eq hr]
      exact congrFun (congrArg Prod.fst h.happened) id
    · rw [World.item?, World.item?, hreach.2.entity? id (not_or.2 ⟨hne, hr⟩)]
  suppress := (hreach.1.hasTag .suppress).trans h.suppress

end Instance

/-- In every world that callers can reach, on every root and for every animation, whatever
conditions hold, stopping, seeking and beginning a tween record no commands, show no items and leave
nothing suppressed, for everything that is compiled. -/
theorem silence_of_compile (name : String) (nodes : List RigNode) (variants : List Variant)
    (animations : List Animation) (config : Config) :
    Ensures (Rig.build name nodes variants) fun rig =>
      Ensures (compile rig animations config) fun o =>
        ∃ w₀ w₁, World.ofPack o.pack = .ok w₀ ∧ Run.on World.load w₀ = (.ok (), w₁) ∧
          ∀ w, World.Reaches o.Offers w₁ w →
            ∀ root, w.IsRoot ⟨o.namespaceName⟩ config root → ∀ c ∈ o.clips,
              ∀ control ∈ ["stop", "tween_play", "tween_resume", "set_frame"], ∃ w',
                Run.on (World.run ((ClipPaths.ofClip o.namespaceName c.clip).control control)
                  (some root)) w = (.ok (), w') ∧
                w.IsSilent w' ⟨o.namespaceName⟩ root := by
  refine Ensures.intro fun rig hbuild => Ensures.intro fun o hcompile => ?_
  -- everything reached belongs to instances whose scenes say what controls do
  have hrig : rig.IsBuilt := ⟨name, nodes, variants, hbuild⟩
  obtain ⟨s, rfl, rfl, hcompiles⟩ := Stage.exists_compiles hrig hcompile
  have hns := hcompiles.namespaceName
  have hnames : s.names = ⟨o.namespaceName⟩ := by rw [← hns]
  obtain ⟨w₀, w₁, hw₀, hload, -⟩ := hcompiles.exists_runsOnly hrig
  refine ⟨w₀, w₁, hw₀, hload, fun w hw root hroot c hc control hcontrol => ?_⟩
  have hpopulates := hcompiles.populates hrig hw₀ hload hw
  rw [← hnames] at hroot ⊢
  rw [← hns]
  obtain ⟨I, sc, rfl, hclips, rfl, hI, -⟩ := hpopulates.exists_shows hroot
  rw [← hclips] at hpopulates hc
  obtain ⟨sc', htakes, hsilent⟩ :=
    Instance.Takes.silent ((hpopulates.isAble hI).runs hc) hcontrol sc
  obtain ⟨w', hrun, hreach, -⟩ := hpopulates.run hI (by decide) htakes
  exact ⟨w', hrun, hreach.isSilent hI hsilent⟩

end Marionette
