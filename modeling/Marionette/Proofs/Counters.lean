import Marionette.Proofs.Functions.Home
import Marionette.Proofs.Outcome
import Marionette.Proofs.Ride.Reach
import Marionette.Proofs.World.Footprint

/-!
# Animations own their counters

The functions of an animation write the position and the tag of that animation, besides what all
animations share.  The names of different animations differ also where their authored names collide,
so no function of one animation touches the position, the loop mode or the playing tag of another.

- `FunctionPath.IsBelow`: a function lies below another path.
- `Stage.footprint`: what the functions of an animation may write and call.
- `Stage.within_clipFunctions`: they keep to it; `Stage.within_calls`: so does all that they call.
- `World.KeepsCounters`: on a root, nothing that belongs to an animation has changed.
- `counters_of_compile`: so it is for everything that is compiled.
-/

namespace Marionette

/-- The path lies below another one. -/
def FunctionPath.IsBelow (f root : FunctionPath) : Prop :=
  ∃ segment, f = root.join segment

/-- A path within another one lies below it. -/
theorem FunctionPath.IsBelow.join (root : FunctionPath) (segment : String) :
    (root.join segment).IsBelow root :=
  ⟨segment, rfl⟩

namespace ClipPaths

variable {ns : String} {clip clip' : Clip}

/-- The functions of an animation lie below its path. -/
theorem isBelow_at (paths : ClipPaths) (k : ClipKey) : (paths.at k).IsBelow paths.root :=
  .join paths.root k.segment

/-- No function lies below two animations. -/
theorem pathName_eq_of_isBelow (hclip : '/' ∉ clip.pathName.toList)
    (hclip' : '/' ∉ clip'.pathName.toList) {f : FunctionPath} (h : f.IsBelow (ofClip ns clip).root)
    (h' : f.IsBelow (ofClip ns clip').root) : clip.pathName = clip'.pathName := by
  obtain ⟨segment, rfl⟩ := h
  obtain ⟨segment', heq⟩ := h'
  have hsame : (ofClip ns clip).at (.control segment) = (ofClip ns clip').at (.control segment') :=
    heq
  exact (at_inj hclip hclip' hsame).1

end ClipPaths

namespace Stage

variable {s : Stage} {clips : List CompiledClip} {c : CompiledClip} {clip : Clip}
    {f : GeneratedFunction}

/-! ### Which function is which -/

/-- No function of the rig itself lies below an animation. -/
theorem not_isBelow_of_mem_rigFunctions
    (hf : f ∈ s.tickFunctions (clips.map (·.clip)) ++ s.instanceFunctions (clips.map (·.clip))) :
    ¬f.1.IsBelow (ClipPaths.ofClip s.names.namespaceName clip).root := by
  rintro ⟨segment, heq⟩
  have hl : f.1.path.toList = "animations/".toList ++
      (clip.pathName.toList ++ '/' :: segment.toList) := by
    rw [heq]
    exact ClipPaths.toList_path_at s.names.namespaceName clip (.control segment)
  have hmem := List.mem_map_of_mem (f := (·.1)) hf
  rw [map_fst_rigFunctions] at hmem
  rcases List.mem_append.1 hmem with hmem | hmem
  · obtain ⟨name, hname, hpath⟩ := List.mem_map.1 hmem
    have hsingle : ∀ name ∈ rigNames, '/' ∉ name.toList := by decide
    refine hsingle name hname ?_
    show '/' ∈ (s.function name).path.toList
    rw [hpath, hl]
    simp
  · obtain ⟨v, -, hpath⟩ := List.mem_map.1 hmem
    rw [← hpath, toList_path_variantApply] at hl
    simp at hl

/-- What lies below an animation is a function of that animation. -/
theorem mem_clipFunctions_of_isBelow (h : AreCompiled clips) (hc : c ∈ clips)
    (hf : f ∈ s.functions clips)
    (hbelow : f.1.IsBelow (ClipPaths.ofClip s.names.namespaceName c.clip).root) :
    f ∈ s.clipFunctions c.clip c.tree := by
  rw [functions, List.append_assoc] at hf
  rcases List.mem_append.1 hf with hf | hf
  · obtain ⟨c', hc', hf⟩ := List.mem_flatMap.1 hf
    obtain ⟨k, -, hk⟩ := namespaceName_clipFunctions hf
    have hname := ClipPaths.pathName_eq_of_isBelow (h.pathName c hc) (h.pathName c' hc') hbelow
      (hk ▸ ClipPaths.isBelow_at _ k)
    obtain rfl := List.inj_on_of_nodup_map h.nodup_pathNames hc hc' hname
    exact hf
  · exact absurd hbelow (not_isBelow_of_mem_rigFunctions hf)

/-! ### What the functions of an animation write -/

/-- What the functions of an animation may write and call: what animations share, and what belongs
to this one. -/
def footprint (s : Stage) (clip : Clip) : Footprint where
  objectives :=
    [.frame, .tween, .tweenRequest, .interp, .localTime clip.storageName].map s.names.score
  tags := [.suppress, .playing clip.storageName].map s.names.tag
  calls path := path.IsBelow (ClipPaths.ofClip s.names.namespaceName clip).root ∨
    path ∈ s.syncFunction.1 :: s.rig.variants.map fun v => s.variantApply v.2

variable {cmd : Command}

/-- Calls within a tree stay below the animation. -/
theorem within_of_isTreeCall
    (h : s.IsTreeCall (.ofClip s.names.namespaceName clip) cmd) :
    cmd.Within (s.footprint clip) := by
  obtain ⟨lo, hi, segment, rfl⟩ := h
  exact ⟨List.forall_mem_singleton.2 trivial, .inl (.join _ segment)⟩

/-- Going to a node writes nothing. -/
theorem within_onNode (name : String) :
    ∀ clause ∈ s.onNode name, clause.Within (s.footprint clip) := by
  simp [onNode, Clause.ifEntity, Clause.Within]

/-- Neither does going to a locator. -/
theorem within_locatorClauses (slot : Slot) (pose : Pose) :
    ∀ clause ∈ s.locatorClauses slot pose, clause.Within (s.footprint clip) := by
  unfold locatorClauses
  split
  · exact List.forall_mem_append.2 ⟨within_onNode _, List.forall_mem_singleton.2 trivial⟩
  · simp [Clause.Within]

/-- A condition adds nothing to what is written. -/
theorem within_conditioned {clauses : List Clause} {condition : Option String}
    (hclauses : ∀ clause ∈ clauses, clause.Within (s.footprint clip))
    (h : cmd.Within (s.footprint clip)) :
    (conditioned clauses condition cmd).Within (s.footprint clip) := by
  unfold conditioned
  split
  · exact h
  · refine ⟨List.forall_mem_append.2 ⟨hclauses, fun clause hclause => ?_⟩, h⟩
    obtain ⟨text, -, rfl⟩ := List.mem_map.1 hclause
    trivial

/-- Effects write no score and no tag, and call variants at most. -/
theorem within_effects {frame : Frame} {e : Effect} (he : e ∈ s.effects frame) :
    e.command.Within (s.footprint clip) := by
  rcases effects_cases he with
    ⟨effect, -, v, hv, h⟩ | ⟨effect, -, line, -, h⟩ | ⟨slot, -, pose, effect, -, line, -, h⟩
      <;> rw [h]
  · refine within_conditioned (List.forall_mem_nil _) (.inr (List.mem_cons_of_mem _ ?_))
    exact List.mem_map_of_mem (f := fun v : Variant × String => s.variantApply v.2) hv
  · exact within_conditioned (List.forall_mem_nil _) trivial
  · exact within_conditioned (within_locatorClauses slot pose) trivial

/-- The update of a node writes data alone. -/
theorem within_nodeUpdate {slot : Slot} {pose : Pose} {restore : Bool}
    (hc : cmd ∈ (s.nodeUpdate slot pose restore).toList) : cmd.Within (s.footprint clip) := by
  unfold nodeUpdate at hc
  dsimp only at hc
  split at hc
  · rw [List.mem_singleton.1 hc]
    exact ⟨within_onNode _, trivial⟩
  · split at hc
    · rw [List.mem_singleton.1 hc]
      exact ⟨List.forall_mem_append.2 ⟨List.forall_mem_singleton.2 trivial, within_onNode _⟩,
        trivial⟩
    · cases hc

/-- The effects are called by a path of the animation. -/
theorem within_effectCall {frame : Frame}
    (hc : cmd ∈ (s.effectCall (.ofClip s.names.namespaceName clip) frame).1) :
    cmd.Within (s.footprint clip) := by
  rcases s.effectCall_cases (.ofClip s.names.namespaceName clip) frame with
    ⟨-, h⟩ | ⟨command, heq, h⟩ | h <;> rw [h] at hc
  · cases hc
  · have hcommand : command.Within (s.footprint clip) :=
      within_effects (e := ⟨command, false⟩) (heq ▸ List.mem_cons_self)
    rw [List.mem_singleton.1 hc]
    unfold guardedEffect
    split
    · exact ⟨List.forall_mem_cons.2 ⟨trivial, hcommand.1⟩, hcommand.2⟩
    · exact ⟨List.forall_mem_singleton.2 trivial, hcommand⟩
  · rw [List.mem_singleton.1 hc]
    exact ⟨List.forall_mem_singleton.2 trivial, .inl (.join _ _)⟩

/-- Frames write no scores and no tags. -/
theorem within_leafFunctions {tree : DispatchTree}
    (hf : f ∈ s.leafFunctions (.ofClip s.names.namespaceName clip) tree) :
    ∀ cmd ∈ f.2, cmd.Within (s.footprint clip) := by
  intro cmd hc
  obtain ⟨before, frame, after, -, rfl | hf⟩ := mem_framesFrom_cases hf
  · rcases List.mem_append.1 hc with hc | hc
    · obtain ⟨b, -, entry, -, hc⟩ := mem_updates hc
      exact within_nodeUpdate hc
    · exact within_effectCall hc
  · obtain ⟨e, he, rfl⟩ := mem_effectCall hf hc
    exact within_effects he

/-- The scores that may be written. -/
theorem mem_objectives {k : ScoreKey}
    (hk : k ∈ [.frame, .tween, .tweenRequest, .interp, .localTime clip.storageName]) :
    s.names.score k ∈ (s.footprint clip).objectives :=
  List.mem_map_of_mem hk

/-- The controls of an animation write its position and its tag, and what animations share. -/
theorem within_controlFunctions
    (hf : f ∈ s.controlFunctions (.ofClip s.names.namespaceName clip) clip) :
    ∀ cmd ∈ f.2, cmd.Within (s.footprint clip) := by
  -- each score, tag and call of the controls is in the footprint, and the cases below need only
  -- these facts
  have hframe : s.names.frame ∈ (s.footprint clip).objectives :=
    mem_objectives (k := .frame) (by simp)
  have htween : s.names.tween ∈ (s.footprint clip).objectives :=
    mem_objectives (k := .tween) (by simp)
  have hrequest : s.names.tweenRequest ∈ (s.footprint clip).objectives :=
    mem_objectives (k := .tweenRequest) (by simp)
  have hinterp : s.names.interp ∈ (s.footprint clip).objectives :=
    mem_objectives (k := .interp) (by simp)
  have htime : s.names.localTime clip.storageName ∈ (s.footprint clip).objectives :=
    mem_objectives (k := .localTime clip.storageName) (by simp)
  have hsuppress : s.names.suppressTag ∈ (s.footprint clip).tags := List.mem_cons_self
  have hplaying : s.names.playingTag clip.storageName ∈ (s.footprint clip).tags :=
    List.mem_cons_of_mem _ List.mem_cons_self
  have hsync : s.sync.Within (s.footprint clip) := .inr List.mem_cons_self
  have hcall : ∀ name,
      (s.footprint clip).calls ((ClipPaths.ofClip s.names.namespaceName clip).control name) :=
    fun name => .inl (.join _ name)
  have hdispatch :
      (s.footprint clip).calls (ClipPaths.ofClip s.names.namespaceName clip).dispatch :=
    .inl (.join _ _)
  have hseek : (s.footprint clip).calls (ClipPaths.ofClip s.names.namespaceName clip).seek :=
    .inl (.join _ _)
  simp only [controlFunctions, List.mem_cons, List.not_mem_nil, or_false] at hf
  rcases hf with rfl | rfl | rfl | rfl | rfl | rfl | rfl | rfl | rfl | rfl | rfl <;>
    simp [playBody, applyFirst, suppressed, tweenSetup, seekCurrent, advanceBody, endBody,
      setOwn, copyOwn, Command.copyScore, ifOwn, Clause.ifScore, Clause.unlessScore,
      Clause.ifEntity, Command.Within, Clause.Within, *]

/-- The functions of an animation write its own scores and tags, and what animations share. -/
theorem within_clipFunctions (hf : f ∈ s.clipFunctions clip c.tree) :
    ∀ cmd ∈ f.2, cmd.Within (s.footprint clip) := by
  rcases List.mem_append.1 hf with hf | hf
  · rcases List.mem_append.1 hf with hf | hf
    · intro cmd hc
      obtain ⟨text, rfl⟩ | hcall := isTreeCall_dispatchFunctions hf hc
      · trivial
      · exact within_of_isTreeCall hcall
    · exact within_leafFunctions hf
  · exact within_controlFunctions hf

/-- Telling the nodes about interpolation writes no score of the root. -/
theorem within_syncBody : ∀ cmd ∈ s.syncBody, cmd.Within (s.footprint clip) := by
  refine List.forall_mem_cons.2 ⟨?_, List.forall_mem_singleton.2 ⟨?_, trivial⟩⟩
  · exact mem_objectives (k := .interp) (by simp)
  · exact List.forall_mem_cons.2 ⟨trivial, List.forall_mem_singleton.2 trivial⟩

/-- A variant writes no score at all. -/
theorem within_variantBody (variant : Variant) :
    ∀ cmd ∈ s.variantBody variant, cmd.Within (s.footprint clip) := by
  intro cmd hc
  unfold variantBody at hc
  dsimp only at hc
  split at hc
  · rw [List.mem_singleton.1 hc]
    trivial
  · obtain ⟨slot, -, hslot⟩ := List.mem_filterMap.1 hc
    obtain ⟨model, -, rfl⟩ := Option.map_eq_some_iff.1 hslot
    exact ⟨within_onNode _, trivial⟩

/-- Whatever the functions of an animation may call keeps to the same footprint. -/
theorem within_of_calls (hv : (s.rig.variants.map (·.2)).Nodup) (h : AreCompiled clips)
    (hc : c ∈ clips) (hf : f ∈ s.functions clips) (hcalls : (s.footprint c.clip).calls f.1) :
    ∀ cmd ∈ f.2, cmd.Within (s.footprint c.clip) := by
  have hinj := List.inj_on_of_nodup_map (nodup_functions hv h)
  rcases hcalls with hbelow | hshared
  · exact within_clipFunctions (mem_clipFunctions_of_isBelow h hc hf hbelow)
  · rcases List.mem_cons.1 hshared with hsync | hvariant
    · have hmem : s.syncFunction ∈ s.functions clips :=
        mem_functions_of_instance (.tail _ <| .tail _ <| .tail _ <| .tail _ <| .head _)
      obtain rfl := hinj hf hmem hsync
      exact within_syncBody
    · obtain ⟨v, hmem, hpath⟩ := List.mem_map.1 hvariant
      obtain rfl := hinj hf (mem_functions_of_variant hmem) hpath.symm
      exact within_variantBody v.1

end Stage

/-! ### Animations and what belongs to them -/

/-- On a root, nothing that belongs to an animation has changed from one world to another. -/
structure World.KeepsCounters (w w' : World) (v : RuntimeNames) (root : Nat) (animation : String) :
    Prop where
  localTime : w'.score? root (v.localTime animation) = w.score? root (v.localTime animation)
  loopMode : w'.score? root (v.loopMode animation) = w.score? root (v.loopMode animation)
  playing : w'.hasTag root (v.playingTag animation) = w.hasTag root (v.playingTag animation)

namespace Stage

open World (KeepsBeyond)

variable {s : Stage} {clips : List CompiledClip} {a : CompiledClip} {b : Clip} {w w' : World}
    {root : Nat}

/-- What lies beyond the footprint of an animation holds all that belongs to another one. -/
theorem keepsCounters_of_keepsBeyond (hne : b.storageName ≠ a.clip.storageName)
    (h : KeepsBeyond (s.footprint a.clip) w w') :
    w.KeepsCounters w' s.names root b.storageName := by
  have hscore : ∀ k : ScoreKey, k = .localTime b.storageName ∨ k = .loopMode b.storageName →
      w'.score? root (s.names.score k) = w.score? root (s.names.score k) := by
    refine fun k hk => h.score _ _ fun hmem => ?_
    obtain ⟨k', hk', heq⟩ := List.mem_map.1 hmem
    obtain rfl := RuntimeNames.score_inj heq
    rcases hk with rfl | rfl <;> simp [hne] at hk'
  refine ⟨hscore _ (.inl rfl), hscore _ (.inr rfl),
    h.tag _ (s.names.tag (.playing b.storageName)) fun hmem => ?_⟩
  obtain ⟨k', hk', heq⟩ := List.mem_map.1 hmem
  obtain rfl := RuntimeNames.tag_inj heq
  simp [hne] at hk'

/-- Whatever a function of an animation does, all scores and tags beyond the footprint of that
animation stay. -/
theorem RunsOnly.keepsBeyond (hw : s.RunsOnly clips w) (hv : (s.rig.variants.map (·.2)).Nodup)
    (h : AreCompiled clips) (ha : a ∈ clips) {path : FunctionPath} {executor : Option Nat}
    (hbelow : path.IsBelow (ClipPaths.ofClip s.names.namespaceName a.clip).root) :
    Run.Leaves (KeepsBeyond (s.footprint a.clip)) (World.run path executor) w := by
  refine .looking (.andThen ?_ fun _ _ => .nothing _)
  refine World.keepsBeyond_callFunction (fun path body hbody hcalls => ?_) (Or.inl hbelow) _ rfl
  exact within_of_calls hv h ha (hw.only path body hbody) hcalls

end Stage

/-- In every world that callers can reach, on every root and for any two animations, no function of
the one touches the position, the loop mode or the playing tag of the other, for everything that is
compiled. -/
theorem counters_of_compile (name : String) (nodes : List RigNode) (variants : List Variant)
    (animations : List Animation) (config : Config) :
    Ensures (Rig.build name nodes variants) fun rig =>
      Ensures (compile rig animations config) fun o =>
        ∃ w₀ w₁, World.ofPack o.pack = .ok w₀ ∧ Run.on World.load w₀ = (.ok (), w₁) ∧
          ∀ w, World.Reaches o.Offers w₁ w →
            ∀ root, w.IsRoot ⟨o.namespaceName⟩ config root →
              ∀ (i j : Nat) (a b : CompiledClip),
                o.clips[i]? = some a → o.clips[j]? = some b → i ≠ j → ∀ f ∈ o.pack.functions,
                  f.1.IsBelow (ClipPaths.ofClip o.namespaceName a.clip).root → ∃ w',
                    Run.on (World.run f.1 (some root)) w = (.ok (), w') ∧
                    w.KeepsCounters w' ⟨o.namespaceName⟩ root b.clip.storageName := by
  refine Ensures.intro fun rig hbuild => Ensures.intro fun o hcompile => ?_
  have hrig : rig.IsBuilt := ⟨name, nodes, variants, hbuild⟩
  obtain ⟨s, rfl, rfl, hcompiles⟩ := Stage.exists_compiles hrig hcompile
  have hns := hcompiles.namespaceName
  have hnames : s.names = ⟨o.namespaceName⟩ := by rw [← hns]
  have hfunctions := Stage.mem_functions_of_pack hcompiles.pack
  obtain ⟨w₀, w₁, hw₀, hload, hruns⟩ := hcompiles.exists_runsOnly hrig
  refine ⟨w₀, w₁, hw₀, hload, fun w hw root hroot i j a b hi hj hij f hf hbelow => ?_⟩
  have hw := hruns.reaches hns hfunctions hw
  have ha := List.mem_of_getElem? hi
  -- the names of the two animations differ, since they stand at different places
  have hne : b.clip.storageName ≠ a.clip.storageName := by
    intro heq
    have hlt : i < (o.clips.map (·.clip.storageName)).length := by
      rw [List.length_map]
      exact (List.getElem?_eq_some_iff.1 hi).1
    refine hij ((List.getElem?_inj hlt hcompiles.areCompiled.nodup_storageNames).1 ?_)
    rw [List.getElem?_map, List.getElem?_map, hi, hj]
    exact congrArg some heq.symm
  obtain ⟨w', hrun, -⟩ := hw.toReady.run (hfunctions f hf) hroot.knows
  rw [← hns] at hbelow
  rw [← hnames]
  exact ⟨w', hrun, Stage.keepsCounters_of_keepsBeyond hne
    ((hw.keepsBeyond hrig.nodup_variantNames hcompiles.areCompiled ha hbelow).of_on hrun)⟩

end Marionette
