import Marionette.Proofs.Functions.Scores
import Marionette.Proofs.Lines
import Marionette.Proofs.Ranges

/-!
# Numbers in the functions of an output

Lengths of animations are checked to be scores, one by one.  The settings that functions state as
scores are not, and neither is the sum of a length and a delay.

- `Animation.ticks_of_check`: lengths that are not refused are counted exactly.
- `Output.scoreTable`: the numbers of ticks that the functions of an output should have.
- `Output.IsExact`: they have just these; `Output.HasRoom`: these are scores.
- `Stage.Compiles.scoresOf_eq_iff`: a function is exact if and only if its numbers are scores.
- `numbers_of_compile`: an output is exact if and only if there is room for its numbers.
- `not_isExact_slow`: there need not be.
-/

namespace Marionette

variable {rig : Rig} {animations : List Animation} {config : Config} {o : Output}

/-! ### Lengths -/

/-- The length and the delay of an animation that is not refused are counted exactly, and are
scores. -/
theorem Animation.ticks_of_check {a : Animation} (h : a.check = .ok ()) :
    ((a.duration : Int) = max (secondsToTick a.length) 0 ∧ a.duration ≤ 2147483647) ∧
      (a.loopDelayTicks : Int) = max (secondsToTick a.loopDelay) 0 ∧
        a.loopDelayTicks ≤ 2147483647 := by
  obtain ⟨_, hlength, h⟩ := exists_of_bind_ok h
  obtain ⟨_, hdelay, -⟩ := exists_of_bind_ok h
  exact ⟨lengthTicks_of_checkDuration hlength, lengthTicks_of_checkDuration hdelay⟩

/-! ### Outputs -/

/-- The functions of an output that have numbers for scores, with the numbers that
they should have. -/
def Output.scoreTable (o : Output) (config : Config) : ScoreTable :=
  o.clips.flatMap (fun c =>
    (ClipPaths.ofClip o.namespaceName c.clip).treeScores c.tree ++
      (ClipPaths.ofClip o.namespaceName c.clip).controlScores config c.clip) ++
    rigScores o.namespaceName config (o.clips.map (·.clip))

/-- The whole numbers in the functions of an output are what they should be: as scores those of its
table and no others, and in data the numbers of items, the starts of interpolations, and how long
these take, where only functions of frames turn interpolation off. -/
structure Output.IsExact (o : Output) (config : Config) : Prop where
  written : ∀ e ∈ o.scoreTable config, ∃ f ∈ o.pack.functions, f.1 = e.1
  scores : ∀ f ∈ o.pack.functions, ∀ e ∈ o.scoreTable config, f.1 = e.1 →
    scoresOf f.2 = e.2.map Nat.cast
  others : ∀ f ∈ o.pack.functions, (∀ e ∈ o.scoreTable config, f.1 ≠ e.1) → scoresOf f.2 = []
  data : ∀ f ∈ o.pack.functions, ∀ e ∈ intsOf f.2,
    e = ("count", 1) ∨ e = ("start_interpolation", -1) ∨
      e = ("interpolation_duration", (config.interpolationDuration : Int)) ∨
      e = ("interpolation_duration", 0) ∧ f.1 ≠ ⟨o.namespaceName, "summon"⟩

/-- All numbers that the functions of an output should have are scores. -/
def Output.HasRoom (o : Output) (config : Config) : Prop :=
  config.interpolationDuration ≤ 2147483647 ∧
    ∀ c ∈ o.clips, config.tweenDuration ≤ 2147483647 ∧
    c.clip.duration + c.clip.loopDelay ≤ 2147483647

namespace Stage

variable {s : Stage}

/-- The functions that have numbers for scores. -/
def numberedFunctions (s : Stage) (clips : List CompiledClip) : List GeneratedFunction :=
  clips.flatMap (fun c =>
    s.dispatchFunctions (.ofClip s.names.namespaceName c.clip) c.tree ++
      s.controlFunctions (.ofClip s.names.namespaceName c.clip) c.clip) ++
    s.scoreFunctions (clips.map (·.clip))

theorem Compiles.writes (h : s.Compiles o) :
    Writes (s.numberedFunctions o.clips) (o.scoreTable s.config) := by
  unfold Output.scoreTable numberedFunctions
  rw [← h.namespaceName]
  refine Writes.append ?_ (writes_scoreFunctions _)
  have hduration := h.duration_le
  generalize o.clips = clips at hduration
  induction clips with
  | nil => exact .nil
  | cons c clips ih =>
    rw [List.flatMap_cons, List.flatMap_cons]
    obtain ⟨hc, hrest⟩ := List.forall_mem_cons.1 hduration
    exact ((writes_dispatchFunctions c.tree).append (writes_controlFunctions hc)).append (ih hrest)

/-- These are functions of the rig. -/
theorem mem_functions_of_numbered {clips : List CompiledClip} {g : GeneratedFunction}
    (hg : g ∈ s.numberedFunctions clips) : g ∈ s.functions clips := by
  rcases List.mem_append.1 hg with hg | hg
  · obtain ⟨c, hc, hg⟩ := List.mem_flatMap.1 hg
    rcases List.mem_append.1 hg with hg | hg
    · exact mem_functions_of_clip hc (List.mem_append_left _ (List.mem_append_left _ hg))
    · exact mem_functions_of_control hc hg
  · rcases List.mem_cons.1 hg with rfl | hg
    · exact mem_functions_of_tick (.tail _ (.tail _ (.head _)))
    · rcases List.mem_cons.1 hg with rfl | hg
      · exact mem_functions_of_tick (.tail _ (.tail _ (.tail _ (.head _))))
      · obtain rfl := List.mem_singleton.1 hg
        exact mem_functions_of_instance (List.mem_append_left _ (.tail _ (.head _)))

/-- Every function of the table is in the pack. -/
theorem Compiles.exists_written (h : s.Compiles o) :
    ∀ e ∈ o.scoreTable s.config, ∃ f ∈ o.pack.functions, f.1 = e.1 := by
  intro e he
  obtain ⟨g, hg, hpath, -⟩ := exists_of_mem_right h.writes he
  exact ⟨g, mem_pack_of_mem_functions h.pack g (mem_functions_of_numbered hg), hpath⟩

/-- Each of them is exact if and only if its numbers are scores. -/
theorem Compiles.scoresOf_eq_iff (h : s.Compiles o) (hrig : s.rig.IsBuilt) {f : GeneratedFunction}
    (hf : f ∈ o.pack.functions) {e : FunctionPath × List Nat} (he : e ∈ o.scoreTable s.config)
    (hpath : f.1 = e.1) : scoresOf f.2 = e.2.map Nat.cast ↔ ∀ n ∈ e.2, n ≤ 2147483647 := by
  obtain ⟨g, hg, hpath', hscores⟩ := exists_of_mem_right h.writes he
  -- no other function has the path
  obtain rfl : f = g := List.inj_on_of_nodup_map
    (nodup_functions hrig.nodup_variantNames h.areCompiled) (mem_functions_of_pack h.pack f hf)
    (mem_functions_of_numbered hg) (hpath.trans hpath'.symm)
  rw [hscores]
  exact map_asScore_eq_iff

/-- Other functions have no numbers for scores. -/
theorem Compiles.scoresOf_eq_nil (h : s.Compiles o) {f : GeneratedFunction}
    (hf : f ∈ o.pack.functions) (hnone : ∀ e ∈ o.scoreTable s.config, f.1 ≠ e.1) :
    scoresOf f.2 = [] := by
  refine (scores_functions_cases (mem_functions_of_pack h.pack f hf)).resolve_right fun hf' => ?_
  have hf' : f ∈ s.numberedFunctions o.clips := by
    rcases hf' with ⟨c, hc, hf'⟩ | hf'
    · exact List.mem_append_left _ (List.mem_flatMap.2 ⟨c, hc, hf'⟩)
    · exact List.mem_append_right _ hf'
  obtain ⟨e, he, hpath, -⟩ := exists_of_mem_left h.writes hf'
  exact hnone e he hpath

/-- In the trees of an animation all numbers are ticks below its duration. -/
theorem Compiles.lt_of_mem_treeScores (h : s.Compiles o) {c : CompiledClip} (hc : c ∈ o.clips)
    (paths : ClipPaths) : ∀ e ∈ paths.treeScores c.tree, ∀ tick ∈ e.2, tick < c.clip.duration := by
  have hsound : c.tree.IsSound := by
    rw [h.areCompiled.built c hc]
    exact DispatchTree.isSound_build _ (h.duration_le c hc)
  have hlt : ∀ e ∈ paths.treeScores c.tree, ∀ tick ∈ e.2, tick < c.tree.duration :=
    Stage.lt_of_mem_treeScores hsound.ordered hsound.hi_lt
  rw [h.areCompiled.built c hc] at hlt ⊢
  exact hlt

/-- The numbers of the table are scores if and only if there is room for the settings
and the sums. -/
theorem Compiles.hasRoom_iff (h : s.Compiles o) :
    (∀ e ∈ o.scoreTable s.config, ∀ n ∈ e.2, n ≤ 2147483647) ↔ o.HasRoom s.config := by
  unfold Output.scoreTable
  constructor
  · intro hall
    obtain ⟨hclips, hrig⟩ := List.forall_mem_append.1 hall
    -- the table of the rig has the default duration in it, and that of each animation the others
    refine ⟨hrig _ (.tail _ (.head _)) _ (.tail _ (.tail _ (.head _))), fun c hc => ?_⟩
    have hcontrols :=
      (List.forall_mem_append.1 fun e he => hclips e (List.mem_flatMap.2 ⟨c, hc, he⟩)).2
    unfold ClipPaths.controlScores at hcontrols
    simp only [List.forall_mem_cons] at hcontrols
    tauto
  · rintro ⟨hinterp, hclips⟩
    refine List.forall_mem_append.2 ⟨fun e he => ?_, ?_⟩
    · obtain ⟨c, hc, he⟩ := List.mem_flatMap.1 he
      obtain ⟨htween, hlength⟩ := hclips c hc
      have hduration := h.duration_le c hc
      rcases List.mem_append.1 he with he | he
      -- ticks of trees are below the duration, which fits by itself
      · intro tick htick
        have hlt := h.lt_of_mem_treeScores hc _ e he tick htick
        omega
      · have hcontrols :
            ∀ e ∈ (ClipPaths.ofClip o.namespaceName c.clip).controlScores s.config c.clip,
            ∀ n ∈ e.2, n ≤ 2147483647 := by
          simp [ClipPaths.controlScores]
          omega
        exact hcontrols e he
    · have hmodes : ∀ n ∈ (o.clips.map (·.clip)).flatMap fun clip => [0, clip.loopMode.number],
          n ≤ 2147483647 := by
        intro n hn
        obtain ⟨clip, -, hn⟩ := List.mem_flatMap.1 hn
        rcases List.mem_pair.1 hn with rfl | rfl
        · exact Nat.zero_le _
        · cases clip.loopMode <;> decide
      simpa [rigScores, hinterp] using hmodes

/-- An output is exact if and only if there is room for its numbers. -/
theorem Compiles.isExact_iff (h : s.Compiles o) (hrig : s.rig.IsBuilt) :
    o.IsExact s.config ↔ o.HasRoom s.config := by
  rw [← h.hasRoom_iff]
  constructor
  · intro hexact e he
    obtain ⟨f, hf, hpath⟩ := h.exists_written e he
    exact (h.scoresOf_eq_iff hrig hf he hpath).1 (hexact.scores f hf e he hpath)
  · intro hall
    refine ⟨h.exists_written, fun f hf e he hpath =>
      (h.scoresOf_eq_iff hrig hf he hpath).2 (hall e he),
      fun f hf => h.scoresOf_eq_nil hf, fun f hf e he => ?_⟩
    have hcases := ints_functions_cases (mem_functions_of_pack h.pack f hf) e he
    have hinterp : s.defaultInterp.toInt = s.config.interpolationDuration :=
      asScore_eq_iff.2 (h.hasRoom_iff.1 hall).1
    rwa [hinterp, function, h.namespaceName] at hcases

end Stage

/-- In everything that is compiled tweens take a tick at least, lengths and delays are counted
exactly and are scores, and so are all ticks in the trees.  A function has just the numbers that it
should have if and only if these are scores, and all functions have if and only if there is room for
the default lengths of interpolations and tweens and for the sums of the lengths and the delays. -/
theorem numbers_of_compile (name : String) (nodes : List RigNode) (variants : List Variant)
    (animations : List Animation) (config : Config) :
    Ensures (Rig.build name nodes variants) fun rig =>
      Ensures (compile rig animations config) fun o =>
        1 ≤ config.tweenDuration ∧
        (∀ c ∈ o.clips, ∃ a ∈ animations,
          ((c.clip.duration : Int) = max (secondsToTick a.length) 0 ∧
            c.clip.duration ≤ 2147483647) ∧
          (c.clip.loopDelay : Int) = max (secondsToTick a.loopDelay) 0 ∧
            c.clip.loopDelay ≤ 2147483647) ∧
        (∀ c ∈ o.clips, ∀ e ∈ (ClipPaths.ofClip o.namespaceName c.clip).treeScores c.tree,
          ∀ tick ∈ e.2, tick < c.clip.duration) ∧
        (∀ f ∈ o.pack.functions, ∀ e ∈ o.scoreTable config, f.1 = e.1 →
          (scoresOf f.2 = e.2.map Nat.cast ↔ ∀ n ∈ e.2, n ≤ 2147483647)) ∧
        (o.IsExact config ↔ o.HasRoom config) := by
  refine Ensures.intro fun rig hbuild => Ensures.intro fun o hcompile => ?_
  have hrig : rig.IsBuilt := ⟨name, nodes, variants, hbuild⟩
  obtain ⟨-, -, hcheck, -⟩ := Stage.exists_compileClips_of_compile hcompile
  obtain ⟨s, rfl, rfl, hcompiles⟩ := Stage.exists_compiles hrig hcompile
  refine ⟨(Config.bounds_of_check hcheck).1, fun c hc => ?_,
    fun c hc => hcompiles.lt_of_mem_treeScores hc _,
    fun f hf e he hpath => hcompiles.scoresOf_eq_iff hrig hf he hpath, hcompiles.isExact_iff hrig⟩
  obtain ⟨a, ha, names, -, remarks, hsample⟩ := Stage.exists_sample_of_compile hcompile c hc
  have hsame := takesOver_of_sample hsample
  rw [hsame.duration, hsame.loopDelay]
  exact ⟨a, ha, Animation.ticks_of_check (check_of_sample hsample)⟩

/-- With default settings, the circle on a rig without nodes is exact. -/
theorem isExact_circle : ∃ (rig : Rig) (o : Output), Rig.build "rig" [] [] = .ok rig ∧
    compile rig [circle] {} = .ok o ∧ o.clips ≠ [] ∧ o.HasRoom {} ∧ o.IsExact {} := by
  obtain ⟨o, c, hcompile, hclips, hlength⟩ :=
    Stage.exists_compile_circle {} rfl (by decide +kernel)
  -- under a name of its own, nothing of the animation is computed
  obtain ⟨a, ha⟩ : ∃ a, a = circle := ⟨_, rfl⟩
  rw [← ha] at hcompile
  have hroom : o.HasRoom {} := by
    refine ⟨by decide, ?_⟩
    rw [hclips]
    exact List.forall_mem_singleton.2 ⟨by decide, hlength⟩
  have hbuild : Rig.build "rig" [] [] = .ok Stage.nodeless.rig := rfl
  obtain ⟨-, -, -, -, hexact⟩ :=
    ((numbers_of_compile "rig" [] [] [a] {}).apply hbuild).apply hcompile
  exact ⟨_, o, hbuild, ha ▸ hcompile, by simp [hclips], hroom, hexact.2 hroom⟩

/-- Settings with a tween that takes longer than scores can count. -/
def slowTween : Config := { tweenDuration := 3000000000 }

/-- These settings are not refused, but the tween that they ask for has a negative length. -/
theorem not_isExact_slow : ∃ (o : Output) (c : CompiledClip) (f : GeneratedFunction),
    slowTween.check = .ok () ∧ compile Stage.nodeless.rig [circle] slowTween = .ok o ∧
    c ∈ o.clips ∧ f ∈ o.pack.functions ∧
    f.1 = (ClipPaths.ofClip o.namespaceName c.clip).control "tween_play" ∧
    scoresOf f.2 = [0, -1294967296, 1, 0] ∧ ¬o.IsExact slowTween := by
  obtain ⟨o, c, hcompile, hclips, -⟩ :=
    Stage.exists_compile_circle slowTween rfl (by decide +kernel)
  obtain ⟨a, ha⟩ : ∃ a, a = circle := ⟨_, rfl⟩
  rw [← ha] at hcompile ⊢
  have hbuilt : Stage.nodeless.rig.IsBuilt := ⟨"rig", [], [], rfl⟩
  obtain ⟨s, hrig, hconfig, hcompiles⟩ := Stage.exists_compiles hbuilt hcompile
  have hc : c ∈ o.clips := hclips ▸ List.mem_singleton_self c
  have hf : ((ClipPaths.ofClip o.namespaceName c.clip).control "tween_play",
      [setOwn (s.names.localTime c.clip.storageName) 0] ++ s.tweenSetup ++
        s.suppressed (s.applyFirst (.ofClip o.namespaceName c.clip)) ++
        [.tagAdd .this (s.names.playingTag c.clip.storageName)]) ∈ s.functions o.clips := by
    refine Stage.mem_functions_of_control hc ?_
    rw [hcompiles.namespaceName]
    exact .tail _ (.tail _ (.tail _ (.tail _ (.head _))))
  refine ⟨o, c, _, rfl, hcompile, hc, Stage.mem_pack_of_mem_functions hcompiles.pack _ hf,
    rfl, ?_, ?_⟩
  · have htween : Int32.ofNat s.config.tweenDuration = -1294967296 := by
      rw [hconfig]
      rfl
    simp [scoresOf, Stage.tweenSetup, Stage.suppressed, Stage.applyFirst, Command.scores, htween]
  · rw [← hconfig, hcompiles.isExact_iff (hrig ▸ hbuilt), hconfig]
    intro hroom
    exact absurd (hroom.2 c hc).1 (by decide)

end Marionette
