import Marionette.Proofs.Instance.Interpolation
import Marionette.Proofs.Ranges

/-!
# Interpolation is as configured outside of tweens

- `World.IsSettled`: outside of tweens the interpolation duration of a root is the configured one.
- `Output.Spares`: no animation of a root is stopped while a tween of it is running.
- `interp_of_compile`: whatever callers do, roots that are spared stay settled, and all others
  become so when an animation is played or resumed; stopping leaves the interpolation duration as it
  is.
- `not_isSettled_of_stop`: so a root that is not spared does not stay settled.
-/

namespace Marionette

/-- Outside of tweens the interpolation duration of a root is the configured one. -/
def World.IsSettled (w : World) (v : RuntimeNames) (config : Config) (root : Nat) : Prop :=
  w.score? root v.tween = some 0 →
    ∃ ticks, w.score? root v.interp = some ticks ∧ ticks.toInt = config.interpolationDuration

/-- If an animation of the root is stopped, no tween of it is running. -/
def Output.Spares (o : Output) (root : Nat) (w : World) (d : Deed) : Prop :=
  ∀ c ∈ o.clips, d = .run ((ClipPaths.ofClip o.namespaceName c.clip).control "stop") (some root) →
    w.score? root (⟨o.namespaceName⟩ : RuntimeNames).tween = some 0

namespace Stage

/-- No tween is negative, and where that is demanded of a root, it is settled. -/
abbrev InTime (s : Stage) (clips : List CompiledClip) (demanded : Nat → Prop) (w : World) : Prop :=
  s.Upholds clips (fun r sc => sc.IsTimed s (demanded r)) w

namespace InTime

variable {s : Stage} {o : Output} {demanded : Nat → Prop} {w w' : World} {root : Nat}
    {c : CompiledClip}
  {name : String}

/-- Less may be demanded, and also that a root be settled which is. -/
theorem demand {demanded' : Nat → Prop} (h : s.InTime o.clips demanded w)
    (hnew : ∀ r, demanded' r → ¬demanded r → w.IsRoot s.names s.config r →
      w.IsSettled s.names s.config r) : s.InTime o.clips demanded' w := by
  refine Upholds.refine h fun I sc hstage hI hsc => ?_
  subst hstage
  refine { hsc with interp := fun hd hzero => ?_ }
  by_cases hold : demanded I.root
  · exact hsc.interp hold hzero
  · have hsettled := hnew I.root hd hold (hI.isRoot hsc.root)
    obtain ⟨ticks, hticks, heq⟩ := hsettled ((hI.score .tween).trans hzero)
    refine (hI.score .interp).symm.trans (hticks.trans (congrArg some ?_))
    rw [← Int32.ofInt_toInt ticks, heq]
    rfl

theorem isSettled (h : s.InTime o.clips demanded w)
    (hinterp : s.config.interpolationDuration ≤ 2147483647) (hd : demanded root)
    (hroot : w.IsRoot s.names s.config root) : w.IsSettled s.names s.config root := by
  obtain ⟨I, sc, rfl, -, rfl, hI, hsc⟩ := h.shows root hroot
  intro hzero
  have hdefault := hsc.interp hd ((hI.score .tween).symm.trans hzero)
  exact ⟨_, (hI.score .interp).trans hdefault, Int32.toInt_ofNat_of_lt (by omega)⟩

variable (hns : s.names.namespaceName = o.namespaceName) (hclips : AreCompiled o.clips)
  (hduration : ∀ c ∈ o.clips, c.clip.duration ≤ 2147483647)

include hns hclips hduration

/-- Stopping ends a tween and leaves the interpolation duration as it is. -/
theorem stop (h : s.InTime o.clips demanded w) (hc : c ∈ o.clips)
    (hroot : w.IsRoot s.names s.config root) :
    ∃ w', Run.on (World.run ((ClipPaths.ofClip o.namespaceName c.clip).control "stop") (some root))
      w =
        (.ok (), w') ∧ s.InTime o.clips (fun r => demanded r ∧ r ≠ root) w' ∧
      w'.IsRoot s.names s.config root ∧ w'.score? root s.names.tween = some 0 ∧
      w'.score? root s.names.interp = w.score? root s.names.interp := by
  let before (r : Nat) (sc : Scene) : Prop :=
    sc.IsTimed s (demanded r) ∧ sc.score .interp = w.score? r s.names.interp
  let after (r : Nat) (sc : Scene) : Prop :=
    sc.IsTimed s (demanded r ∧ r ≠ root) ∧
      (r = root → sc.score .tween = some 0 ∧ sc.score .interp = w.score? root s.names.interp)
  have hbefore : s.Upholds o.clips before w := by
    refine Upholds.refine h fun I sc hstage hI hsc => ⟨hsc, ?_⟩
    subst hstage
    exact (hI.score .interp).symm
  have hafter : IsPolicy after :=
    ⟨fun h => h.1.root, fun h => h.1.new, fun h => ⟨h.1.keep (.of_eq rfl rfl), h.2⟩⟩
  have hbrings : s.Brings o.clips (before root) (after root)
      ((ClipPaths.ofClip o.namespaceName c.clip).control "stop") := by
    rw [← hns]
    exact (brings_stop hc).imp (fun _ hsc => hsc) fun _ hsc =>
      ⟨hsc.1.imp fun hd => hd.2 rfl, fun _ => hsc.2⟩
  obtain ⟨w', hrun, hw', hroot'⟩ := hbefore.run hclips hduration hafter hbrings
    (fun hne hsc => ⟨hsc.1.imp And.left, fun heq => absurd heq hne⟩) hroot
  obtain ⟨I, sc, rfl, -, rfl, hI, hsc⟩ := hw'.shows root hroot'
  obtain ⟨htween, hinterp⟩ := hsc.2 rfl
  exact ⟨w', hrun, hw'.refine fun _ _ _ _ hsc => hsc.1, hroot', (hI.score .tween).trans htween,
    (hI.score .interp).trans hinterp⟩

variable (hpos : 1 ≤ s.config.tweenDuration) (htween : s.config.tweenDuration ≤ 2147483647)

include hpos htween

/-- Where an animation is played or resumed, the root that does so is settled. -/
theorem settle (h : s.InTime o.clips demanded w) (hc : c ∈ o.clips)
    (hname : name ∈ ["play", "resume", "tween_play", "tween_resume"])
    (hroot : w.IsRoot s.names s.config root) :
    ∃ w', Run.on (World.run ((ClipPaths.ofClip o.namespaceName c.clip).control name) (some root))
      w =
        (.ok (), w') ∧ s.InTime o.clips (fun r => demanded r ∨ r = root) w' ∧
      w'.IsRoot s.names s.config root := by
  rw [← hns]
  exact h.run hclips hduration (isPolicy_isTimed s _) (brings_settled hname hc hpos htween)
    (fun hne hsc => hsc.imp fun hd => hd.resolve_right hne) hroot

/-- What callers do leaves roots settled that are spared. -/
theorem act (h : s.InTime o.clips demanded w)
    (hinterp : s.config.interpolationDuration ≤ 2147483647) {d : Deed} (hd : o.Plays s.config w d)
    (hspares : ∀ r, demanded r → o.Spares r w d) :
    s.InTime o.clips demanded (Run.on d.act w).2 := by
  refine Upholds.act h (isPolicy_isTimed s demanded) hns hclips hduration
    (Scene.IsTimed.initiated (I := newInstance h.runs.hosts) rfl) (fun _ => brings_onTick)
    (fun {_ sc value} hsc => hsc.keep (.set (k := .tweenRequest) nofun nofun sc value)) hd ?_
  rintro path root rfl hroot
  rcases hd.2 with rfl | ⟨c, hc, name, hname, rfl⟩
  · obtain ⟨w', hrun, hw', -⟩ := h.run hclips hduration (isPolicy_isTimed s demanded)
      brings_pauseAll (fun _ hsc => hsc) hroot
    rw [← hns]
    exact hrun ▸ hw'
  by_cases hsettles : name ∈ ["play", "resume", "tween_play", "tween_resume"]
  · obtain ⟨w', hrun, hw', -⟩ := h.settle hns hclips hduration hpos htween hc hsettles hroot
    rw [hrun]
    exact hw'.demand fun r hd hnot => absurd (.inl hd) hnot
  by_cases hstop : name = "stop"
  · -- a root that is spared has no tween to stop, so it was settled before and keeps what it had
    subst hstop
    obtain ⟨w', hrun, hw', hroot', -, hsame⟩ := h.stop hns hclips hduration hc hroot
    rw [hrun]
    refine hw'.demand fun r hdemanded hnot hr hzero => ?_
    obtain rfl : r = root := by
      by_contra hne
      exact hnot ⟨hdemanded, hne⟩
    have hbefore := hspares r hdemanded c hc rfl
    rw [hsame]
    exact h.isSettled hinterp hdemanded hroot ((congrArg _ (by rw [← hns])).trans hbefore)
  · have hother : name ∈ ["pause", "apply_frame", "set_frame"] := by
      simp only [List.mem_cons, List.not_mem_nil, or_false] at hname hsettles ⊢
      tauto
    obtain ⟨w', hrun, hw', -⟩ := h.run hclips hduration (isPolicy_isTimed s demanded)
      (brings_control hother hc) (fun _ hsc => hsc) hroot
    rw [← hns]
    exact hrun ▸ hw'

theorem reaches (h : s.InTime o.clips demanded w)
    (hinterp : s.config.interpolationDuration ≤ 2147483647)
    (hw : World.Reaches (fun w d => o.Plays s.config w d ∧ ∀ r, demanded r → o.Spares r w d) w w') :
    s.InTime o.clips demanded w' := by
  induction hw with
  | refl => exact h
  | tail _ hstep ih =>
    obtain ⟨d, hd, rfl⟩ | ⟨answers, rfl⟩ := hstep
    · exact ih.act hns hclips hduration hpos htween hinterp hd.1 hd.2
    · exact ih.answered answers

end InTime

end Stage

/-- Whatever callers do, in any order and as often as they like, a root that is settled stays so as
long as it is spared, and whatever was before, playing and resuming an animation settle it.
Stopping leaves the interpolation duration as it is. -/
theorem interp_of_compile (name : String) (nodes : List RigNode) (variants : List Variant)
    (animations : List Animation) (config : Config) :
    Ensures (Rig.build name nodes variants) fun rig =>
      Ensures (compile rig animations config) fun o =>
        config.tweenDuration ≤ 2147483647 → config.interpolationDuration ≤ 2147483647 →
          ∃ w₀ w₁, World.ofPack o.pack = .ok w₀ ∧ Run.on World.load w₀ = (.ok (), w₁) ∧
            ∀ w, World.Reaches (o.Plays config) w₁ w → ∀ root,
              ((w.IsRoot ⟨o.namespaceName⟩ config root →
                w.IsSettled ⟨o.namespaceName⟩ config root) →
                ∀ w', World.Reaches (fun w d => o.Plays config w d ∧ o.Spares root w d) w w' →
                  w'.IsRoot ⟨o.namespaceName⟩ config root →
                    w'.IsSettled ⟨o.namespaceName⟩ config root) ∧
              (w.IsRoot ⟨o.namespaceName⟩ config root → ∀ c ∈ o.clips,
                (∀ control ∈ ["play", "resume", "tween_play", "tween_resume"], ∃ w',
                  Run.on (World.run ((ClipPaths.ofClip o.namespaceName c.clip).control control)
                    (some root)) w = (.ok (), w') ∧ w'.IsSettled ⟨o.namespaceName⟩ config root) ∧
                ∃ w', Run.on (World.run ((ClipPaths.ofClip o.namespaceName c.clip).control "stop")
                    (some root)) w = (.ok (), w') ∧
                  w'.score? root (⟨o.namespaceName⟩ : RuntimeNames).tween = some 0 ∧
                  w'.score? root (⟨o.namespaceName⟩ : RuntimeNames).interp =
                    w.score? root (⟨o.namespaceName⟩ : RuntimeNames).interp) := by
  refine Ensures.intro fun rig hbuild => Ensures.intro fun o hcompile htween hinterp => ?_
  have hrig : rig.IsBuilt := ⟨name, nodes, variants, hbuild⟩
  obtain ⟨-, -, hcheck, -⟩ := Stage.exists_compileClips_of_compile hcompile
  have hpos : 1 ≤ config.tweenDuration := (Config.bounds_of_check hcheck).1
  obtain ⟨s, rfl, rfl, hcompiles⟩ := Stage.exists_compiles hrig hcompile
  have hns := hcompiles.namespaceName
  have hclips := hcompiles.areCompiled
  have hduration := hcompiles.duration_le
  have hnames : s.names = ⟨o.namespaceName⟩ := by rw [← hns]
  obtain ⟨w₀, w₁, hw₀, hload, hruns⟩ := hcompiles.exists_runsOnly hrig
  have hstart : s.InTime o.clips (fun _ => False) w₁ :=
    .of_no_entities hruns (hcompiles.empty_of_load hw₀ hload).1
  refine ⟨w₀, w₁, hw₀, hload, fun w hw root => ?_⟩
  rw [← hnames]
  -- where nothing is demanded, nobody has to be spared
  have hany : s.InTime o.clips (fun _ => False) w :=
    hstart.reaches hns hclips hduration hpos htween hinterp
      (hw.imp fun _ _ hd => ⟨hd, fun _ hdemanded => hdemanded.elim⟩)
  refine ⟨fun hsettled w' hw' hroot => ?_, fun hroot c hc => ⟨fun control hcontrol => ?_, ?_⟩⟩
  · have hown : s.InTime o.clips (· = root) w := hany.demand fun r hr _ hisRoot => by
      subst hr
      exact hsettled hisRoot
    have hlater : s.InTime o.clips (· = root) w' :=
      hown.reaches hns hclips hduration hpos htween hinterp
        (hw'.imp fun _ _ hd => ⟨hd.1, fun _ hr => hr ▸ hd.2⟩)
    exact hlater.isSettled hinterp rfl hroot
  · obtain ⟨w', hrun, hw', hroot'⟩ :=
      hany.settle hns hclips hduration hpos htween hc hcontrol hroot
    exact ⟨w', hrun, hw'.isSettled hinterp (.inr rfl) hroot'⟩
  · obtain ⟨w', hrun, -, -, hzero, hsame⟩ := hany.stop hns hclips hduration hc hroot
    exact ⟨w', hrun, hzero, hsame⟩

namespace Stage

variable {s : Stage} {o : Output} {w : World} {root : Nat} {c : CompiledClip}

/-- A root that was just summoned: no tween is running, and none was asked for. -/
def IsNewborn (s : Stage) (root r : Nat) (sc : Scene) : Prop :=
  sc.IsTimed s True ∧ (r = root → sc.score .tween = some 0 ∧ sc.score .tweenRequest = none)

/-- Where a pack was loaded and nothing else has happened, a root can be summoned. -/
theorem Compiles.exists_newborn (h : s.Compiles o) (hrig : s.rig.IsBuilt) :
    ∃ w₀ w₁ w root, World.ofPack o.pack = .ok w₀ ∧ Run.on World.load w₀ = (.ok (), w₁) ∧
      Run.on (World.summon o.namespaceName) w₁ = (.ok root, w) ∧ w.IsRoot s.names s.config root ∧
      s.Upholds o.clips (s.IsNewborn root) w := by
  obtain ⟨w₀, w₁, hw₀, hload, hruns⟩ := h.exists_runsOnly hrig
  obtain ⟨hentities, hscores⟩ := h.empty_of_load hw₀ hload
  have hpolicy : IsPolicy (s.IsNewborn w₁.entities.size) :=
    ⟨fun h => h.1.root, fun h => h.1.new, fun h => ⟨h.1.keep (.of_eq rfl rfl), h.2⟩⟩
  have hnone : (s.firstScene w₁).score .tweenRequest = none := by
    show w₁.scores[_]? = none
    rw [hscores, Std.HashMap.getElem?_empty]
  have hfirst : s.IsNewborn w₁.entities.size w₁.entities.size
      (Instance.initiated (newInstance hruns.hosts) (s.firstScene w₁)) := by
    refine ⟨Scene.IsTimed.initiated (I := newInstance hruns.hosts) rfl, fun _ => ⟨?_, ?_⟩⟩
    · exact Scene.IsTimed.initiated_score (k := .tween) (fun _ => nofun) (fun _ => nofun) _
    · exact (Scene.IsTimed.initiated_score (k := .tweenRequest) (fun _ => nofun)
        (fun _ => nofun) _).trans
        hnone
  have hempty : s.Upholds o.clips (s.IsNewborn w₁.entities.size) w₁ :=
    .of_no_entities hruns hentities
  obtain ⟨w, hsummon, hw, hroot⟩ := hempty.summon hpolicy hfirst
  rw [h.namespaceName] at hsummon
  exact ⟨w₀, w₁, w, _, hw₀, hload, hsummon, hroot, hw⟩

/-- A tween that is stopped right after it began leaves the interpolation duration behind that it
began with. -/
theorem Compiles.exists_unsettled (h : s.Compiles o) (hrig : s.rig.IsBuilt)
    (hpos : 1 ≤ s.config.tweenDuration) (htween : s.config.tweenDuration ≤ 2147483647)
    (hc : c ∈ o.clips) :
    ∃ w₀ w₁ w₂ w₃ w₄ root, World.ofPack o.pack = .ok w₀ ∧ Run.on World.load w₀ = (.ok (), w₁) ∧
      Run.on (World.summon o.namespaceName) w₁ = (.ok root, w₂) ∧
      Run.on (World.run ((ClipPaths.ofClip o.namespaceName c.clip).control "tween_play")
        (some root))
        w₂ = (.ok (), w₃) ∧
      Run.on (World.run ((ClipPaths.ofClip o.namespaceName c.clip).control "stop") (some root))
        w₃ = (.ok (), w₄) ∧
      w₄.IsRoot s.names s.config root ∧ w₄.score? root s.names.tween = some 0 ∧
      w₄.score? root s.names.interp = some (Int32.ofNat s.config.tweenDuration) := by
  have hns := h.namespaceName
  obtain ⟨w₀, w₁, w₂, root, hw₀, hload, hsummon, hroot, hnewborn⟩ := h.exists_newborn hrig
  -- a tween to the start, from a new instance, leaves the duration at the length of the tween
  let begun (r : Nat) (sc : Scene) : Prop :=
    sc.IsTimed s True ∧ (r = root → sc.score .interp = some (Int32.ofNat s.config.tweenDuration))
  have hpolicy : IsPolicy begun :=
    ⟨fun h => h.1.root, fun h => h.1.new, fun h => ⟨h.1.keep (.of_eq rfl rfl), h.2⟩⟩
  have hbrings : s.Brings o.clips (s.IsNewborn root root) (begun root)
      ((ClipPaths.ofClip s.names.namespaceName c.clip).control "tween_play") :=
    (brings_tweenPlay hc hpos htween).imp (fun _ hsc => ⟨hsc.1, (hsc.2 rfl).2⟩)
      fun _ hsc => ⟨hsc.1, fun _ => hsc.2⟩
  obtain ⟨w₃, hplay, hw₃, hroot₃⟩ := hnewborn.run h.areCompiled h.duration_le hpolicy hbrings
    (fun hne hsc => ⟨hsc.1, fun heq => absurd heq hne⟩) hroot
  obtain ⟨I, sc, hstage, -, rfl, hI, hsc⟩ := hw₃.shows root hroot₃
  have hbegun : w₃.score? I.root s.names.interp = some (Int32.ofNat s.config.tweenDuration) := by
    subst hstage
    exact (hI.score .interp).trans (hsc.2 rfl)
  have htimed : s.InTime o.clips (fun _ => True) w₃ := hw₃.refine fun _ _ _ _ hsc => hsc.1
  -- stopping ends the tween and leaves the duration as it is
  obtain ⟨w₄, hstop, -, hroot₄, hzero, hsame⟩ :=
    htimed.stop hns h.areCompiled h.duration_le hc hroot₃
  rw [hns] at hplay
  exact ⟨w₀, w₁, w₂, w₃, w₄, _, hw₀, hload, hsummon, hplay, hstop, hroot₄, hzero,
    hsame.trans hbegun⟩

end Stage

/-- On a rig without nodes, a root that was just summoned is settled, and so it is when its
animation is played. -/
theorem interp_of_circle : ∃ (rig : Rig) (o : Output) (w₀ w₁ w : World) (root : Nat),
    Rig.build "rig" [] [] = .ok rig ∧ compile rig [circle] {} = .ok o ∧ o.clips ≠ [] ∧
      ({} : Config).tweenDuration ≤ 2147483647 ∧ ({} : Config).interpolationDuration ≤ 2147483647 ∧
      World.ofPack o.pack = .ok w₀ ∧ Run.on World.load w₀ = (.ok (), w₁) ∧
      World.Reaches (fun w d => o.Plays {} w d ∧ o.Spares root w d) w₁ w ∧
      w.IsRoot ⟨o.namespaceName⟩ {} root ∧
      w.score? root (⟨o.namespaceName⟩ : RuntimeNames).tween = some 0 ∧
      w.IsSettled ⟨o.namespaceName⟩ {} root ∧
      ∀ c ∈ o.clips, ∃ w',
      Run.on (World.run ((ClipPaths.ofClip o.namespaceName c.clip).control "play")
        (some root)) w = (.ok (), w') ∧ w'.IsSettled ⟨o.namespaceName⟩ {} root := by
  obtain ⟨o, c, hcompile, hclips, -⟩ :=
    Stage.exists_compile_circle {} rfl (by decide +kernel)
  -- under a name of its own, nothing of the animation is computed
  obtain ⟨a, ha⟩ : ∃ a, a = circle := ⟨_, rfl⟩
  rw [← ha] at hcompile ⊢
  have hbuilt : Stage.nodeless.rig.IsBuilt := ⟨"rig", [], [], rfl⟩
  have hbuild : Rig.build "rig" [] [] = .ok Stage.nodeless.rig := rfl
  obtain ⟨s, hrig, hconfig, hcompiles⟩ := Stage.exists_compiles hbuilt hcompile
  obtain ⟨w₀, w₁, w, root, hw₀, hload, hsummon, hroot, hnewborn⟩ :=
    hcompiles.exists_newborn (hrig ▸ hbuilt)
  obtain ⟨w₀', w₁', hw₀', hload', hinterp⟩ :=
    ((interp_of_compile "rig" [] [] [a] {}).apply hbuild).apply hcompile (by decide) (by decide)
  obtain rfl := Except.ok.inj (hw₀.symm.trans hw₀')
  obtain rfl : w₁ = w₁' := congrArg Prod.snd (hload.symm.trans hload')
  have hdone : Run.on (Deed.summon o.namespaceName).act w₁ = (.ok (), w) := Run.on_bind_ok hsummon
  have hspared : World.Reaches (fun w d => o.Plays {} w d ∧ o.Spares root w d) w₁ w :=
    .single (.inl ⟨.summon o.namespaceName, ⟨rfl, nofun⟩, congrArg Prod.snd hdone.symm⟩)
  have hzero : w.score? root s.names.tween = some 0 := by
    obtain ⟨I, sc, rfl, -, rfl, hI, hsc⟩ := hnewborn.shows root hroot
    exact (hI.score .tween).trans (hsc.2 rfl).1
  have hnames : s.names = ⟨o.namespaceName⟩ := by rw [← hcompiles.namespaceName]
  rw [hnames, hconfig] at hroot
  rw [hnames] at hzero
  have hempty : ∀ root, ¬w₁.IsRoot ⟨o.namespaceName⟩ {} root := by
    rintro root ⟨e, he, -⟩
    rw [World.entity?, (hcompiles.empty_of_load hw₀ hload).1] at he
    cases he
  have hreaches : World.Reaches (o.Plays {}) w₁ w := hspared.imp fun _ _ hd => hd.1
  refine ⟨_, o, w₀, w₁, w, root, hbuild, hcompile, by
    simp [hclips], by decide, by decide, hw₀, hload,
    hspared, hroot, hzero, ?_, fun c hc => ?_⟩
  · exact (hinterp w₁ .refl root).1 (fun hisRoot => absurd hisRoot (hempty root)) w hspared hroot
  · exact ((hinterp w hreaches root).2 hroot c hc).1 "play" (.head _)

/-- On a rig without nodes, stopping an animation right after a tween to its start has begun ends
the tween, but the interpolation duration remains that of the tween, which is ten ticks
and not one. -/
theorem not_isSettled_of_stop :
    ∃ (o : Output) (c : CompiledClip) (w₀ w₁ w₂ w₃ w₄ : World) (root : Nat),
    compile Stage.nodeless.rig [circle] {} = .ok o ∧ c ∈ o.clips ∧
      World.ofPack o.pack = .ok w₀ ∧ Run.on World.load w₀ = (.ok (), w₁) ∧
      Run.on (World.summon o.namespaceName) w₁ = (.ok root, w₂) ∧
      Run.on (World.run ((ClipPaths.ofClip o.namespaceName c.clip).control "tween_play")
        (some root))
        w₂ = (.ok (), w₃) ∧
      Run.on (World.run ((ClipPaths.ofClip o.namespaceName c.clip).control "stop") (some root))
        w₃ = (.ok (), w₄) ∧
      w₄.IsRoot ⟨o.namespaceName⟩ {} root ∧
      w₄.score? root (⟨o.namespaceName⟩ : RuntimeNames).tween = some 0 ∧
      w₄.score? root (⟨o.namespaceName⟩ : RuntimeNames).interp = some 10 ∧
      ¬w₄.IsSettled ⟨o.namespaceName⟩ {} root := by
  obtain ⟨o, c, hcompile, hclips, -⟩ :=
    Stage.exists_compile_circle {} rfl (by decide +kernel)
  obtain ⟨a, ha⟩ : ∃ a, a = circle := ⟨_, rfl⟩
  rw [← ha] at hcompile ⊢
  have hbuilt : Stage.nodeless.rig.IsBuilt := ⟨"rig", [], [], rfl⟩
  have hc : c ∈ o.clips := hclips ▸ List.mem_singleton_self c
  obtain ⟨s, hrig, hconfig, hcompiles⟩ := Stage.exists_compiles hbuilt hcompile
  obtain ⟨w₀, w₁, w₂, w₃, w₄, root, hw₀, hload, hsummon, hplay, hstop, hroot, hzero, hleft⟩ :=
    hcompiles.exists_unsettled (hrig ▸ hbuilt) (by rw [hconfig]; decide)
      (by rw [hconfig]; decide) hc
  have hnames : s.names = ⟨o.namespaceName⟩ := by rw [← hcompiles.namespaceName]
  rw [hnames, hconfig] at hroot
  rw [hnames] at hzero hleft
  rw [hconfig] at hleft
  refine ⟨o, c, w₀, w₁, w₂, w₃, w₄, root, hcompile, hc, hw₀, hload, hsummon, hplay, hstop,
    hroot, hzero, hleft, fun hsettled => ?_⟩
  obtain ⟨ticks, hticks, hone⟩ := hsettled hzero
  obtain rfl := Option.some.inj (hleft.symm.trans hticks)
  exact absurd hone (by decide)

end Marionette
