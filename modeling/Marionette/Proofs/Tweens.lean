import Marionette.Proofs.Instance.Company
import Marionette.Proofs.Instance.Tweens
import Marionette.Proofs.Interpolation

/-!
# The timeline of a tween, whatever was before

- `World.standing`: where an animation of a root stands.
- `World.IsTweening`, `World.IsTweeningTo`: so many ticks of a tween of a root are left.
- `World.BeginsTween`: a tween begins, is counted down and comes to its end.
- `Populates.tweenPlay`: a tween to the start of an animation and its ticks, one by one.
- `tweens_of_compile`: the same for everything that is compiled.
-/

namespace Marionette

namespace World

/-- Where an animation of a root stands. -/
def standing (w : World) (v : RuntimeNames) (root : Nat) (c : CompiledClip) : Standing where
  time := w.score? root (v.localTime c.clip.storageName)
  mode := w.score? root (v.loopMode c.clip.storageName)
  playing := w.hasTag root (v.playingTag c.clip.storageName)

/-- So many ticks of a tween of the root are left, which its interpolation follows; when none is
left it is as configured. -/
structure IsTweening (w : World) (v : RuntimeNames) (config : Config) (root left : Nat) : Prop where
  tween : (w.score? root v.tween).map Int32.toInt = some (left : Int)
  interp : (w.score? root v.interp).map Int32.toInt =
    some ((if left = 0 then config.interpolationDuration else left : Nat) : Int)
  request : w.score? root v.tweenRequest = none

/-- In this world so many ticks of a tween to the start of an animation are left.  The animation is
playing and stands at its start, and all others stand where they stood in another world. -/
structure IsTweeningTo (w : World) (v : RuntimeNames) (config : Config) (root left : Nat)
    (clips : List CompiledClip) (c : CompiledClip) (before : World) : Prop
    extends w.IsTweening v config root left where
  own : w.standing v root c = { before.standing v root c with time := some 0, playing := true }
  others : ∀ c' ∈ clips, c'.clip.storageName ≠ c.clip.storageName →
    w.standing v root c' = before.standing v root c'

/-- Right after a tween to the start of an animation has begun: it is counted down tick by tick
while no animation advances, and at the tick after the last one, all animations that
are playing do. -/
structure BeginsTween (w : World) (v : RuntimeNames) (config : Config) (root : Nat)
    (clips : List CompiledClip) (c : CompiledClip) (before : World) : Prop where
  counts : ∀ k ≤ config.tweenLength (before.score? root v.tweenRequest), ∃ wₖ,
    Run.on (ticks k) w = (.ok (), wₖ) ∧ wₖ.IsTweeningTo v config root
      (config.tweenLength (before.score? root v.tweenRequest) - k) clips c before
  advances : ∃ w₁ w₂,
    Run.on (ticks (config.tweenLength (before.score? root v.tweenRequest))) w = (.ok (), w₁) ∧
    Run.on tick w₁ = (.ok (), w₂) ∧
    ∀ c' ∈ clips, w₂.standing v root c' = (w₁.standing v root c').next c'.clip

end World

/-- Where an animation of an instance stands shows in the world. -/
theorem Instance.Shows.standing_eq {I : Instance} {w : World} {sc : Scene} (h : I.Shows w sc)
    (c : CompiledClip) : w.standing I.stage.names I.root c = standing c sc := by
  have htime := h.score (timeKey c)
  have hmode := h.score (modeKey c)
  have hplaying := h.hasTag (playingKey c)
  unfold World.standing standing
  rw [← htime, ← hmode, ← hplaying]
  rfl

namespace Stage

open Instance (stoodFor)

variable {s : Stage} {clips : List CompiledClip} {w : World} {root : Nat} {c : CompiledClip}

/-- A tween to the start of an animation begins, and is counted down tick by tick while all
animations stand still.  The tick after the last one, they go on. -/
theorem Populates.tweenPlay (h : s.Populates clips w) (hpos : 1 ≤ s.config.tweenDuration)
    (hle : s.config.tweenDuration ≤ 2147483647)
    (hinterp : s.config.interpolationDuration ≤ 2147483647) (hroot : w.IsRoot s.names s.config root)
    (hc : c ∈ clips) :
    ∃ w', Run.on (World.run ((ClipPaths.ofClip s.names.namespaceName c.clip).control "tween_play")
        (some root)) w = (.ok (), w') ∧ w'.BeginsTween s.names s.config root clips c w := by
  obtain ⟨I, sc, rfl, rfl, rfl, hI, htagged⟩ := h.exists_shows hroot
  obtain ⟨w', hrun, hreach, h'⟩ :=
    h.run hI (by decide) (Instance.Takes.tweenPlay ((h.isAble hI).runs hc))
  have hrequest : w.score? I.root I.stage.names.tweenRequest = sc.score .tweenRequest :=
    hI.score .tweenRequest
  have hstart := Instance.Tweens.played (c := c) htagged hpos
  rw [← hrequest] at hstart
  have hlength := Config.tweenLength_le hle (w.score? I.root I.stage.names.tweenRequest)
  let length := I.stage.config.tweenLength (w.score? I.root I.stage.names.tweenRequest)
  -- after each tick the scene has one tick less to go
  have hticks : ∀ k ≤ length, ∃ wₖ scₖ, Run.on (World.ticks k) w' = (.ok (), wₖ) ∧
      I.stage.Populates I.clips wₖ ∧ I.Shows wₖ scₖ ∧
      I.Tweens (stoodFor c sc) (length - k) scₖ := by
    intro k hk
    refine h'.ticks (P := fun k scₖ => I.Tweens (stoodFor c sc) (length - k) scₖ) hreach.1
      hstart (·.root)
      (·.said _) fun {k' _} hk' hsc => ?_
    rw [show length - k' = length - (k' + 1) + 1 by omega] at hsc
    exact hsc.onTicked (by omega)
  refine ⟨w', hrun, fun k hk => ?_, ?_⟩
  · obtain ⟨wₖ, scₖ, hrunₖ, -, hIₖ, hscₖ⟩ := hticks k hk
    have hstands : ∀ c' ∈ I.clips, wₖ.standing I.stage.names I.root c' = stoodFor c sc c' :=
      fun c' hc' => (hIₖ.standing_eq c').trans (hscₖ.stands c' hc')
    refine ⟨wₖ, hrunₖ, ⟨?_, ?_, (hIₖ.score .tweenRequest).trans hscₖ.request⟩, ?_,
      fun c' hc' hne => ?_⟩
    · have htween : wₖ.score? I.root I.stage.names.tween = some (Int32.ofNat (length - k)) :=
        (hIₖ.score .tween).trans hscₖ.tween
      rw [htween, Option.map_some, Int32.toInt_ofNat_of_lt (by omega)]
    · have hscore : wₖ.score? I.root I.stage.names.interp = _ :=
        (hIₖ.score .interp).trans hscₖ.interp
      rw [hscore, defaultInterp, ← apply_ite Int32.ofNat, Option.map_some,
        Int32.toInt_ofNat_of_lt (by split <;> omega)]
    · rw [hstands c hc, stoodFor, if_pos rfl, hI.standing_eq]
    · rw [hstands c' hc', stoodFor, if_neg hne, hI.standing_eq]
  · obtain ⟨w₁, sc₁, hrun₁, h₁, hI₁, hsc₁⟩ := hticks length (Nat.le_refl _)
    obtain ⟨w₂, said, htick, -, hI₂, -⟩ := h₁.tick hI₁ hsc₁.root
    rw [Nat.sub_self] at hsc₁
    refine ⟨w₁, w₂, hrun₁, htick, fun c' hc' => ?_⟩
    rw [hI₁.standing_eq, hI₂.standing_eq, hsc₁.stands c' hc']
    exact (hsc₁.said said).standing_onTicked (h.isAble hI) hc'

end Stage

/-- In every world that callers can reach and on every root, whatever is playing on it and whatever
length was asked for, `tween_play` begins a tween to the start of an animation, for everything that
is compiled whose durations are scores. -/
theorem tweens_of_compile (name : String) (nodes : List RigNode) (variants : List Variant)
    (animations : List Animation) (config : Config) :
    Ensures (Rig.build name nodes variants) fun rig =>
      Ensures (compile rig animations config) fun o =>
        config.tweenDuration ≤ 2147483647 → config.interpolationDuration ≤ 2147483647 →
          ∃ w₀ w₁, World.ofPack o.pack = .ok w₀ ∧ Run.on World.load w₀ = (.ok (), w₁) ∧
            ∀ w, World.Reaches o.Offers w₁ w →
              ∀ root, w.IsRoot ⟨o.namespaceName⟩ config root → ∀ c ∈ o.clips,
                ∃ w', Run.on
                  (World.run ((ClipPaths.ofClip o.namespaceName c.clip).control "tween_play")
                    (some root)) w = (.ok (), w') ∧
                  w'.BeginsTween ⟨o.namespaceName⟩ config root o.clips c w := by
  refine Ensures.intro fun rig hbuild => Ensures.intro fun o hcompile htween hinterp => ?_
  have hrig : rig.IsBuilt := ⟨name, nodes, variants, hbuild⟩
  obtain ⟨-, -, hcheck, -⟩ := Stage.exists_compileClips_of_compile hcompile
  have hpos : 1 ≤ config.tweenDuration := (Config.bounds_of_check hcheck).1
  obtain ⟨s, rfl, rfl, hcompiles⟩ := Stage.exists_compiles hrig hcompile
  have hns := hcompiles.namespaceName
  have hnames : s.names = ⟨o.namespaceName⟩ := by rw [← hns]
  obtain ⟨w₀, w₁, hw₀, hload, -⟩ := hcompiles.exists_runsOnly hrig
  refine ⟨w₀, w₁, hw₀, hload, fun w hw root hroot c hc => ?_⟩
  rw [← hnames] at hroot ⊢
  rw [← hns]
  exact (hcompiles.populates hrig hw₀ hload hw).tweenPlay hpos htween hinterp hroot hc

/-- On a rig without nodes, a root that was just summoned begins a tween of ten ticks. -/
theorem tweens_of_circle :
    ∃ (rig : Rig) (o : Output) (w₀ w₁ w w' : World) (root : Nat) (c : CompiledClip),
    Rig.build "rig" [] [] = .ok rig ∧ compile rig [circle] {} = .ok o ∧ c ∈ o.clips ∧
      ({} : Config).tweenDuration ≤ 2147483647 ∧ ({} : Config).interpolationDuration ≤ 2147483647 ∧
      World.ofPack o.pack = .ok w₀ ∧ Run.on World.load w₀ = (.ok (), w₁) ∧
      World.Reaches o.Offers w₁ w ∧ w.IsRoot ⟨o.namespaceName⟩ {} root ∧
      ({} : Config).tweenLength
      (w.score? root (⟨o.namespaceName⟩ : RuntimeNames).tweenRequest) = 10 ∧
      Run.on (World.run ((ClipPaths.ofClip o.namespaceName c.clip).control "tween_play")
        (some root)) w =
        (.ok (), w') ∧
      w'.BeginsTween ⟨o.namespaceName⟩ {} root o.clips c w := by
  obtain ⟨o, c, hcompile, hclips, -⟩ := Stage.exists_compile_circle {} rfl (by decide +kernel)
  -- under a name of its own, nothing of the animation is computed
  obtain ⟨a, ha⟩ : ∃ a, a = circle := ⟨_, rfl⟩
  rw [← ha] at hcompile ⊢
  have hbuilt : Stage.nodeless.rig.IsBuilt := ⟨"rig", [], [], rfl⟩
  have hbuild : Rig.build "rig" [] [] = .ok Stage.nodeless.rig := rfl
  have hc : c ∈ o.clips := hclips ▸ List.mem_singleton_self c
  obtain ⟨s, hrig, hconfig, hcompiles⟩ := Stage.exists_compiles hbuilt hcompile
  obtain ⟨w₀, w₁, w, root, hw₀, hload, hsummon, hroot, hnewborn⟩ :=
    hcompiles.exists_newborn (hrig ▸ hbuilt)
  obtain ⟨w₀', w₁', hw₀', hload', htweens⟩ :=
    ((tweens_of_compile "rig" [] [] [a] {}).apply hbuild).apply hcompile (by decide) (by decide)
  obtain rfl := Stage.eq_of_load hw₀ hload hw₀' hload'
  have hdone : Run.on (Deed.summon o.namespaceName).act w₁ = (.ok (), w) := Run.on_bind_ok hsummon
  have hreaches : World.Reaches o.Offers w₁ w :=
    .single (.inl ⟨.summon o.namespaceName, rfl, congrArg Prod.snd hdone.symm⟩)
  have hnone : w.score? root s.names.tweenRequest = none := by
    obtain ⟨I, sc, rfl, -, rfl, hI, hsc⟩ := hnewborn.shows root hroot
    exact (hI.score .tweenRequest).trans (hsc.2 rfl).2
  have hnames : s.names = ⟨o.namespaceName⟩ := by rw [← hcompiles.namespaceName]
  rw [hnames, hconfig] at hroot
  rw [hnames] at hnone
  obtain ⟨w', hrun, hbegins⟩ := htweens w hreaches root hroot c hc
  exact ⟨_, o, w₀, w₁, w, w', root, c, hbuild, hcompile, hc, by
    decide, by decide, hw₀, hload, hreaches,
    hroot, by rw [hnone]; rfl, hrun, hbegins⟩

end Marionette
