import Marionette.Proofs.Instance.Alike
import Marionette.Proofs.Blending

/-!
# Pausing and going on

A break of an animation leaves no trace: after as many ticks as without it, the animation stands
where it would, its nodes are where they would be, and the same commands were recorded.

- `World.pauseFor`, `World.playWithBreak`: what callers do to a root.
- `World.AdvancesAlone`: no other animation advances, on no root.
- `World.EndsAlike`: what two worlds agree on.
- `Populates.pauseFor`: a break leaves the scene of an instance as it is, but for its age and the
  way its nodes blend.
- `Populates.playWithBreak`: playing with a break and without it end alike.
- `breaks_of_compile`: the same for everything that is compiled.
-/

namespace Marionette

namespace World

/-- Pauses an animation while ticks pass, and goes on. -/
def pauseFor (v : RuntimeNames) (c : CompiledClip) (root count : Nat) : Run Unit := do
  run ((ClipPaths.ofClip v.namespaceName c.clip).control "pause") (some root)
  ticks count
  run ((ClipPaths.ofClip v.namespaceName c.clip).control "resume") (some root)

/-- Plays an animation with a break. -/
def playWithBreak (v : RuntimeNames) (c : CompiledClip) (root before pause after : Nat) :
    Run Unit := do
  playFor v c root before
  pauseFor v c root pause
  ticks after

/-- Of all animations on all roots, at most one of this root advances. -/
def AdvancesAlone (w : World) (v : RuntimeNames) (config : Config) (clips : List CompiledClip)
    (root : Nat) (c : CompiledClip) : Prop :=
  ∀ r, w.IsRoot v config r → ∀ c' ∈ clips, r ≠ root ∨ c'.clip.storageName ≠ c.clip.storageName →
    (w.standing v r c').playing = false

/-- In both worlds an animation of a root stands at the same tick, the same entities ride the root
and are in the same places, and the same commands were recorded. -/
structure EndsAlike (w w' : World) (v : RuntimeNames) (root : Nat) (c : CompiledClip) : Prop where
  standing : w'.standing v root c = w.standing v root c
  carries : ∀ id, w'.Carries root id ↔ w.Carries root id
  place : ∀ id, w.Carries root id → w'.place? id = w.place? id
  output : w'.output = w.output

end World

namespace Instance

variable {I : Instance} {w w' : World} {sc sc' : Scene} {c : CompiledClip}

theorem Shows.place?_eq (h : I.Shows w sc) {r : Nat} (hr : r ∈ I.riders) :
    w.place? r = some (placeOf sc r) := by
  obtain ⟨e, he, hshown⟩ := h.riders r hr
  rw [World.place?, he, Option.map_some, hshown.look, placeOf]

/-- Where scenes are alike, so are the worlds. -/
theorem Alike.endsAlike (h : Alike sc sc') (hI : I.Shows w sc) (hI' : I.Shows w' sc') :
    w.EndsAlike w' I.stage.names I.root c where
  standing := by
    rw [hI.standing_eq, hI'.standing_eq, standing, standing, h.time, h.mode, h.tagged]
  carries id := (hI'.carries_iff id).trans (hI.carries_iff id).symm
  place id hid := by
    have hr := (hI.carries_iff id).1 hid
    rw [hI.place?_eq hr, hI'.place?_eq hr, h.place id]
  output := by rw [← Array.toList_inj, hI.output, hI'.output, h.output]

end Instance

namespace Stage

open Instance (onTicked playingKey IsAlone Alike)

namespace Populates

variable {s : Stage} {clips : List CompiledClip} {I : Instance} {w : World} {sc : Scene}
    {root : Nat}
  {c : CompiledClip}

/-- A break of an animation that advances alone leads to a scene that is alike. -/
theorem pauseFor (h : I.stage.Populates I.clips w) (hI : I.Shows w sc)
    (hroot : sc.tagged .root = true) (hrest : I.OthersRest w) (hc : c ∈ I.clips)
    (halone : I.IsAlone c sc) (hplaying : sc.tagged (playingKey c) = true) (m : Nat) :
    ∃ w' sc', Run.on (World.pauseFor I.stage.names c I.root m) w = (.ok (), w') ∧
      I.stage.Populates I.clips w' ∧ I.OthersRest w' ∧ I.Shows w' sc' ∧ Alike sc sc' := by
  let still := sc.untag (playingKey c)
  have hstill : still.tagged .root = true := by simp [still, playingKey, hroot]
  obtain ⟨w₁, hpause, hreach₁, h₁⟩ := h.run hI (by decide) (Instance.Takes.pause hc)
  obtain ⟨w₂, hticks, h₂, hrest₂, hI₂⟩ := h₁.ticks_alone hreach₁.1 hstill (hrest.reach hreach₁) m
  obtain ⟨w₃, hresume, hreach₃, h₃⟩ := h₂.run hI₂ (by decide)
    (Instance.Takes.resume ((h.isAble hI).runs hc))
  exact ⟨w₃, _, (Run.on_bind_ok hpause).trans ((Run.on_bind_ok hticks).trans hresume), h₃,
    hrest₂.reach hreach₃, hreach₃.1, Instance.alike_of_break halone hplaying m⟩

/-- Where an animation is still playing after some ticks, a break at this tick leaves no trace. -/
theorem playWithBreak (h : s.Populates clips w) (hroot : w.IsRoot s.names s.config root)
    (hc : c ∈ clips) (halone : w.AdvancesAlone s.names s.config clips root c) (k : Nat) :
    ∃ wₖ, Run.on (World.playFor s.names c root k) w = (.ok (), wₖ) ∧
      ((wₖ.standing s.names root c).playing = true → ∀ m n, ∃ w₁ w₂,
        Run.on (World.playFor s.names c root (k + n)) w = (.ok (), w₁) ∧
        Run.on (World.playWithBreak s.names c root k m n) w = (.ok (), w₂) ∧
        w₁.EndsAlike w₂ s.names root c) := by
  obtain ⟨I, sc, rfl, rfl, rfl, hI, htagged⟩ := h.exists_shows hroot
  have hable := h.isAble hI
  have hothers : ∀ c' ∈ I.clips, c'.clip.storageName ≠ c.clip.storageName →
      sc.tagged (playingKey c') = false := by
    intro c' hc' hne
    have hidle := halone I.root hroot c' hc' (.inr hne)
    rwa [hI.standing_eq] at hidle
  have hrest : I.OthersRest w := fun r hne hr c' hc' => halone r hr c' hc' (.inl hne)
  -- the ticks before the break
  let start := Instance.played I c sc
  have hstart : start.tagged .root = true := by simp [start, Instance.played, htagged]
  obtain ⟨u, hplay, hreach, hu⟩ := h.run hI (by decide) (Instance.Takes.play (hable.runs hc))
  have hrestu := hrest.reach hreach
  obtain ⟨wₖ, hticks, hₖ, hrestₖ, hIₖ⟩ := hu.ticks_alone hreach.1 hstart hrestu k
  have hplayFor : Run.on (World.playFor I.stage.names c I.root k) w = (.ok (), wₖ) :=
    (Run.on_bind_ok hplay).trans hticks
  refine ⟨wₖ, hplayFor, fun hplaying m n => ?_⟩
  rw [hIₖ.standing_eq] at hplaying
  -- without a break
  obtain ⟨w₁, hticks₁, -, -, hI₁⟩ := hu.ticks_alone hreach.1 hstart hrestu (k + n)
  rw [Nat.add_comm k n, Function.iterate_add_apply] at hI₁
  -- with a break
  have hrootₖ : ((onTicked I)^[k] start).tagged .root = true :=
    (Instance.ticks_root start k).trans hstart
  have hsingle := (IsAlone.played (I := I) hothers).ticks hc (hable.duration_le c hc)
    hable.areCompiled.nodup_storageNames k
  obtain ⟨w₂, sc₂, hbreak, h₂, hrest₂, hI₂, halike⟩ := hₖ.pauseFor hIₖ hrootₖ hrestₖ hc
    hsingle hplaying m
  have hroot₂ : sc₂.tagged .root = true := (congrFun halike.tagged .root).trans hrootₖ
  obtain ⟨w₃, hticks₃, -, -, hI₃⟩ := h₂.ticks_alone hI₂ hroot₂ hrest₂ n
  exact ⟨w₁, w₃, (Run.on_bind_ok hplay).trans hticks₁,
    (Run.on_bind_ok hplayFor).trans ((Run.on_bind_ok hbreak).trans hticks₃),
    (halike.ticks n).endsAlike hI₁ hI₃⟩

end Populates

end Stage

/-- In every world that callers can reach in which no other animation advances, and on every root, a
break of an animation that is still playing leaves no trace, whenever it begins, however long it is
and however many ticks follow, for everything that is compiled. -/
theorem breaks_of_compile (name : String) (nodes : List RigNode) (variants : List Variant)
    (animations : List Animation) (config : Config) :
    Ensures (Rig.build name nodes variants) fun rig =>
      Ensures (compile rig animations config) fun o =>
        ∃ w₀ w₁, World.ofPack o.pack = .ok w₀ ∧ Run.on World.load w₀ = (.ok (), w₁) ∧
          ∀ w, World.Reaches o.Offers w₁ w →
            ∀ root, w.IsRoot ⟨o.namespaceName⟩ config root → ∀ c ∈ o.clips,
              w.AdvancesAlone ⟨o.namespaceName⟩ config o.clips root c →
                ∀ k, ∃ wₖ, Run.on (World.playFor ⟨o.namespaceName⟩ c root k) w = (.ok (), wₖ) ∧
                  ((wₖ.standing ⟨o.namespaceName⟩ root c).playing = true → ∀ m n, ∃ w₁ w₂,
                    Run.on (World.playFor ⟨o.namespaceName⟩ c root (k + n)) w = (.ok (), w₁) ∧
                    Run.on (World.playWithBreak ⟨o.namespaceName⟩ c root k m n) w = (.ok (), w₂) ∧
                    w₁.EndsAlike w₂ ⟨o.namespaceName⟩ root c) := by
  refine Ensures.intro fun rig hbuild => Ensures.intro fun o hcompile => ?_
  have hrig : rig.IsBuilt := ⟨name, nodes, variants, hbuild⟩
  obtain ⟨s, rfl, rfl, hcompiles⟩ := Stage.exists_compiles hrig hcompile
  have hnames : s.names = ⟨o.namespaceName⟩ := by rw [← hcompiles.namespaceName]
  obtain ⟨w₀, w₁, hw₀, hload, -⟩ := hcompiles.exists_runsOnly hrig
  refine ⟨w₀, w₁, hw₀, hload, fun w hw root hroot c hc halone => ?_⟩
  rw [← hnames] at hroot halone ⊢
  exact (hcompiles.populates hrig hw₀ hload hw).playWithBreak hroot hc halone

/-- So it is for a bone that jolts, on a root that was just summoned, with a break before its last
tick. -/
theorem breaks_of_jolt : ∃ (o : Output) (c : CompiledClip) (w₀ w₁ w w' : World) (root : Nat),
    Rig.build "mast" [⟨⟨1⟩, "mast", none, .bone none, { origin := .zero }⟩] [] = .ok (mast .zero) ∧
    compile (mast .zero) [jolt] {} = .ok o ∧ o.clips = [c] ∧ World.ofPack o.pack = .ok w₀ ∧
    Run.on World.load w₀ = (.ok (), w₁) ∧ World.Reaches o.Offers w₁ w ∧
    w.IsRoot ⟨o.namespaceName⟩ {} root ∧ w.AdvancesAlone ⟨o.namespaceName⟩ {} o.clips root c ∧
    Run.on (World.playFor ⟨o.namespaceName⟩ c root 1) w = (.ok (), w') ∧
    (w'.standing ⟨o.namespaceName⟩ root c).playing = true ∧
    ∀ m n, ∃ w₁ w₂, Run.on (World.playFor ⟨o.namespaceName⟩ c root (1 + n)) w = (.ok (), w₁) ∧
      Run.on (World.playWithBreak ⟨o.namespaceName⟩ c root 1 m n) w = (.ok (), w₂) ∧
      w₁.EndsAlike w₂ ⟨o.namespaceName⟩ root c := by
  obtain ⟨s, o, c, w₀, w₁, w, root, -, -, hcompile, hclips, hjolt, hrig, hconfig, hcompiles,
    hw₀, hload, hw, hnew, -⟩ := exists_summoned_jolt
  have hns := hcompiles.namespaceName
  have hnames : s.names = ⟨o.namespaceName⟩ := by rw [← hns]
  have hc : c ∈ o.clips := hclips ▸ List.mem_singleton_self c
  have hroot := hnew.isRoot
  have halone : w.AdvancesAlone s.names s.config o.clips root c := by
    intro r hr c' hc' _
    obtain rfl := hnew.only r hr
    exact hnew.idle c' hc'
  -- it is still playing after the first tick
  obtain ⟨u, hplay, hstarts, hticks⟩ :=
    hcompiles.blends (hrig ▸ isBuilt_mast .zero) hw₀ hload hw hroot hc
    ⟨_, hnew.mode c hc⟩ (others_of_singleton hclips) (.inl rfl)
  obtain ⟨u', w', hzero, hfirst, hblends⟩ := hticks 0
  obtain rfl : u = u' := congrArg Prod.snd hzero
  have hplaying : (w'.standing s.names root c).playing = true := by
    rw [hblends.advances, hstarts.standing, Standing.started, Standing.next, Clip.advance,
      hjolt.duration]
    rfl
  have hrun : Run.on (World.playFor s.names c root 1) w = (.ok (), w') :=
    (Run.on_bind_ok hplay).trans (Run.on_bind_ok hfirst)
  rw [hnames] at hrun hplaying
  rw [hnames, hconfig] at hroot halone
  have hbuild := build_mast .zero
  -- under names of their own, nothing of the rig and the animation is computed
  generalize mast .zero = rig at hcompile hbuild ⊢
  generalize jolt = a at hcompile ⊢
  obtain ⟨w₀', w₁', hw₀', hload', hbreaks⟩ :=
    ((breaks_of_compile "mast" _ [] [a] {}).apply hbuild).apply hcompile
  obtain rfl := Stage.eq_of_load hw₀ hload hw₀' hload'
  obtain ⟨wₖ, hrunₖ, hends⟩ := hbreaks w hw root hroot c hc halone 1
  obtain rfl : w' = wₖ := congrArg Prod.snd (hrun.symm.trans hrunₖ)
  exact ⟨o, c, w₀, w₁, w, w', root, hbuild, hcompile, hclips, hw₀, hload, hw, hroot, halone,
    hrun, hplaying, hends hplaying⟩

end Marionette
