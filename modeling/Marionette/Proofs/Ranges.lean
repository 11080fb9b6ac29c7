import Marionette.Proofs.Instance.Crowd
import Marionette.Proofs.Outcome

/-!
# Playback state stays in range, whatever callers do

- `Output.Plays`: what callers do to play the animations of a rig.
- `World.IsInRange`: the playback state of a root is in range.
- `ranges_of_compile`: it always is, for everything that is compiled.
-/

namespace Marionette

/-- What callers do to play animations: they let time pass, summon instances, run controls as roots,
and ask for the length of a tween. -/
def Output.Plays (o : Output) (config : Config) (w : World) : Deed → Prop
  | .tick => True
  | .summon namespaceName => namespaceName = o.namespaceName
  | .run path executor =>
    (∃ root, executor = some root ∧ w.IsRoot ⟨o.namespaceName⟩ config root) ∧
      (path = ⟨o.namespaceName, "pause_all"⟩ ∨
        ∃ c ∈ o.clips, ∃ name ∈ ["play", "resume", "pause", "stop", "tween_play", "tween_resume",
          "apply_frame", "set_frame"],
          path = (ClipPaths.ofClip o.namespaceName c.clip).control name)
  | .setScore _ objective _ => objective = (⟨o.namespaceName⟩ : RuntimeNames).tweenRequest
  | .load => False

/-- The playback state of a root is in range: no tween is negative, every animation has its own loop
mode and is at one of its positions, and neither of the tags is there that are removed before a call
ends. -/
structure World.IsInRange (w : World) (v : RuntimeNames) (clips : List CompiledClip) (root : Nat) :
    Prop where
  tween : ∃ ticks, w.score? root v.tween = some ticks ∧ 0 ≤ ticks.toInt
  loopMode : ∀ c ∈ clips,
    w.score? root (v.loopMode c.clip.storageName) = some c.clip.loopMode.score
  localTime : ∀ c ∈ clips, ∃ time, w.score? root (v.localTime c.clip.storageName) = some time ∧
    0 ≤ time.toInt ∧ time.toInt < c.clip.positions
  suppress : w.hasTag root v.suppressTag = false
  new : w.hasTag root v.newTag = false

namespace Stage

variable {s : Stage} {o : Output} {w w' : World} {root : Nat}

/-- What callers do to play animations leaves all roots as asked, if what happens to the root that
is concerned does. -/
theorem Upholds.act {P : Nat → Scene → Prop} (h : s.Upholds o.clips P w) (hP : IsPolicy P)
    (hns : s.names.namespaceName = o.namespaceName) (hclips : AreCompiled o.clips)
    (hduration : ∀ c ∈ o.clips, c.clip.duration ≤ 2147483647)
    (hfirst : P w.entities.size (Instance.initiated (newInstance h.runs.hosts) (s.firstScene w)))
    (htick : ∀ root, s.Brings o.clips (P root) (P root) (s.function "on_tick"))
    (hset : ∀ {root sc value}, P root sc → P root (sc.set .tweenRequest value)) {d : Deed}
    (hd : o.Plays s.config w d)
    (hrun : ∀ path root, d = .run path (some root) → w.IsRoot s.names s.config root →
      s.Upholds o.clips P (Run.on (World.run path (some root)) w).2) :
    s.Upholds o.clips P (Run.on d.act w).2 := by
  have hnames : s.names = ⟨o.namespaceName⟩ := by rw [← hns]
  cases d with
  | load => exact hd.elim
  | tick =>
    obtain ⟨w', hrun, hw'⟩ := h.tick hclips hduration hP htick
    rwa [show Run.on Deed.tick.act w = _ from hrun]
  | run path executor =>
    obtain ⟨⟨root, rfl, hroot⟩, -⟩ := hd
    exact hrun path root rfl (hnames ▸ hroot)
  | summon namespaceName =>
    obtain rfl : namespaceName = s.names.namespaceName := hd.trans hns.symm
    obtain ⟨w', hrun, hw', -⟩ := h.summon hP hfirst
    have hdone : Run.on (Deed.summon s.names.namespaceName).act w = (.ok (), w') :=
      Run.on_bind_ok hrun
    rwa [hdone]
  | setScore id objective value =>
    obtain rfl : objective = s.names.tweenRequest := hd.trans (by rw [hnames])
    have hdone : Run.on (Deed.setScore id s.names.tweenRequest value).act w =
        (.ok (), w.setOwnerScore (.entity id) s.names.tweenRequest value) :=
      Run.on_bind_ok (World.on_requireObjective (h.runs.hasObjective (k := .tweenRequest) trivial))
    rw [hdone]
    exact h.setRequest id value hset

namespace InOrder

/-- What callers do to play animations leaves a world in order. -/
theorem act (h : s.InOrder o.clips w) (hns : s.names.namespaceName = o.namespaceName)
    (hclips : AreCompiled o.clips) (htween : s.config.tweenDuration ≤ 2147483647)
    (hlength : ∀ c ∈ o.clips, c.clip.duration + c.clip.loopDelay ≤ 2147483647) {d : Deed}
    (hd : o.Plays s.config w d) : s.InOrder o.clips (Run.on d.act w).2 := by
  have hduration : ∀ c ∈ o.clips, c.clip.duration ≤ 2147483647 := fun c hc =>
    Nat.le_of_add_right_le (hlength c hc)
  refine Upholds.act h isPolicy_isInRange hns hclips hduration
    (Scene.IsInRange.initiated (I := newInstance h.runs.hosts) hclips.nodup_storageNames rfl rfl)
    (fun _ => isSteady_onTick hlength) (fun hsc => hsc.setFree rfl _) hd ?_
  rintro path root rfl hroot
  have hsteady : s.IsSteady o.clips path := by
    rcases hd.2 with rfl | ⟨c, hc, name, hname, rfl⟩
    · rw [← hns]
      exact isSteady_pauseAll
    · rw [← hns]
      exact isSteady_control hname hc htween
  obtain ⟨w', hrun, hw', -⟩ := h.run hclips hduration isPolicy_isInRange hsteady
    (fun _ hsc => hsc) hroot
  rwa [hrun]

theorem reaches (h : s.InOrder o.clips w) (hns : s.names.namespaceName = o.namespaceName)
    (hclips : AreCompiled o.clips) (htween : s.config.tweenDuration ≤ 2147483647)
    (hlength : ∀ c ∈ o.clips, c.clip.duration + c.clip.loopDelay ≤ 2147483647)
    (hw : World.Reaches (o.Plays s.config) w w') : s.InOrder o.clips w' := by
  induction hw with
  | refl => exact h
  | tail _ hstep ih =>
    obtain ⟨d, hd, rfl⟩ | ⟨answers, rfl⟩ := hstep
    · exact ih.act hns hclips htween hlength hd
    · exact ih.answered answers

theorem isInRange {clips : List CompiledClip} (h : s.InOrder clips w)
    (hlength : ∀ c ∈ clips, c.clip.duration + c.clip.loopDelay ≤ 2147483647)
    (hroot : w.IsRoot s.names s.config root) : w.IsInRange s.names clips root := by
  obtain ⟨I, sc, rfl, rfl, rfl, hI, hsc⟩ := h.shows root hroot
  constructor
  case tween =>
    obtain ⟨ticks, hticks, hpos⟩ := hsc.tween
    exact ⟨ticks, (hI.score .tween).trans hticks, hpos⟩
  case loopMode => exact fun c hc => (hI.score (Instance.modeKey c)).trans (hsc.mode c hc)
  case localTime =>
    intro c hc
    obtain ⟨n, hn, hlt⟩ := hsc.time c hc
    have hle := c.clip.positions_le (hlength c hc)
    refine ⟨_, (hI.score (Instance.timeKey c)).trans hn, ?_⟩
    rw [Int32.toInt_ofNat_of_lt (by omega)]
    omega
  case suppress => exact (hI.hasTag .suppress).trans hsc.suppress
  case new => exact (hI.hasTag .new).trans hsc.new

end InOrder

end Stage

/-- Whatever callers do to play the animations of a rig, in any order and as often as they like, the
playback state of every root is in range, for everything that is compiled whose
lengths are scores. -/
theorem ranges_of_compile (name : String) (nodes : List RigNode) (variants : List Variant)
    (animations : List Animation) (config : Config) :
    Ensures (Rig.build name nodes variants) fun rig =>
      Ensures (compile rig animations config) fun o =>
        config.tweenDuration ≤ 2147483647 →
        (∀ c ∈ o.clips, c.clip.duration + c.clip.loopDelay ≤ 2147483647) →
          ∃ w₀ w₁, World.ofPack o.pack = .ok w₀ ∧ Run.on World.load w₀ = (.ok (), w₁) ∧
            ∀ w, World.Reaches (o.Plays config) w₁ w →
              ∀ root, w.IsRoot ⟨o.namespaceName⟩ config root →
                w.IsInRange ⟨o.namespaceName⟩ o.clips root := by
  refine Ensures.intro fun rig hbuild => Ensures.intro fun o hcompile htween hlength => ?_
  have hrig : rig.IsBuilt := ⟨name, nodes, variants, hbuild⟩
  obtain ⟨s, rfl, rfl, hcompiles⟩ := Stage.exists_compiles hrig hcompile
  have hnames : s.names = ⟨o.namespaceName⟩ := by rw [← hcompiles.namespaceName]
  obtain ⟨w₀, w₁, hw₀, hload, hruns⟩ := hcompiles.exists_runsOnly hrig
  -- at first there are no entities
  have hnone : ∀ i, w₁.entity? i = none := by
    intro i
    rw [World.entity?, (hcompiles.empty_of_load hw₀ hload).1]
    rfl
  have hstart : s.InOrder o.clips w₁ := by
    refine ⟨hruns, fun i => by rw [World.hasTag, hnone]; rfl, fun root hroot => ?_⟩
    obtain ⟨e, he, -⟩ := hroot
    cases (hnone root).symm.trans he
  refine ⟨w₀, w₁, hw₀, hload, fun w hw root hroot => ?_⟩
  rw [← hnames] at hroot ⊢
  exact (hstart.reaches hcompiles.namespaceName hcompiles.areCompiled htween hlength hw).isInRange
    hlength hroot

/-- An animation that goes in a circle of three ticks, one of them its delay. -/
def circle : Animation where
  name := "walk"
  length := 0.1
  loopMode := .loop
  loopDelay := 0.05

/-- On a rig without nodes, the circle is compiled under all settings that it can
be sampled with. -/
theorem Stage.exists_compile_circle (config : Config) (hcheck : config.check = .ok ())
    (hsampled : ((sample nodeless.rig circle config ⟨"walk", "walk"⟩).toOption.any fun r =>
      decide (r.1.duration + r.1.loopDelay ≤ 2147483647)) = true) :
    ∃ o c, compile nodeless.rig [circle] config = .ok o ∧ o.clips = [c] ∧
      c.clip.duration + c.clip.loopDelay ≤ 2147483647 := by
  obtain ⟨r, hr, hlength⟩ := exists_ok_of_any hsampled
  have hbuilt : nodeless.rig.IsBuilt := ⟨"rig", [], [], rfl⟩
  have hrest : restPoses nodeless.rig config = .ok [] := rfl
  have hforall : List.Forall₂ (fun p r => sample nodeless.rig p.1 config p.2 = .ok r)
      ([circle].zip (allocateClipNames {} {} [circle]).1) [r] := .cons hr .nil
  obtain ⟨o, hcompile, hclips⟩ :=
    exists_compile hbuilt hcheck hrest (fun b hb => nomatch hb) hforall
  exact ⟨o, _, hcompile, hclips, of_decide_eq_true hlength⟩

/-- On a rig without nodes, a root that was just summoned is in range. -/
theorem ranges_of_circle : ∃ (rig : Rig) (o : Output) (w₀ w₁ w : World) (root : Nat),
    Rig.build "rig" [] [] = .ok rig ∧ compile rig [circle] {} = .ok o ∧ o.clips ≠ [] ∧
      ({} : Config).tweenDuration ≤ 2147483647 ∧
      (∀ c ∈ o.clips, c.clip.duration + c.clip.loopDelay ≤ 2147483647) ∧
      World.ofPack o.pack = .ok w₀ ∧ Run.on World.load w₀ = (.ok (), w₁) ∧
      World.Reaches (o.Plays {}) w₁ w ∧ w.IsRoot ⟨o.namespaceName⟩ {} root ∧
      w.IsInRange ⟨o.namespaceName⟩ o.clips root := by
  have hsampled : ((sample Stage.nodeless.rig circle {} ⟨"walk", "walk"⟩).toOption.any fun r =>
      decide (r.1.duration + r.1.loopDelay ≤ 2147483647)) = true := by
    decide +kernel
  cases hr : sample Stage.nodeless.rig circle {} ⟨"walk", "walk"⟩ with
  | error e =>
    rw [hr] at hsampled
    cases hsampled
  | ok r =>
    rw [hr] at hsampled
    have hbuilt : Stage.nodeless.rig.IsBuilt := ⟨"rig", [], [], rfl⟩
    have hrest : restPoses Stage.nodeless.rig {} = .ok [] := rfl
    have hforall : List.Forall₂ (fun p r => sample Stage.nodeless.rig p.1 {} p.2 = .ok r)
        ([circle].zip (allocateClipNames {} {} [circle]).1) [r] := .cons hr .nil
    obtain ⟨o, hcompile, hclips⟩ := Stage.exists_compile hbuilt rfl hrest
      (fun b hb => nomatch hb) hforall
    have hlength : ∀ c ∈ o.clips, c.clip.duration + c.clip.loopDelay ≤ 2147483647 := by
      intro c hc
      rw [hclips] at hc
      rw [List.mem_singleton.1 hc]
      exact of_decide_eq_true hsampled
    have htween : ({} : Config).tweenDuration ≤ 2147483647 := by decide
    have hbuild : Rig.build "rig" [] [] = .ok Stage.nodeless.rig := rfl
    -- under a name of its own, nothing of the animation is computed
    obtain ⟨a, ha⟩ : ∃ a, a = circle := ⟨_, rfl⟩
    rw [← ha] at hcompile
    obtain ⟨w₀, w₁, hw₀, hload, hranges⟩ :=
      ((ranges_of_compile "rig" [] [] [a] {}).apply hbuild).apply hcompile htween hlength
    -- the root that is summoned first
    obtain ⟨s, hrig, hconfig, hcompiles⟩ := Stage.exists_compiles hbuilt hcompile
    have hnames : s.names = ⟨o.namespaceName⟩ := by rw [← hcompiles.namespaceName]
    obtain ⟨w₀', w₁', hw₀', hload', hruns⟩ := hcompiles.exists_runsOnly (hrig ▸ hbuilt)
    obtain rfl := Except.ok.inj (hw₀.symm.trans hw₀')
    obtain rfl : w₁ = w₁' := congrArg Prod.snd (hload.symm.trans hload')
    obtain ⟨root, w, hsummon, -, -, hfirst⟩ := hcompiles.exists_instance hw₀ hload hruns
    have hroot := hfirst.isRoot
    have hdone : Run.on (Deed.summon s.names.namespaceName).act w₁ = (.ok (), w) :=
      Run.on_bind_ok hsummon
    have hreaches : World.Reaches (o.Plays {}) w₁ w :=
      .single (.inl ⟨.summon s.names.namespaceName, hcompiles.namespaceName,
        congrArg Prod.snd hdone.symm⟩)
    rw [hnames, hconfig] at hroot
    exact ⟨_, o, w₀, w₁, w, root, hbuild, ha ▸ hcompile, by
      simp [hclips], htween, hlength, hw₀, hload,
      hreaches, hroot, hranges w hreaches root hroot⟩

end Marionette
