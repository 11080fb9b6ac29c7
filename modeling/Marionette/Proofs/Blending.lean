import Marionette.Proofs.Instance.Blending
import Marionette.Proofs.Seeking
import Marionette.Proofs.Tweens
import Marionette.Proofs.Writing

/-!
# Poses that snap and poses that blend

After a tick, the interpolation duration of a node with a pose in the frame of the tick should be
zero if the pose is taken at once, and else as configured.  So it is while an animation goes on,
also where it starts again.  An animation that is played once returns to its first frame and stops;
then a node whose latest pose was taken at once is not set back.

- `World.ShowsTick`: a tick of the world applies the frame of a tick of an animation.
- `World.IsBlended`: the nodes have the durations that belong to their poses.
- `World.Blends`: what a tick of the world does to the durations.
- `Populates.blends`: all ticks of an animation that advances alone do so.
- `blends_of_compile`: the same for everything that is compiled.
- `not_isBlended_jolt`: the durations do not always belong to the poses at the end.
-/

namespace Marionette

/-- Where an animation stands after it was started. -/
def Standing.started (p : Standing) (control : String) : Standing :=
  { p with time := if control = "play" then some 0 else p.time, playing := true }

namespace World

/-- The interpolation duration of an entity. -/
def interpolation? (w : World) (id : Nat) : Option Datum :=
  (w.entity? id).bind fun e => e.look.interp

/-- From one world to the next, an animation of the root has applied the frame of a tick, where it
has one: the animation was playing, and it goes on, or it is played once and has returned to its
first tick. -/
structure ShowsTick (w₁ w₂ : World) (v : RuntimeNames) (root : Nat) (c : CompiledClip)
    (tick : Nat) :
    Prop where
  playing : (w₁.standing v root c).playing = true
  time : (w₂.standing v root c).time.map Int32.toInt = some (tick : Int)
  stays : (w₂.standing v root c).playing = true ∨
    (w₁.standing v root c).mode = some LoopMode.once.score

/-- The node is written as a matrix, and of the passengers of the root this is its entity. -/
structure IsMatrixBody (w : World) (v : RuntimeNames) (rig : Rig) (root : Nat) (slot : Slot)
    (id : Nat) : Prop
    extends w.IsBody v rig root slot id where
  mem : slot ∈ rig.slots.toList
  isMatrix : slot.node.kind.isMatrix = true

/-- The interpolation duration of an entity is zero if a pose is taken at once, and else as
configured. -/
def BlendsTo (w : World) (config : Config) (id : Nat) (pose : Pose) : Prop :=
  w.interpolation? id =
    some (.int (if pose.marker.isInstant then 0 else Int32.ofNat config.interpolationDuration))

/-- So it is for all nodes that are written as matrices and have a pose at a tick. -/
def IsBlended (w : World) (v : RuntimeNames) (rig : Rig) (config : Config) (root : Nat)
    (c : CompiledClip) (tick : Nat) : Prop :=
  ∀ slot id, w.IsMatrixBody v rig root slot id → ∀ entry,
    c.clip.entryAt? slot.node.uuid tick = some entry → w.BlendsTo config id entry.pose

/-- An animation is started from its first tick, or from where it stands while no
tween is running. -/
def IsStart (w : World) (v : RuntimeNames) (root : Nat) (control : String) : Prop :=
  control = "play" ∨ control = "resume" ∧ ((w.score? root v.tween).getD 0).toInt ≤ 0

/-- From one world to another, an animation was started. -/
structure Starts (w w' : World) (v : RuntimeNames) (rig : Rig) (root : Nat) (c : CompiledClip)
    (control : String) : Prop where
  standing : w'.standing v root c = (w.standing v root c).started control
  bodies : ∀ slot id, w'.IsMatrixBody v rig root slot id ↔ w.IsMatrixBody v rig root slot id

/-- From one world to the next, an animation has advanced, and the interpolation durations are as
follows where it has applied the frame of a tick. -/
structure Blends (w₁ w₂ : World) (v : RuntimeNames) (rig : Rig) (config : Config) (root : Nat)
    (c : CompiledClip) : Prop where
  advances : w₂.standing v root c = (w₁.standing v root c).next c.clip
  bodies : ∀ slot id, w₂.IsMatrixBody v rig root slot id ↔ w₁.IsMatrixBody v rig root slot id
  goes : ∀ tick, w₁.ShowsTick w₂ v root c tick → (w₂.standing v root c).playing = true →
    w₂.IsBlended v rig config root c tick
  /-- At the end, a node whose pose is not taken at once keeps its duration.  That is the right one,
  unless its latest pose was taken at once. -/
  returns : ∀ tick, w₁.ShowsTick w₂ v root c tick → (w₂.standing v root c).playing = false →
    ∀ slot id, w₂.IsMatrixBody v rig root slot id → ∀ entry,
      c.clip.entryAt? slot.node.uuid tick = some entry →
        (entry.pose.marker.isInstant = false → w₂.interpolation? id = w₁.interpolation? id) ∧
        (entry.pose.marker.isInstant = true ∨
            (∀ last : Nat, ((w₁.standing v root c).time.getD 0).toInt = last →
              (c.clip.latestAt? slot.node.uuid last).all (!·.pose.marker.isInstant) = true) →
          w₂.BlendsTo config id entry.pose)

end World

namespace Instance

variable {I : Instance} {w : World} {sc : Scene}

theorem Shows.interpolation?_eq (h : I.Shows w sc) {r : Nat} (hr : r ∈ I.riders) :
    w.interpolation? r = interpOf sc r := by
  obtain ⟨e, he, hshown⟩ := h.riders r hr
  rw [World.interpolation?, he, Option.bind_some, hshown.look, interpOf]

theorem Shows.isMatrixBody_iff (h : I.Shows w sc) {slot : Slot} {id : Nat} :
    w.IsMatrixBody I.stage.names I.stage.rig I.root slot id ↔ I.IsMatrixBody id slot := by
  constructor
  · intro hbody
    have hrider := (h.carries_iff id).1 hbody.rides
    exact ⟨hrider, hbody.mem, fun other hother =>
      (h.rider_hasTag hrider _).symm.trans (hbody.hasTag other hother), hbody.isMatrix⟩
  · exact fun hbody => ⟨h.isBody hbody.rider hbody.embodies, hbody.mem, hbody.isMatrix⟩

/-- What a tick does to the durations of an instance shows in the world, whatever was recorded. -/
theorem Shows.blends {c : CompiledClip} {w₁ w₂ : World} {output₁ output₂ : List RawOutput}
    (h : I.Blending c sc) (h₁ : I.Shows w₁ { sc with output := output₁ })
    (h₂ : I.Shows w₂ { onTicked I sc with output := output₂ }) (hI : I.IsAble)
    (hplay : ArePlayable I.clips) (hc : c ∈ I.clips)
    (hnames : (I.stage.rig.slots.toList.map (·.storageName)).Nodup) :
    w₁.Blends w₂ I.stage.names I.stage.rig I.stage.config I.root c := by
  have hstanding₁ : w₁.standing I.stage.names I.root c = standing c sc := h₁.standing_eq c
  have hstanding₂ : w₂.standing I.stage.names I.root c = standing c (onTicked I sc) :=
    h₂.standing_eq c
  have hnext := standing_onTicked hI hc h.rest
  have hinterp₁ : ∀ {r}, r ∈ I.riders → w₁.interpolation? r = interpOf sc r :=
    fun hr => h₁.interpolation?_eq hr
  have hinterp₂ : ∀ {r}, r ∈ I.riders → w₂.interpolation? r = interpOf (onTicked I sc) r :=
    fun hr => h₂.interpolation?_eq hr
  have hadvances : w₂.standing I.stage.names I.root c =
      (w₁.standing I.stage.names I.root c).next c.clip := by
    rw [hstanding₁, hstanding₂, hnext]
  refine ⟨hadvances, fun _ _ => h₂.isMatrixBody_iff.trans h₁.isMatrixBody_iff.symm,
    fun tick hshows hstays slot id hbody entry hentry => ?_,
    fun tick hshows hstops slot id hbody entry hentry => ?_⟩
  · have hbody := h₂.isMatrixBody_iff.1 hbody
    have hplaying := hshows.playing
    have htime := hshows.time
    rw [hstanding₁] at hplaying
    rw [hstanding₂] at hstays htime
    obtain ⟨time, hscore, htick⟩ := Option.map_eq_some_iff.1 htime
    rw [World.BlendsTo, hinterp₂ hbody.rider]
    exact (h.onTicked hplay hc hnames).2 hplaying hstays slot id hbody time tick entry hscore
      htick hentry
  · have hbody := h₂.isMatrixBody_iff.1 hbody
    have hplaying := hshows.playing
    have hstays := hshows.stays
    have htime := hshows.time
    rw [hstanding₁] at hplaying hstays
    rw [hstanding₂] at hstops hstays htime
    have honce : sc.score (modeKey c) = some LoopMode.once.score :=
      hstays.resolve_left (by rw [hstops]; exact Bool.false_ne_true)
    -- it is back at its first tick
    obtain rfl : tick = 0 := by
      rw [hnext] at hstops htime
      rw [Standing.time_next_of_once hplaying honce hstops, Option.map_some, Option.some_inj]
        at htime
      exact (Int.natCast_eq_zero.1 htime.symm)
    have hstopped := h.stopped hplay hc hnames hplaying hstops honce hbody hentry
    rw [World.BlendsTo, hinterp₂ hbody.rider, hinterp₁ hbody.rider, hstopped, hstanding₁]
    refine ⟨fun hplain => by rw [hplain, if_neg Bool.false_ne_true], fun hright => ?_⟩
    cases hinstant : entry.pose.marker.isInstant with
    | true => rfl
    | false =>
      rw [if_neg Bool.false_ne_true]
      have hlast := hright.resolve_left (by rw [hinstant]; exact Bool.false_ne_true)
      refine (h.blends hplaying slot id hbody).resolve_right fun ⟨_, hsnaps⟩ => ?_
      cases hcount : (((sc.score (timeKey c)).getD 0).toInt + 1).toNat with
      | zero =>
        rw [hcount] at hsnaps
        cases hsnaps
      | succ last =>
        rw [hcount] at hsnaps
        obtain ⟨latest, hlatest, hinstant⟩ := (Option.any_eq_true _ _).1 hsnaps
        have hplain := hlast last (by show ((sc.score (timeKey c)).getD 0).toInt = _; omega)
        rw [hlatest, Option.all_some, hinstant] at hplain
        cases hplain

end Instance

namespace Stage

open Instance (modeKey playingKey standing)

variable {s : Stage} {o : Output} {w : World} {c : CompiledClip} {root : Nat}

/-- While an animation advances alone, every tick of the world does what it should
to the durations. -/
theorem Populates.blends {I : Instance} {sc : Scene} (h : I.stage.Populates I.clips w)
    (hI : I.Shows w sc) (hplay : ArePlayable I.clips) (hc : c ∈ I.clips)
    (hnames : (I.stage.rig.slots.toList.map (·.storageName)).Nodup)
    (hsc : I.Blending c sc) (k : Nat) :
    ∃ w₁ w₂, Run.on (World.ticks k) w = (.ok (), w₁) ∧ Run.on World.tick w₁ = (.ok (), w₂) ∧
      w₁.Blends w₂ I.stage.names I.stage.rig I.stage.config I.root c := by
  obtain ⟨w₁, sc₁, hticks, h₁, hI₁, hsc₁⟩ :=
    h.ticks (P := fun _ sc => I.Blending c sc) (n := k) hI hsc
    (·.root) (·.said _) fun _ hsc => (hsc.onTicked hplay hc hnames).1
  obtain ⟨w₂, said, htick, -, hI₂, -⟩ := h₁.tick hI₁ hsc₁.root
  exact ⟨w₁, w₂, hticks, htick,
    Instance.Shows.blends (hsc₁.said said) hI₁ hI₂ (h₁.isAble hI₁) hplay hc hnames⟩

/-- Starting an animation leads to a scene in which it advances alone. -/
theorem Populates.start {I : Instance} {sc : Scene} (h : I.stage.Populates I.clips w)
    (hI : I.Shows w sc) (hroot : sc.tagged .root = true) (hc : c ∈ I.clips)
    (hmode : ∃ mode : LoopMode, sc.score (modeKey c) = some mode.score)
    (hothers : ∀ c' ∈ I.clips, c'.clip.storageName ≠ c.clip.storageName →
      sc.tagged (playingKey c') = false) {control : String}
    (hcontrol : w.IsStart I.stage.names I.root control) :
    ∃ w' sc', Run.on
      (World.run ((ClipPaths.ofClip I.stage.names.namespaceName c.clip).control control)
        (some I.root)) w = (.ok (), w') ∧ I.stage.Populates I.clips w' ∧ I.Shows w' sc' ∧
      I.Blending c sc' ∧ standing c sc' = (standing c sc).started control := by
  have hruns := (h.isAble hI).runs hc
  rcases hcontrol with rfl | ⟨rfl, htween⟩
  · obtain ⟨w', hrun, hreach, h'⟩ := h.run hI (by decide) (Instance.Takes.play hruns)
    refine ⟨w', _, hrun, h', hreach.1, .played hmode hroot hothers, ?_⟩
    simp [standing, Standing.started, Instance.played, Instance.timeKey, modeKey]
  · have hrest : Instance.inRange .tween (.atLeast 1) sc = false := by
      have hscore : w.score? I.root I.stage.names.tween = sc.score .tween := hI.score .tween
      rw [hscore] at htween
      cases hsome : sc.score .tween with
      | none => rw [Instance.inRange, hsome, Option.any_none]
      | some v =>
        rw [hsome, Option.getD_some] at htween
        rw [Instance.inRange_atLeast_of_score hsome, Bool.not_eq_false', decide_eq_true_eq,
          Int32.lt_iff_toInt_lt]
        exact Int.lt_of_le_of_lt htween (by decide)
    obtain ⟨w', hrun, hreach, h'⟩ := h.run hI (by decide) (Instance.Takes.resume hruns)
    refine ⟨w', _, hrun, h', hreach.1, .resumed hmode hroot hothers hrest, ?_⟩
    simp [standing, Standing.started, Instance.resumed, Instance.timeKey, modeKey]

/-- Where an animation is started that advances alone, every tick does so. -/
theorem Compiles.blends (h : s.Compiles o) (hrig : s.rig.IsBuilt) {w₀ w₁ : World}
    (hw₀ : World.ofPack o.pack = .ok w₀) (hload : Run.on World.load w₀ = (.ok (), w₁))
    (hw : World.Reaches o.Offers w₁ w) (hroot : w.IsRoot s.names s.config root) (hc : c ∈ o.clips)
    (hmode : ∃ mode : LoopMode, (w.standing s.names root c).mode = some mode.score)
    (hothers : ∀ c' ∈ o.clips, c'.clip.storageName ≠ c.clip.storageName →
      (w.standing s.names root c').playing = false) {control : String}
    (hcontrol : w.IsStart s.names root control) :
    ∃ w', Run.on (World.run ((ClipPaths.ofClip s.names.namespaceName c.clip).control control)
        (some root)) w = (.ok (), w') ∧ w.Starts w' s.names s.rig root c control ∧
      ∀ k, ∃ w₁ w₂, Run.on (World.ticks k) w' = (.ok (), w₁) ∧ Run.on World.tick w₁ = (.ok (), w₂) ∧
        w₁.Blends w₂ s.names s.rig s.config root c := by
  have hpopulates := h.populates hrig hw₀ hload hw
  have hplay := h.arePlayable
  obtain ⟨I, sc, rfl, hclips, rfl, hI, htagged⟩ := hpopulates.exists_shows hroot
  rw [← hclips] at hpopulates hplay hc hothers
  simp only [hI.standing_eq] at hmode hothers
  obtain ⟨w', sc', hrun, h', hI', hsc', hstarted⟩ :=
    hpopulates.start hI htagged hc hmode hothers hcontrol
  refine ⟨w', hrun, ⟨?_, fun _ _ => hI'.isMatrixBody_iff.trans hI.isMatrixBody_iff.symm⟩,
    h'.blends hI' hplay hc hrig.nodup_storageNames hsc'⟩
  rw [hI.standing_eq, hI'.standing_eq, hstarted]

end Stage

/-! ### A node that is not set back -/

/-- The bone moves at two ticks, and takes the second of its poses at once. -/
def jolt : Animation where
  name := "jolt"
  length := 0.1
  animators := [{
    node := ⟨1⟩
    position := [{ time := 0, value := ⟨16, 0, 0⟩, interpolation := .step },
      { time := 0.05, value := ⟨32, 0, 0⟩ }] }]

/-- What the animation is sampled to. -/
structure Clip.IsJolt (clip : Clip) : Prop where
  once : clip.loopMode = .once
  duration : clip.duration = 2
  blends : ∃ e, clip.entryAt? ⟨1⟩ 0 = some e ∧ e.pose.marker.isInstant = false
  snaps : ∃ e, clip.entryAt? ⟨1⟩ 1 = some e ∧ e.pose.marker.isInstant = true

theorem exists_sample_jolt : ∃ p,
    sample (mast .zero) jolt {} ⟨pathSafe jolt.name, storageSafe jolt.name⟩ = .ok p ∧
    p.1.IsJolt := by
  have hcomputed :
      ((sample (mast .zero) jolt {} ⟨pathSafe jolt.name, storageSafe jolt.name⟩).toOption.any
      fun p => decide (p.1.loopMode = .once) && decide (p.1.duration = 2) &&
        (p.1.entryAt? ⟨1⟩ 0).any (!·.pose.marker.isInstant) &&
        (p.1.entryAt? ⟨1⟩ 1).any (·.pose.marker.isInstant)) = true := by
    decide +kernel
  obtain ⟨p, hsample, hp⟩ := exists_ok_of_any hcomputed
  simp only [Bool.and_eq_true, decide_eq_true_eq, Option.any_eq_true, Bool.not_eq_true'] at hp
  obtain ⟨⟨⟨honce, hduration⟩, hblends⟩, hsnaps⟩ := hp
  exact ⟨p, hsample, honce, hduration, hblends, hsnaps⟩

/-- Two ticks after such an animation was played, the bone is still not set back. -/
theorem World.Blends.not_isBlended {w₁ w₂ w₃ : World} {v : RuntimeNames} {rig : Rig}
    {config : Config} {root id : Nat} {c : CompiledClip} {slot : Slot}
    (h : w₁.Blends w₂ v rig config root c) (h' : w₂.Blends w₃ v rig config root c)
    (hc : c.clip.IsJolt)
    (hstarted : w₁.standing v root c = ⟨some 0, some LoopMode.once.score, true⟩)
    (hbody : w₁.IsMatrixBody v rig root slot id) (hnode : slot.node.uuid = ⟨1⟩)
    (hdefault : Int32.ofNat config.interpolationDuration ≠ 0) :
    w₂.ShowsTick w₃ v root c 0 ∧ ¬w₃.IsBlended v rig config root c 0 := by
  -- the two ticks bring the animation to its second frame, and to its end
  have hsecond : w₂.standing v root c = ⟨some 1, some LoopMode.once.score, true⟩ := by
    rw [h.advances, hstarted, Standing.next, Clip.advance, hc.duration]
    rfl
  have hlast : w₃.standing v root c = ⟨some 0, some LoopMode.once.score, false⟩ := by
    rw [h'.advances, hsecond, Standing.next, Clip.advance, hc.duration]
    rfl
  have hbody₂ := (h.bodies slot id).2 hbody
  have hbody₃ := (h'.bodies slot id).2 hbody₂
  have hshows : w₁.ShowsTick w₂ v root c 1 :=
    ⟨by rw [hstarted], by rw [hsecond]; rfl, .inl (by rw [hsecond])⟩
  have hshows' : w₂.ShowsTick w₃ v root c 0 :=
    ⟨by rw [hsecond], by rw [hlast]; rfl, .inr (by rw [hsecond])⟩
  refine ⟨hshows', fun hblended => ?_⟩
  obtain ⟨e, he, hplain⟩ := hc.blends
  obtain ⟨e', he', hinstant⟩ := hc.snaps
  rw [← hnode] at he he'
  -- the second frame was reached through a step, and so without blending
  have hsnapped : w₂.interpolation? id = some (.int 0) := by
    have hblends := h.goes 1 hshows (by rw [hsecond]) slot id hbody₂ e' he'
    rwa [World.BlendsTo, if_pos hinstant] at hblends
  -- the end applies the first frame, which leaves that as it is
  have hkept := (h'.returns 0 hshows' (by rw [hlast]) slot id hbody₃ e he).1 hplain
  have hright := hblended slot id hbody₃ e he
  rw [World.BlendsTo, hkept, hsnapped, hplain, if_neg Bool.false_ne_true] at hright
  exact hdefault (Datum.int.inj (Option.some.inj hright)).symm

/-- Where there is only one animation, there are no others. -/
theorem others_of_singleton {clips : List CompiledClip} {c : CompiledClip} {P : CompiledClip → Prop}
    (h : clips = [c]) : ∀ c' ∈ clips, c'.clip.storageName ≠ c.clip.storageName → P c' := by
  intro c' hc' hne
  rw [h] at hc'
  exact absurd (by rw [List.mem_singleton.1 hc']) hne

/-- A root with the bone, in a world where nothing else has happened. -/
theorem exists_summoned_jolt : ∃ (s : Stage) (o : Output) (c : CompiledClip) (w₀ w₁ w : World)
    (root id : Nat) (slot : Slot), compile (mast .zero) [jolt] {} = .ok o ∧ o.clips = [c] ∧
    c.clip.IsJolt ∧
    s.rig = mast .zero ∧ s.config = {} ∧ s.Compiles o ∧ World.ofPack o.pack = .ok w₀ ∧
    Run.on World.load w₀ = (.ok (), w₁) ∧ World.Reaches o.Offers w₁ w ∧
    s.IsFirst o.clips w root ∧ w.IsMatrixBody s.names s.rig root slot id ∧
    slot.node.uuid = ⟨1⟩ := by
  obtain ⟨p, hsample, hjolt⟩ := exists_sample_jolt
  obtain ⟨o, hcompile, hclips⟩ := exists_compile_mast hsample
  obtain ⟨s, hrig, hconfig, hcompiles⟩ := Stage.exists_compiles (isBuilt_mast .zero) hcompile
  obtain ⟨w₀, w₁, hw₀, hload, hruns⟩ := hcompiles.exists_runsOnly (hrig ▸ isBuilt_mast .zero)
  obtain ⟨root, w, -, hreaches, -, hfirst⟩ := hcompiles.exists_instance hw₀ hload hruns
  let slot : Slot := ⟨⟨⟨1⟩, "mast", none, .bone none, { origin := .zero }⟩, "mast", none⟩
  have hslot : slot ∈ s.rig.slots.toList := hrig ▸ List.mem_cons_self
  obtain ⟨id, -, hbody, -⟩ := hfirst.body slot hslot rfl
  exact ⟨s, o, _, w₀, w₁, w, root, id, slot, hcompile, hclips, hjolt, hrig, hconfig,
    hcompiles, hw₀, hload, hreaches, hfirst, ⟨hbody, hslot, rfl⟩, rfl⟩

/-! ### For everything that is compiled -/

/-- In every world that callers can reach and on every root, where an animation of any loop mode is
started while no other animation advances and no tween is running, every tick of the world sets the
interpolation durations as in `World.Blends`, for everything that is compiled. -/
theorem blends_of_compile (name : String) (nodes : List RigNode) (variants : List Variant)
    (animations : List Animation) (config : Config) :
    Ensures (Rig.build name nodes variants) fun rig =>
      Ensures (compile rig animations config) fun o =>
        ∃ w₀ w₁, World.ofPack o.pack = .ok w₀ ∧ Run.on World.load w₀ = (.ok (), w₁) ∧
          ∀ w, World.Reaches o.Offers w₁ w →
            ∀ root, w.IsRoot ⟨o.namespaceName⟩ config root → ∀ c ∈ o.clips,
              (∃ mode : LoopMode, (w.standing ⟨o.namespaceName⟩ root c).mode = some mode.score) →
              (∀ c' ∈ o.clips, c'.clip.storageName ≠ c.clip.storageName →
                (w.standing ⟨o.namespaceName⟩ root c').playing = false) →
              ∀ control, w.IsStart ⟨o.namespaceName⟩ root control →
                ∃ w', Run.on (World.run ((ClipPaths.ofClip o.namespaceName c.clip).control control)
                    (some root)) w = (.ok (), w') ∧
                      w.Starts w' ⟨o.namespaceName⟩ rig root c control ∧
                  ∀ k, ∃ w₁ w₂, Run.on (World.ticks k) w' = (.ok (), w₁) ∧
                    Run.on World.tick w₁ = (.ok (), w₂) ∧
                    w₁.Blends w₂ ⟨o.namespaceName⟩ rig config root c := by
  refine Ensures.intro fun rig hbuild => Ensures.intro fun o hcompile => ?_
  have hrig : rig.IsBuilt := ⟨name, nodes, variants, hbuild⟩
  obtain ⟨s, rfl, rfl, hcompiles⟩ := Stage.exists_compiles hrig hcompile
  have hns := hcompiles.namespaceName
  have hnames : s.names = ⟨o.namespaceName⟩ := by rw [← hns]
  obtain ⟨w₀, w₁, hw₀, hload, -⟩ := hcompiles.exists_runsOnly hrig
  refine ⟨w₀, w₁, hw₀, hload, fun w hw root hroot c hc hmode hothers control hcontrol => ?_⟩
  rw [← hnames] at hroot hmode hothers hcontrol ⊢
  rw [← hns]
  exact hcompiles.blends hrig hw₀ hload hw hroot hc hmode hothers hcontrol

/-- So it is for a bone that jolts, on a root that was just summoned. -/
theorem blends_of_jolt : ∃ (o : Output) (c : CompiledClip) (w₀ w₁ w w' : World) (root : Nat),
    Rig.build "mast" [⟨⟨1⟩, "mast", none, .bone none, { origin := .zero }⟩] [] = .ok (mast .zero) ∧
    compile (mast .zero) [jolt] {} = .ok o ∧ o.clips = [c] ∧ World.ofPack o.pack = .ok w₀ ∧
    Run.on World.load w₀ = (.ok (), w₁) ∧ World.Reaches o.Offers w₁ w ∧
    w.IsRoot ⟨o.namespaceName⟩ {} root ∧
    (w.standing ⟨o.namespaceName⟩ root c).mode = some LoopMode.once.score ∧
    w.IsStart ⟨o.namespaceName⟩ root "play" ∧
    Run.on (World.run ((ClipPaths.ofClip o.namespaceName c.clip).control "play") (some root)) w =
      (.ok (), w') ∧
    w.Starts w' ⟨o.namespaceName⟩ (mast .zero) root c "play" ∧
    ∀ k, ∃ w₁ w₂, Run.on (World.ticks k) w' = (.ok (), w₁) ∧ Run.on World.tick w₁ = (.ok (), w₂) ∧
      w₁.Blends w₂ ⟨o.namespaceName⟩ (mast .zero) {} root c := by
  obtain ⟨s, o, c, w₀, w₁, w, root, -, -, hcompile, hclips, hjolt, -, hconfig, hcompiles,
    hw₀, hload, hw, hnew, -⟩ := exists_summoned_jolt
  have hnames : s.names = ⟨o.namespaceName⟩ := by rw [← hcompiles.namespaceName]
  have hc : c ∈ o.clips := hclips ▸ List.mem_singleton_self c
  have hroot := hnew.isRoot
  have hmode : (w.standing s.names root c).mode = some LoopMode.once.score :=
    hjolt.once ▸ hnew.mode c hc
  rw [hnames, hconfig] at hroot
  rw [hnames] at hmode
  have hbuild := build_mast .zero
  -- under names of their own, nothing of the rig and the animation is computed
  generalize mast .zero = rig at hcompile hbuild ⊢
  generalize jolt = a at hcompile ⊢
  obtain ⟨w₀', w₁', hw₀', hload', hblends⟩ :=
    ((blends_of_compile "mast" _ [] [a] {}).apply hbuild).apply hcompile
  obtain rfl := Stage.eq_of_load hw₀ hload hw₀' hload'
  obtain ⟨w', hplay, hstarts, hticks⟩ := hblends w hw root hroot c hc ⟨.once, hmode⟩
    (others_of_singleton hclips) "play" (.inl rfl)
  exact ⟨o, c, w₀, w₁, w, w', root, hbuild, hcompile, hclips, hw₀, hload, hw, hroot, hmode,
    .inl rfl, hplay, hstarts, hticks⟩

/-- When the bone returns to its first frame, it snaps to a pose that it should blend into. -/
theorem not_isBlended_jolt :
    ∃ (o : Output) (c : CompiledClip) (w₀ w₁ w w' w₂ w₃ : World) (root : Nat),
    compile (mast .zero) [jolt] {} = .ok o ∧ o.clips = [c] ∧ World.ofPack o.pack = .ok w₀ ∧
    Run.on World.load w₀ = (.ok (), w₁) ∧ World.Reaches o.Offers w₁ w ∧
    w.IsRoot ⟨o.namespaceName⟩ {} root ∧
    Run.on (World.run ((ClipPaths.ofClip o.namespaceName c.clip).control "play") (some root)) w =
      (.ok (), w') ∧
    Run.on World.tick w' = (.ok (), w₂) ∧ Run.on World.tick w₂ = (.ok (), w₃) ∧
    w₂.ShowsTick w₃ ⟨o.namespaceName⟩ root c 0 ∧
    ¬w₃.IsBlended ⟨o.namespaceName⟩ (mast .zero) {} root c 0 := by
  obtain ⟨s, o, c, w₀, w₁, w, root, id, slot, hcompile, hclips, hjolt, hrig, hconfig,
    hcompiles, hw₀, hload, hw, hnew, hbody, hnode⟩ := exists_summoned_jolt
  have hns := hcompiles.namespaceName
  have hnames : s.names = ⟨o.namespaceName⟩ := by rw [← hns]
  have hc : c ∈ o.clips := hclips ▸ List.mem_singleton_self c
  have hroot := hnew.isRoot
  have hmode : (w.standing s.names root c).mode = some LoopMode.once.score :=
    hjolt.once ▸ hnew.mode c hc
  obtain ⟨w', hplay, hstarts, hticks⟩ :=
    hcompiles.blends (hrig ▸ isBuilt_mast .zero) hw₀ hload hw hroot hc
    ⟨.once, hmode⟩ (others_of_singleton hclips) (.inl rfl)
  -- the first tick, and the second
  obtain ⟨u, w₂, hzero, hfirst, hblends⟩ := hticks 0
  obtain rfl : w' = u := congrArg Prod.snd hzero
  obtain ⟨u, w₃, hone, hsecond, hblends'⟩ := hticks 1
  obtain rfl : w₂ = u := by
    have hsame := (World.on_ticks_succ 0 w').trans (Run.on_bind_ok hzero)
    exact congrArg Prod.snd (hfirst.symm.trans (hsame.symm.trans hone))
  have hstarted : w'.standing s.names root c = ⟨some 0, some LoopMode.once.score, true⟩ := by
    rw [hstarts.standing, Standing.started, hmode]
    rfl
  obtain ⟨hshows, hnot⟩ := hblends.not_isBlended hblends' hjolt hstarted
    ((hstarts.bodies slot id).2 hbody) hnode (by rw [hconfig]; decide)
  rw [hnames, hrig, hconfig] at hnot
  rw [hnames] at hshows
  rw [hnames, hconfig] at hroot
  rw [hns] at hplay
  exact ⟨o, c, w₀, w₁, w, w', w₂, w₃, root, hcompile, hclips, hw₀, hload, hw, hroot, hplay, hfirst,
    hsecond, hshows, hnot⟩

end Marionette
