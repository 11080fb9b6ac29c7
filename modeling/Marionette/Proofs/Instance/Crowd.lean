import Marionette.Proofs.Instance.Ranges
import Marionette.Proofs.Ride.Reach

/-!
# Worlds with many instances

What one root does changes its own instance only, so what holds of every instance of a world goes on
to hold as long as each of them keeps to it.

- `Shows.keeps`: what happens to one instance leaves another as it is.
- `Stage.Upholds`: every root of a world belongs to an instance whose scene is as asked.
- `Stage.Brings`: a function brings the root that runs it from a scene of one kind to one of
  another.
- `Upholds.run`, `Upholds.tick`, `Upholds.summon`, `Upholds.setRequest`, `Upholds.answered`: what
  callers do leaves all roots as asked, if it leaves the root that is concerned so.
- `Stage.InOrder`, `Stage.IsSteady`: all playback states are, and stay, in range.
-/

namespace Marionette

namespace Instance

variable {I J : Instance} {w w' : World} {sc sc' : Scene}

/-- What belongs to one instance does not belong to another. -/
theorem Shows.not_owns (hI : I.Shows w sc) (hJ : J.Shows w sc') (hroot : I.root ≠ J.root) {i : Nat}
    (hi : J.Owns i) : ¬I.Owns i := by
  -- roots ride nothing, and the others ride their roots
  have hvehicle : ∀ {K : Instance} {sc : Scene}, K.Shows w sc → ∀ {i}, K.Owns i →
      i = K.root ∧ (w.entity? i).map Entity.vehicle = some none ∨
        (w.entity? i).map Entity.vehicle = some (some K.root) := by
    intro K sc hK i hi
    rcases hi with rfl | hr
    · obtain ⟨e, he, hshown⟩ := hK.root
      exact .inl ⟨rfl, by rw [he, Option.map_some, hshown.vehicle]⟩
    · obtain ⟨e, he, hshown⟩ := hK.riders i hr
      exact .inr (by rw [he, Option.map_some, hshown.vehicle])
  intro howns
  rcases hvehicle hI howns with ⟨rfl, hown⟩ | hown <;>
    rcases hvehicle hJ hi with ⟨heq, hother⟩ | hother <;> rw [hown] at hother
  · exact hroot heq
  · cases hother
  · cases hother
  · exact hroot (Option.some.inj (Option.some.inj hother))

/-- What happens to one instance leaves another as it is, but for the commands
that were recorded. -/
theorem Shows.keeps (hJ : J.Shows w sc') (hI : I.Shows w sc) (hroot : I.root ≠ J.root)
    (hkeeps : I.Keeps w w') : J.Shows w' { sc' with output := w'.output.toList } where
  setting := hkeeps.setting.trans hJ.setting
  root := by
    obtain ⟨e, he, hshown⟩ := hJ.root
    exact ⟨e, (hkeeps.entity? _ (hI.not_owns hJ hroot (.inl rfl))).trans he, hshown⟩
  riders r hr := by
    obtain ⟨e, he, hshown⟩ := hJ.riders r hr
    exact ⟨e, (hkeeps.entity? _ (hI.not_owns hJ hroot (.inr hr))).trans he, hshown⟩
  score k := by
    refine Eq.trans (hkeeps.score _ _ (fun k' heq => ?_) (by simp)) (hJ.score k)
    exact hroot (Owner.entity.inj (Prod.mk.inj heq).1).symm
  output := rfl

/-- The functions of all animations of the instance run. -/
structure IsAble (I : Instance) : Prop where
  areCompiled : AreCompiled I.clips
  duration_le : ∀ c ∈ I.clips, c.clip.duration ≤ 2147483647
  has : ∀ k : ScoreKey, k.IsAmong I.clips → I.Has k

theorem IsAble.runs (h : I.IsAble) {c : CompiledClip} (hc : c ∈ I.clips) : I.Runs c where
  mem := hc
  built := h.areCompiled.built c hc
  duration_le := h.duration_le c hc
  has k hk := by
    refine h.has k ?_
    cases k with
    | localTime a | loopMode a => exact ⟨c, hc, hk.symm⟩
    | frame | tween | tweenRequest | interp | lifetime => trivial

theorem Shows.isRoot (h : I.Shows w sc) (hroot : sc.tagged .root = true) :
    w.IsRoot I.stage.names I.stage.config I.root := by
  obtain ⟨e, he, hshown⟩ := h.root
  exact ⟨e, he, hshown.alive, hshown.entityType, (hshown.hasTag .root).trans hroot⟩

end Instance

namespace Stage

open World (Changes Does DoesAll)

/-- What is asked of the scene of each root is something that only roots whose scores are set have,
and that does not depend on what was recorded. -/
structure IsPolicy (P : Nat → Scene → Prop) : Prop where
  root : ∀ {r sc}, P r sc → sc.tagged .root = true
  new : ∀ {r sc}, P r sc → sc.tagged .new = false
  said : ∀ {r} {sc : Scene} {output}, P r sc → P r { sc with output := output }

/-- Every root of the world belongs to an instance whose scene is as asked. -/
structure Upholds (s : Stage) (clips : List CompiledClip) (P : Nat → Scene → Prop) (w : World) :
    Prop where
  runs : s.RunsOnly clips w
  newborn : ∀ i, w.hasTag i s.names.newTag = false
  shows : ∀ root, w.IsRoot s.names s.config root → ∃ (I : Instance) (sc : Scene), I.stage = s ∧
    I.clips = clips ∧ I.root = root ∧ I.Shows w sc ∧ P root sc

/-- A function of the rig brings the root that runs it from a scene of one kind to
one of another. -/
def Brings (s : Stage) (clips : List CompiledClip) (P P' : Scene → Prop)
    (path : FunctionPath) : Prop :=
  ∀ I : Instance, I.stage = s → I.clips = clips → I.IsAble → ∀ sc : Scene, P sc →
    ∃ sc', I.Takes 41 (some I.root) (.function path) sc sc' ∧ P' sc'

variable {s : Stage} {clips : List CompiledClip} {P P' : Nat → Scene → Prop} {w w' : World}
  {path : FunctionPath} {root : Nat} {c : CompiledClip}

theorem Brings.imp {P P' Q Q' : Scene → Prop} (h : s.Brings clips P P' path)
    (hpre : ∀ sc, Q sc → P sc) (hpost : ∀ sc, P' sc → Q' sc) : s.Brings clips Q Q' path := by
  intro I hstage hclips hI sc hsc
  obtain ⟨sc', htakes, hsc'⟩ := h I hstage hclips hI sc (hpre sc hsc)
  exact ⟨sc', htakes, hpost sc' hsc'⟩

namespace Upholds

/-- What can be seen of an instance may be asked of its scene, too. -/
theorem refine (h : s.Upholds clips P w)
    (hP : ∀ (I : Instance) (sc : Scene), I.stage = s → I.Shows w sc → P I.root sc → P' I.root sc) :
    s.Upholds clips P' w := by
  refine ⟨h.runs, h.newborn, fun root hroot => ?_⟩
  obtain ⟨I, sc, hstage, hclips, rfl, hI, hsc⟩ := h.shows root hroot
  exact ⟨I, sc, hstage, hclips, rfl, hI, hP I sc hstage hI hsc⟩

/-- In a world without entities there is nothing to ask. -/
theorem of_no_entities (hruns : s.RunsOnly clips w) (hnone : w.entities = #[]) :
    s.Upholds clips P w := by
  have hentity : ∀ i, w.entity? i = none := fun i => by rw [World.entity?, hnone]; rfl
  refine ⟨hruns, fun i => by rw [World.hasTag, hentity]; rfl, fun root hroot => ?_⟩
  obtain ⟨e, he, -⟩ := hroot
  cases (hentity root).symm.trans he

/-- Where all other instances are as asked, one of them goes on to a scene that is, too, and the
others stay as they are. -/
theorem of_others (hP : IsPolicy P) {I : Instance} {sc sc' : Scene} (hI : I.Shows w sc)
    (hnewborn : ∀ i, i ≠ I.root → w.hasTag i I.stage.names.newTag = false)
    (hshows : ∀ root, ¬I.Owns root → w.IsRoot I.stage.names I.stage.config root →
      ∃ (J : Instance) (sc : Scene), J.stage = I.stage ∧ J.clips = I.clips ∧ J.root = root ∧
        J.Shows w sc ∧ P root sc)
    (hreach : I.Reaches w sc' w') (hsc' : P I.root sc')
    (hruns : I.stage.RunsOnly I.clips w') : I.stage.Upholds I.clips P w' := by
  have hsame : ∀ i, ¬I.Owns i → w'.entity? i = w.entity? i := hreach.2.entity?
  refine ⟨hruns, fun i => ?_, fun root hroot => ?_⟩
  · by_cases hself : i = I.root
    · rw [hself]
      exact (hreach.1.hasTag .new).trans (hP.new hsc')
    by_cases hr : i ∈ I.riders
    · rw [hreach.1.rider_hasTag hr, ← hI.rider_hasTag hr]
      exact hnewborn i hself
    · rw [World.hasTag, hsame i (not_or.2 ⟨hself, hr⟩)]
      exact hnewborn i hself
  · by_cases hself : root = I.root
    · exact ⟨I, sc', rfl, rfl, hself.symm, hreach.1, hself ▸ hsc'⟩
    · have hi : ¬I.Owns root := fun hi =>
        hself (hreach.1.eq_root_of_owns hi hroot.hasTag)
      obtain ⟨e, he, hrest⟩ := hroot
      obtain ⟨J, scJ, hstage, hclips, rfl, hJ, hscJ⟩ :=
        hshows root hi ⟨e, (hsame root hi).symm.trans he, hrest⟩
      exact ⟨J, _, hstage, hclips, rfl, hJ.keeps hI (Ne.symm hself) hreach.2, hP.said hscJ⟩

/-- Roots stay roots. -/
theorem isRoot_of_turn {I : Instance} {sc sc' : Scene} (hI : I.Shows w sc)
    (hreach : I.Reaches w sc' w') (hsc' : sc'.tagged .root = true)
    (hroot : w.IsRoot I.stage.names I.stage.config root) :
    w'.IsRoot I.stage.names I.stage.config root := by
  by_cases hi : I.Owns root
  · obtain rfl := hI.eq_root_of_owns hi hroot.hasTag
    exact hreach.1.isRoot hsc'
  · obtain ⟨e, he, hrest⟩ := hroot
    exact ⟨e, (hreach.2.entity? root hi).trans he, hrest⟩

variable (hclips : AreCompiled clips) (hduration : ∀ c ∈ clips, c.clip.duration ≤ 2147483647)

include hclips hduration

/-- Run as a root, a function changes what can be asked of that root. -/
theorem does (h : s.Upholds clips P w) (hP : IsPolicy P')
    (hpath : s.Brings clips (P root) (P' root) path)
    (hothers : ∀ {r sc}, r ≠ root → P r sc → P' r sc) (hroot : w.IsRoot s.names s.config root) :
    Does 41 (.function path) (some root) w fun w' => s.Upholds clips P' w' ∧
      ∀ r, w.IsRoot s.names s.config r → w'.IsRoot s.names s.config r := by
  obtain ⟨I, sc, rfl, rfl, rfl, hI, hsc⟩ := h.shows root hroot
  have hable : I.IsAble := by
    refine ⟨hclips, hduration, fun k hk => ?_⟩
    have ho := h.runs.hasObjective hk
    rwa [World.hasObjective, World.objectives_eq_of_setting hI.setting] at ho
  obtain ⟨sc', htakes, hsc'⟩ := hpath I rfl rfl hable sc hsc
  have hturn := htakes w hI
  refine Does.imp (hturn.and hturn.changes) fun w' hw' => ?_
  refine ⟨of_others hP hI (fun i _ => h.newborn i) (fun r hr hrisRoot => ?_) hw'.1 hsc'
    (h.runs.changes hw'.2), fun r hr => isRoot_of_turn hI hw'.1 (hP.root hsc') hr⟩
  obtain ⟨J, scJ, hstage, hclips, rfl, hJ, hscJ⟩ := h.shows r hrisRoot
  exact ⟨J, scJ, hstage, hclips, rfl, hJ, hothers (fun heq => hr (.inl heq)) hscJ⟩

theorem run (h : s.Upholds clips P w) (hP : IsPolicy P')
    (hpath : s.Brings clips (P root) (P' root) path)
    (hothers : ∀ {r sc}, r ≠ root → P r sc → P' r sc) (hroot : w.IsRoot s.names s.config root) :
    ∃ w', Run.on (World.run path (some root)) w = (.ok (), w') ∧ s.Upholds clips P' w' ∧
      w'.IsRoot s.names s.config root := by
  have hdepth : 41 ≤ w.maxDepth := by
    rw [h.runs.hosts.maxDepth]
    decide
  obtain ⟨-, w', hrun, hw', hroots⟩ :=
    World.Leads.run_on (h.does hclips hduration hP hpath hothers hroot) hdepth
  exact ⟨w', hrun, hw', hroots root hroot⟩

/-- A tick of the world is one of every root in turn. -/
theorem tick (h : s.Upholds clips P w) (hP : IsPolicy P)
    (hpath : ∀ root, s.Brings clips (P root) (P root) (s.function "on_tick")) :
    ∃ w', Run.on World.tick w = (.ok (), w') ∧ s.Upholds clips P w' := by
  -- whoever has been picked is a root until its turn comes
  let Inv (ids : List Nat) (w' : World) : Prop :=
    s.Upholds clips P w' ∧ ∀ id ∈ ids, w'.IsRoot s.names s.config id
  have hstep : ∀ id ids w', Inv (id :: ids) w' →
      Does 41 (.function (s.function "on_tick")) (some id) w' (Inv ids) := by
    rintro id ids w' ⟨hw', hroots⟩
    obtain ⟨hid, hrest⟩ := List.forall_mem_cons.1 hroots
    exact Does.imp (hw'.does hclips hduration hP (hpath id) (fun _ hsc => hsc) hid) fun w'' hw'' =>
      ⟨hw''.1, fun i hi => hw''.2 i (hrest i hi)⟩
  obtain ⟨w', htick, hw'⟩ := h.runs.tick_of_turns (by decide) hstep fun next hnext hruns => by
    refine ⟨⟨hruns, ?_, fun root hroot => ?_⟩, fun id hid => (mem_select_roots hruns.tied).1 hid⟩
    · rw [hnext]
      exact h.newborn
    · rw [hnext] at hroot ⊢
      obtain ⟨I, sc, hstage, hclips, hself, hI, hsc⟩ := h.shows root hroot
      exact ⟨I, sc, hstage, hclips, hself,
        ⟨hI.setting, hI.root, hI.riders, hI.score, hI.output⟩, hsc⟩
  exact ⟨w', htick, hw'.1⟩

omit hclips hduration in
/-- A new instance is as asked from the start, and the others stay as they are. -/
theorem summon (h : s.Upholds clips P w) (hP : IsPolicy P)
    (hfirst : P w.entities.size
      (Instance.initiated (newInstance h.runs.hosts) (s.firstScene w))) :
    ∃ w', Run.on (World.summon s.names.namespaceName) w = (.ok w.entities.size, w') ∧
      s.Upholds clips P w' ∧ w'.IsRoot s.names s.config w.entities.size := by
  let I := newInstance h.runs.hosts
  have hnone : ∀ i e, w.entity? i = some e → e.matches s.newborns = false := by
    intro i e he
    have hnew := h.newborn i
    rw [World.hasTag, he, Option.any_some] at hnew
    rw [newborns, Entity.matches_ofType_tagged, hnew, Bool.and_false]
  obtain ⟨w', hsummon, hreach⟩ :=
    h.runs.hosts.summon (fun k hk => h.runs.hasObjective hk) hnone
  have hchanges : Changes w w' := by
    have hmakes : Changes w (Run.on (World.summon s.names.namespaceName) w).2 :=
      World.makes_summon _
    rwa [hsummon] at hmakes
  -- all other entities are those that were there before
  have hold : ∀ i e, w.entity? i = some e → (s.summoned w).entity? i = some e := by
    intro i e he
    rw [entity?_summoned, if_pos (Array.getElem?_eq_some_iff.1 he).1]
    exact he
  have hothers : ∀ i, ¬I.Owns i → (s.summoned w).entity? i = w.entity? i := by
    intro i hi
    cases he : (s.summoned w).entity? i with
    | some e =>
      have hlt : i < w.entities.size := by
        by_contra hge
        exact hi (owns_of_entity?_summoned h.runs.hosts (Nat.le_of_not_lt hge) he)
      rwa [entity?_summoned, if_pos hlt, eq_comm] at he
    | none =>
      cases he' : w.entity? i with
      | none => rfl
      | some e => cases he.symm.trans (hold i e he')
  refine ⟨w', hsummon, of_others (I := I) hP (shows_firstScene h.runs.hosts) (fun i hi => ?_)
    (fun root hi hroot => ?_) hreach hfirst (h.runs.changes hchanges),
    hreach.1.isRoot (hP.root hfirst)⟩
  · by_cases hr : i ∈ I.riders
    · exact s.hasTag_summoned_of_ne w (t := .new) (.inr rfl) hr
    · rw [World.hasTag, hothers i (not_or.2 ⟨hi, hr⟩)]
      exact h.newborn i
  · obtain ⟨e, he, hroot⟩ := hroot
    obtain ⟨J, sc, hstage, hclips, hself, hJ, hsc⟩ :=
      h.shows root ⟨e, (hothers root hi).symm.trans he, hroot⟩
    obtain ⟨e, he, hshown⟩ := hJ.root
    refine ⟨J, sc, hstage, hclips, hself, ⟨hJ.setting, ⟨e, hold _ e he, hshown⟩, fun r hr => ?_,
      hJ.score, hJ.output⟩, hsc⟩
    obtain ⟨e, he, hshown⟩ := hJ.riders r hr
    exact ⟨e, hold _ e he, hshown⟩

omit hclips hduration in
/-- A caller asks a root for the length of its next tween. -/
theorem setRequest (h : s.Upholds clips P w) (id : Nat) (value : Int32)
    (hset : ∀ {sc}, P id sc → P id (sc.set .tweenRequest value)) :
    s.Upholds clips P (w.setOwnerScore (.entity id) s.names.tweenRequest value) := by
  refine ⟨h.runs.scored _ _ _, h.newborn, fun root hroot => ?_⟩
  obtain ⟨I, sc, rfl, rfl, rfl, hI, hsc⟩ := h.shows root hroot
  by_cases hself : id = I.root
  · subst hself
    exact ⟨I, _, rfl, rfl, rfl, (Instance.Reaches.setScore hI .tweenRequest value).1, hset hsc⟩
  · refine ⟨I, sc, rfl, rfl, rfl, ⟨hI.setting, hI.root, hI.riders, fun k => ?_, hI.output⟩, hsc⟩
    rw [World.score?, World.ownerScore?_setOwnerScore, if_neg fun heq => hself ?_]
    · exact hI.score k
    · exact (Owner.entity.inj (Prod.mk.inj heq).1).symm

omit hclips hduration in
/-- The conditions of the author have no part in it. -/
theorem answered (h : s.Upholds clips P w) (answers : Std.HashMap String Bool) :
    s.Upholds clips P { w with conditions := answers } := by
  refine ⟨h.runs.answered answers, h.newborn, fun root hroot => ?_⟩
  obtain ⟨I, sc, rfl, rfl, rfl, hI, hsc⟩ := h.shows root hroot
  let next : World := { w with conditions := answers }
  have hosts : I.stage.Hosts I.clips next := (h.runs.answered answers).hosts
  let J : Instance := { I with home := next, hosts := hosts }
  obtain ⟨e, he, hroot⟩ := hI.root
  refine ⟨J, sc, rfl, rfl, rfl, ⟨rfl, ⟨e, he, ?_⟩, fun r hr => ?_, hI.score, hI.output⟩, hsc⟩
  · exact ⟨hroot.id, hroot.alive, hroot.entityType, hroot.vehicle, hroot.passengers, hroot.hasTag⟩
  · obtain ⟨e, he, hrider⟩ := hI.riders r hr
    exact ⟨e, he, hrider.id, hrider.alive, hrider.vehicle, hrider.hasTag, hrider.look⟩

end Upholds

/-! ### Playback state in range -/

/-- Every root of the world belongs to an instance whose playback state is in range. -/
abbrev InOrder (s : Stage) (clips : List CompiledClip) (w : World) : Prop :=
  s.Upholds clips (fun _ sc => sc.IsInRange clips) w

theorem isPolicy_isInRange : IsPolicy fun _ sc => sc.IsInRange clips where
  root h := h.root
  new h := h.new
  said h := h.same rfl rfl

/-- A function of the rig keeps the playback state of the root that runs it in range. -/
abbrev IsSteady (s : Stage) (clips : List CompiledClip) (path : FunctionPath) : Prop :=
  s.Brings clips (·.IsInRange clips) (·.IsInRange clips) path

theorem isSteady_control {name : String}
    (hname : name ∈ ["play", "resume", "pause", "stop", "tween_play", "tween_resume", "apply_frame",
      "set_frame"]) (hc : c ∈ clips) (htween : s.config.tweenDuration ≤ 2147483647) :
    s.IsSteady clips ((ClipPaths.ofClip s.names.namespaceName c.clip).control name) := by
  rintro I rfl rfl hI sc hsc
  have hruns := hI.runs hc
  have hnames := hI.areCompiled.nodup_storageNames
  simp only [List.mem_cons, List.not_mem_nil, or_false] at hname
  rcases hname with rfl | rfl | rfl | rfl | rfl | rfl | rfl | rfl
  · exact ⟨_, .deeper (by decide) (.play hruns), hsc.played hnames hc⟩
  · exact ⟨_, .deeper (by decide) (.resume hruns), hsc.resumed⟩
  · exact ⟨_, .deeper (by decide) (.pause hc), hsc.halt _⟩
  · exact ⟨_, .deeper (by decide) (.stop hruns), hsc.stopped hnames hc⟩
  · exact ⟨_, .deeper (by decide) (.tweenPlay hruns), hsc.tweenPlayed hnames hc htween⟩
  · exact ⟨_, .deeper (by decide) (.tweenResume hruns), hsc.tweenResumed htween⟩
  · exact ⟨_, .deeper (by decide) (.applyFrameAgain hruns), hsc.frameApplied⟩
  · exact ⟨_, .deeper (by decide) (.setFrame hruns), hsc.frameSet⟩

theorem isSteady_pauseAll : s.IsSteady clips (s.function "pause_all") := by
  rintro I rfl rfl - sc hsc
  exact ⟨_, .deeper (by decide) .pauseAll, hsc.allPaused _⟩

theorem isSteady_onTick
    (hlength : ∀ c ∈ clips, c.clip.duration + c.clip.loopDelay ≤ 2147483647) :
    s.IsSteady clips (s.function "on_tick") := by
  rintro I rfl rfl hI sc hsc
  refine ⟨_, .onTick (hI.has .lifetime trivial) (hI.has .tween trivial) (hI.has .interp trivial)
    fun c hc _ => hI.runs hc, ?_⟩
  exact hsc.onTicked hI.areCompiled.nodup_storageNames hlength

end Stage

end Marionette
