import Marionette.Proofs.Instance.Crowd

/-!
# Interpolation outside of tweens

While a tween runs, the interpolation duration of a root follows it.  Outside of tweens it should be
the default one.

- `Scene.KeepsTiming`: what has to do with tweens stays as it is.
- `Scene.IsTimed`: no tween is negative and, where that is demanded, the interpolation duration is
  the default one outside of tweens.
- `IsTimed.played`, `IsTimed.resumed`, `IsTimed.tweenPlayed`, `IsTimed.tweenResumed`: these controls
  see to it whatever was before; `IsTimed.stopped`: stopping does not.
- `IsTimed.onTicked`: ticks keep to it.
- `Stage.brings_settled`, `Stage.brings_control`, `Stage.brings_stop`, `Stage.brings_onTick`: what
  this says of the functions.
-/

namespace Marionette

open Instance (inRange timeKey modeKey playingKey)

/-- The tween, the interpolation duration and the tags of a root that is set up stay as they are. -/
structure Scene.KeepsTiming (sc sc' : Scene) : Prop where
  tween : sc'.score .tween = sc.score .tween
  interp : sc'.score .interp = sc.score .interp
  root : sc'.tagged .root = sc.tagged .root
  new : sc'.tagged .new = sc.tagged .new

namespace Scene.KeepsTiming

variable {I : Instance} {c : CompiledClip} {sc sc' sc'' : Scene}

theorem refl (sc : Scene) : KeepsTiming sc sc := ⟨rfl, rfl, rfl, rfl⟩

/-- The parts that count stay the same from step to step. -/
theorem trans (h : KeepsTiming sc sc') (h' : KeepsTiming sc' sc'') : KeepsTiming sc sc'' :=
  ⟨h'.tween.trans h.tween, h'.interp.trans h.interp, h'.root.trans h.root, h'.new.trans h.new⟩

/-- Scores and tags are all that counts. -/
theorem of_eq (hscore : sc'.score = sc.score) (htagged : sc'.tagged = sc.tagged) :
    KeepsTiming sc sc' := by
  constructor <;> first | rw [hscore] | rw [htagged]

/-- A choice between two scenes that keep the timing keeps it. -/
theorem choose {b : Prop} [Decidable b] (h : KeepsTiming sc sc') (h' : KeepsTiming sc sc'') :
    KeepsTiming sc (if b then sc' else sc'') := by
  split
  · exact h
  · exact h'

/-- Scores other than those two may be set. -/
theorem set {k : ScoreKey} (hk : k ≠ .tween) (hk' : k ≠ .interp) (sc : Scene) (v : Int32) :
    KeepsTiming sc (sc.set k v) :=
  ⟨if_neg hk.symm, if_neg hk'.symm, rfl, rfl⟩

theorem setTime (sc : Scene) (v : Int32) : KeepsTiming sc (sc.set (timeKey c) v) :=
  set (k := timeKey c) nofun nofun sc v

/-- Tags other than those two may be given. -/
theorem tag {t : TagKey} (ht : t ≠ .root) (ht' : t ≠ .new) (sc : Scene) :
    KeepsTiming sc (sc.tag t) where
  tween := rfl
  interp := rfl
  root := by rw [Scene.tag_tagged, beq_false_of_ne ht.symm, Bool.false_or]
  new := by rw [Scene.tag_tagged, beq_false_of_ne ht'.symm, Bool.false_or]

theorem untag {t : TagKey} (ht : t ≠ .root) (ht' : t ≠ .new) (sc : Scene) :
    KeepsTiming sc (sc.untag t) where
  tween := rfl
  interp := rfl
  root := by rw [Scene.untag_tagged, bne_iff_ne.2 ht.symm, Bool.true_and]
  new := by rw [Scene.untag_tagged, bne_iff_ne.2 ht'.symm, Bool.true_and]

theorem start (sc : Scene) : KeepsTiming sc (sc.tag (playingKey c)) :=
  tag (t := playingKey c) nofun nofun sc

theorem halt (sc : Scene) : KeepsTiming sc (sc.untag (playingKey c)) :=
  untag (t := playingKey c) nofun nofun sc

/-- A lookup changes looks and records, and neither is timing. -/
theorem dispatched (tree : DispatchTree) (sc : Scene) : KeepsTiming sc (I.dispatched tree sc) :=
  of_eq (I.dispatched_score tree sc) (I.dispatched_tagged tree sc)

theorem sought (tree : DispatchTree) (sc : Scene) : KeepsTiming sc (I.sought tree sc) :=
  of_eq (I.sought_score tree sc) (I.sought_tagged tree sc)

theorem synced (sc : Scene) : KeepsTiming sc (I.synced sc) :=
  of_eq (I.synced_score sc) (I.synced_tagged sc)

/-! ### Controls that do not touch it -/

theorem frameApplied (sc : Scene) : KeepsTiming sc (I.frameApplied c sc) :=
  .trans (set (k := .frame) nofun nofun sc _) (dispatched c.tree _)

theorem frameSet (sc : Scene) : KeepsTiming sc (I.frameSet c sc) :=
  .trans (tag (t := .suppress) nofun nofun sc) <|
    .trans (set (k := .frame) nofun nofun _ _) <|
    .trans (sought _ _) (untag (t := .suppress) nofun nofun _)

/-- Pausing all animations takes tags of playing only. -/
theorem allPaused (paused : List CompiledClip) (sc : Scene) :
    KeepsTiming sc (Instance.allPaused paused sc) := by
  induction paused generalizing sc with
  | nil => exact refl sc
  | cons c rest ih => exact .trans (halt sc) (ih _)

/-- Starting again sets a time, and tells the nodes about it. -/
theorem restarted (sc : Scene) : KeepsTiming sc (I.restarted c sc) := by
  unfold Instance.restarted
  exact .trans (choose (choose (setTime sc 0) (refl sc)) (refl sc))
    (choose (choose (synced _) (refl _)) (refl _))

/-- Stopping takes the tween away, which changes nothing where there was none. -/
theorem stopped (h : sc.score .tween = some 0) : KeepsTiming sc (I.stopped c sc) := by
  have hzero : KeepsTiming (sc.set (timeKey c) 0) ((sc.set (timeKey c) 0).set .tween 0) :=
    ⟨((setTime sc 0).tween.trans h).symm ▸ Scene.set_score_self _ _ _, rfl, rfl, rfl⟩
  exact .trans (setTime sc 0) <| .trans hzero <|
    .trans (tag (t := .suppress) nofun nofun _) <|
    .trans (set (k := .frame) nofun nofun _ _) <|
    .trans (dispatched _ _) <|
    .trans (untag (t := .suppress) nofun nofun _) (halt _)

/-- Without a tween, an animation goes on by a tick or comes to its end. -/
theorem advanced (h : sc.score .tween = some 0) : KeepsTiming sc (I.advanced c sc) := by
  have hended : ∀ {sc : Scene}, sc.score .tween = some 0 → KeepsTiming sc (I.ended c sc) := by
    intro sc h
    have hrestarted := restarted (I := I) (c := c) sc
    have honce : KeepsTiming sc (I.stoppedOnce c (I.restarted c sc)) :=
      hrestarted.trans (choose (stopped (hrestarted.tween.trans h)) (refl _))
    exact honce.trans (choose (.trans (setTime _ _) (halt _)) (refl _))
  have hmoved := setTime (c := c) sc ((sc.score (timeKey c)).getD 0 + 1)
  have hpassed :
      KeepsTiming sc (I.passed c (sc.set (timeKey c) ((sc.score (timeKey c)).getD 0 + 1))) :=
    hmoved.trans (choose (hended (hmoved.tween.trans h)) (refl _))
  exact hpassed.trans
    (choose (.trans (set (k := .frame) nofun nofun _ _) (dispatched _ _)) (refl _))

end Scene.KeepsTiming

/-- The root is set up, no tween is negative and, where that is demanded, the interpolation duration
is the default one outside of tweens. -/
structure Scene.IsTimed (s : Stage) (demanded : Prop) (sc : Scene) : Prop where
  tween : ∃ v : Int32, sc.score .tween = some v ∧ 0 ≤ v.toInt
  interp : demanded → sc.score .tween = some 0 → sc.score .interp = some s.defaultInterp
  root : sc.tagged .root = true
  new : sc.tagged .new = false

namespace Scene.IsTimed

variable {I : Instance} {c : CompiledClip} {sc sc' : Scene} {s : Stage} {demanded demanded' : Prop}

/-- What keeps the timing keeps a scene timed. -/
theorem keep (h : sc.IsTimed s demanded) (hsame : sc.KeepsTiming sc') : sc'.IsTimed s demanded where
  tween := by
    obtain ⟨v, hv, hpos⟩ := h.tween
    exact ⟨v, hsame.tween.trans hv, hpos⟩
  interp hd hzero := hsame.interp.trans (h.interp hd (hsame.tween.symm.trans hzero))
  root := hsame.root.trans h.root
  new := hsame.new.trans h.new

/-- Less may be demanded. -/
theorem imp (h : sc.IsTimed s demanded) (himp : demanded' → demanded) : sc.IsTimed s demanded' :=
  { h with interp := fun hd => h.interp (himp hd) }

/-- A score counts as at least one just if it is positive. -/
theorem inRange_one {k : ScoreKey} {v : Int32} (h : sc.score k = some v) :
    inRange k (.atLeast 1) sc = decide (1 ≤ v.toInt) := by
  rw [inRange, h, Option.any_some, show (1 : Int32) = Int32.ofNat 1 from rfl,
    ScoreRange.contains_atLeast (by decide)]
  rfl

/-! ### Controls -/

/-- Playing from the start settles the interpolation duration. -/
theorem played (h : sc.IsTimed I.stage demanded) : (I.played c sc).IsTimed I.stage demanded' where
  tween := ⟨0, by simp [Instance.played, timeKey], by decide⟩
  interp _ _ := by simp [Instance.played]
  root := by simp [Instance.played, h.root]
  new := by simp [Instance.played, playingKey, h.new]

/-- So does going on. -/
theorem resumed (h : sc.IsTimed I.stage demanded) : (I.resumed c sc).IsTimed I.stage demanded' where
  tween := by
    obtain ⟨v, hv, hpos⟩ := h.tween
    exact ⟨v, by simp [Instance.resumed, hv], hpos⟩
  interp _ _ := by simp [Instance.resumed]
  root := by simp [Instance.resumed, h.root]
  new := by simp [Instance.resumed, playingKey, h.new]

/-- A tween that begins has a tick to go at least. -/
theorem tweenBegun_tween (hpos : 1 ≤ I.stage.config.tweenDuration)
    (hle : I.stage.config.tweenDuration ≤ 2147483647) (sc : Scene) :
    ∃ v : Int32, (I.tweenBegun sc).score .tween = some v ∧ 1 ≤ v.toInt := by
  have hstandard : 1 ≤ (Int32.ofNat I.stage.config.tweenDuration).toInt := by
    rw [Int32.toInt_ofNat_of_lt (by omega)]
    omega
  let standard := sc.set .tween (Int32.ofNat I.stage.config.tweenDuration)
  have hchosen : ∃ v : Int32, (if inRange .tweenRequest (.atLeast 1) standard then
      standard.set .tween ((standard.score .tweenRequest).getD 0) else standard).score .tween =
        some v ∧ 1 ≤ v.toInt := by
    split
    · rename_i hasked
      refine ⟨_, standard.set_score_self .tween _, ?_⟩
      cases hscore : standard.score .tweenRequest with
      | none =>
        rw [inRange, hscore] at hasked
        cases hasked
      | some v => exact of_decide_eq_true ((inRange_one hscore).symm.trans hasked)
    · exact ⟨_, sc.set_score_self .tween _, hstandard⟩
  obtain ⟨v, hv, hone⟩ := hchosen
  refine ⟨v, ?_, hone⟩
  rw [Instance.tweenBegun, I.synced_score]
  exact hv

/-- During a tween nothing is asked. -/
theorem tweenBegun (h : sc.IsTimed I.stage demanded) (hpos : 1 ≤ I.stage.config.tweenDuration)
    (hle : I.stage.config.tweenDuration ≤ 2147483647) :
    (I.tweenBegun sc).IsTimed I.stage demanded' := by
  obtain ⟨v, hv, hone⟩ := tweenBegun_tween hpos hle sc
  have htagged : (I.tweenBegun sc).tagged = sc.tagged := by
    unfold Instance.tweenBegun
    rw [I.synced_tagged]
    split <;> rfl
  constructor
  case tween => exact ⟨v, hv, by omega⟩
  case interp =>
    intro _ hzero
    obtain rfl : v = 0 := Option.some.inj (hv.symm.trans hzero)
    exact absurd hone (by decide)
  case root => exact htagged ▸ h.root
  case new => exact htagged ▸ h.new

/-- A tween sets the interpolation duration to its own length, which is positive. -/
theorem tweenPlayed (h : sc.IsTimed I.stage demanded) (hpos : 1 ≤ I.stage.config.tweenDuration)
    (hle : I.stage.config.tweenDuration ≤ 2147483647) :
    (I.tweenPlayed c sc).IsTimed I.stage demanded' :=
  ((h.keep (.setTime sc 0)).tweenBegun hpos hle).keep <|
    .trans (.tag (t := .suppress) nofun nofun _) <|
    .trans (.set (k := .frame) nofun nofun _ _) <|
    .trans (.dispatched _ _) <|
    .trans (.untag (t := .suppress) nofun nofun _) (.start _)

/-- So does a tween from where the animation stands. -/
theorem tweenResumed (h : sc.IsTimed I.stage demanded) (hpos : 1 ≤ I.stage.config.tweenDuration)
    (hle : I.stage.config.tweenDuration ≤ 2147483647) :
    (I.tweenResumed c sc).IsTimed I.stage demanded' :=
  (h.tweenBegun hpos hle).keep (.trans (.frameSet _) (.start _))

/-- After stopping nothing is known of the interpolation duration but that it is what it was. -/
theorem stopped (h : sc.IsTimed I.stage demanded) : (I.stopped c sc).IsTimed I.stage False where
  tween := ⟨0, by simp [Instance.stopped], by decide⟩
  interp hd := hd.elim
  root := by simp [Instance.stopped_tagged, playingKey, h.root]
  new := by simp [Instance.stopped_tagged, playingKey, h.new]

/-- What the scores of a new instance are, those of its animations apart. -/
theorem initiated_score {k : ScoreKey} (htime : ∀ a, k ≠ .localTime a)
    (hmode : ∀ a, k ≠ .loopMode a) (sc : Scene) : (I.initiated sc).score k =
      ((((sc.set .lifetime 0).set .frame 0).set .tween 0).set .interp I.stage.defaultInterp).score
        k :=
  foldl_same (fun sc : Scene => sc.score k) fun c _ sc => by simp [timeKey, modeKey, htime, hmode]

/-- A new instance has the default interpolation duration. -/
theorem initiated (hroot : sc.tagged .root = true) : (I.initiated sc).IsTimed I.stage demanded where
  tween := ⟨0, initiated_score (k := .tween) (fun _ => nofun) (fun _ => nofun) sc, by decide⟩
  interp _ _ := initiated_score (k := .interp) (fun _ => nofun) (fun _ => nofun) sc
  root := by
    let scores :=
      (((sc.set .lifetime 0).set .frame 0).set .tween 0).set .interp I.stage.defaultInterp
    have htagged : (Instance.settled I.clips scores).tagged = scores.tagged :=
      Instance.settled_same Scene.tagged I.clips fun _ _ _ => rfl
    exact (congrFun htagged .root).trans hroot
  new := rfl

/-! ### Ticks -/

/-- No animation advances during a tween, and without one their ticks do not begin one. -/
theorem keeps_clipsTicked (h : sc.IsTimed s demanded) (turns : List CompiledClip) :
    KeepsTiming sc (I.clipsTicked turns sc) := by
  induction turns generalizing sc with
  | nil => exact .refl sc
  | cons c rest ih =>
    have hstep : KeepsTiming sc (if sc.tagged (playingKey c) then I.ticked c sc else sc) := by
      refine .choose ?_ (.refl sc)
      unfold Instance.ticked
      split
      · exact .refl sc
      · -- a tween that is not negative and has no tick to go is over
        rename_i hrest
        obtain ⟨v, hv, hpos⟩ := h.tween
        rw [inRange_one hv, decide_eq_true_eq] at hrest
        have hzero : v = 0 := Int32.toInt_inj.1 (show v.toInt = 0 by omega)
        exact .advanced (hzero ▸ hv)
    exact hstep.trans (ih (h.keep hstep))

/-- A tick of a tween leaves a shorter one, or ends it with the default interpolation duration. -/
theorem tweened (h : sc.IsTimed I.stage demanded) (hrest : inRange .tween (.atLeast 1) sc = true) :
    (I.tweened sc).IsTimed I.stage demanded' := by
  obtain ⟨v, hv, -⟩ := h.tween
  rw [inRange_one hv, decide_eq_true_eq] at hrest
  -- a tick less, without an overflow
  have hless : (v - 1).toInt = v.toInt - 1 := by
    have hlt := v.toInt_lt
    rw [Int32.toInt_sub, show (1 : Int32).toInt = 1 from rfl,
      Int.bmod_eq_of_le (by omega) (by omega)]
  have htween : (I.tweened sc).score .tween = some (v - 1) := by
    unfold Instance.tweened
    rw [I.synced_score]
    split <;> simp [hv]
  constructor
  case tween => exact ⟨_, htween, by omega⟩
  case interp =>
    intro _ hzero
    -- the last tick: the duration goes back to the default
    have hover : v - 1 = 0 := Option.some.inj (htween.symm.trans hzero)
    simp [Instance.tweened, inRange, hv, hover, ScoreRange.contains, ScoreRange.atMost]
  case root =>
    unfold Instance.tweened
    rw [I.synced_tagged]
    split <;> exact h.root
  case new =>
    unfold Instance.tweened
    rw [I.synced_tagged]
    split <;> exact h.new

/-- A tick of all animations and of the tween. -/
theorem onTicked (h : sc.IsTimed I.stage demanded) : (I.onTicked sc).IsTimed I.stage demanded := by
  have haged := h.keep (.set (k := .lifetime) nofun nofun sc ((sc.score .lifetime).getD 0 + 1))
  have hmoved := haged.keep (haged.keeps_clipsTicked (I := I) I.clips)
  unfold Instance.onTicked
  dsimp only
  split
  · rename_i hrest
    exact hmoved.tweened hrest
  · exact hmoved

end Scene.IsTimed

namespace Stage

variable {s : Stage} {clips : List CompiledClip} {c : CompiledClip} {demanded demanded' : Prop}
  {name : String}

/-- Being timed is a policy, as it speaks of scores and tags alone. -/
theorem isPolicy_isTimed (s : Stage) (demanded : Nat → Prop) :
    IsPolicy fun r sc => sc.IsTimed s (demanded r) where
  root h := h.root
  new h := h.new
  said h := h.keep (.of_eq rfl rfl)

/-- Controls that set the interpolation duration, or begin a tween, see to what is demanded whatever
was before. -/
theorem brings_settled (hname : name ∈ ["play", "resume", "tween_play", "tween_resume"])
    (hc : c ∈ clips) (hpos : 1 ≤ s.config.tweenDuration)
    (hle : s.config.tweenDuration ≤ 2147483647) :
    s.Brings clips (·.IsTimed s demanded) (·.IsTimed s demanded')
      ((ClipPaths.ofClip s.names.namespaceName c.clip).control name) := by
  rintro I rfl rfl hI sc hsc
  have hruns := hI.runs hc
  simp only [List.mem_cons, List.not_mem_nil, or_false] at hname
  rcases hname with rfl | rfl | rfl | rfl
  · exact ⟨_, .deeper (by decide) (.play hruns), hsc.played⟩
  · exact ⟨_, .deeper (by decide) (.resume hruns), hsc.resumed⟩
  · exact ⟨_, .deeper (by decide) (.tweenPlay hruns), hsc.tweenPlayed hpos hle⟩
  · exact ⟨_, .deeper (by decide) (.tweenResume hruns), hsc.tweenResumed hpos hle⟩

/-- Controls that have nothing to do with tweens change nothing of it. -/
theorem brings_control (hname : name ∈ ["pause", "apply_frame", "set_frame"]) (hc : c ∈ clips) :
    s.Brings clips (·.IsTimed s demanded) (·.IsTimed s demanded)
      ((ClipPaths.ofClip s.names.namespaceName c.clip).control name) := by
  rintro I rfl rfl hI sc hsc
  have hruns := hI.runs hc
  simp only [List.mem_cons, List.not_mem_nil, or_false] at hname
  rcases hname with rfl | rfl | rfl
  · exact ⟨_, .deeper (by decide) (.pause hc), hsc.keep (.halt sc)⟩
  · exact ⟨_, .deeper (by decide) (.applyFrameAgain hruns), hsc.keep (.frameApplied sc)⟩
  · exact ⟨_, .deeper (by decide) (.setFrame hruns), hsc.keep (.frameSet sc)⟩

/-- Stopping ends a tween and leaves the interpolation duration as it is. -/
theorem brings_stop {v : Option Int32} (hc : c ∈ clips) :
    s.Brings clips (fun sc => sc.IsTimed s demanded ∧ sc.score .interp = v)
      (fun sc => sc.IsTimed s False ∧ sc.score .tween = some 0 ∧ sc.score .interp = v)
      ((ClipPaths.ofClip s.names.namespaceName c.clip).control "stop") := by
  rintro I rfl rfl hI sc ⟨hsc, hinterp⟩
  refine ⟨_, .deeper (by decide) (.stop (hI.runs hc)), hsc.stopped, ?_, ?_⟩
  · simp [Instance.stopped]
  · simp [Instance.stopped, timeKey, hinterp]

/-- Without a request, the interpolation duration becomes the configured length of tweens. -/
theorem brings_tweenPlay (hc : c ∈ clips) (hpos : 1 ≤ s.config.tweenDuration)
    (hle : s.config.tweenDuration ≤ 2147483647) :
    s.Brings clips (fun sc => sc.IsTimed s demanded ∧ sc.score .tweenRequest = none)
      (fun sc => sc.IsTimed s demanded' ∧
        sc.score .interp = some (Int32.ofNat s.config.tweenDuration))
      ((ClipPaths.ofClip s.names.namespaceName c.clip).control "tween_play") := by
  rintro I rfl rfl hI sc ⟨hsc, hrequest⟩
  refine ⟨_, .deeper (by decide) (.tweenPlay (hI.runs hc)), hsc.tweenPlayed hpos hle, ?_⟩
  simp [Instance.tweenPlayed, Instance.tweenBegun, inRange, timeKey, hrequest]

/-- Pausing all animations keeps a scene timed. -/
theorem brings_pauseAll :
    s.Brings clips (·.IsTimed s demanded) (·.IsTimed s demanded) (s.function "pause_all") := by
  rintro I rfl rfl - sc hsc
  exact ⟨_, .deeper (by decide) .pauseAll, hsc.keep (.allPaused _ sc)⟩

/-- So does a tick of the instance. -/
theorem brings_onTick :
    s.Brings clips (·.IsTimed s demanded) (·.IsTimed s demanded) (s.function "on_tick") := by
  rintro I rfl rfl hI sc hsc
  exact ⟨_, .onTick (hI.has .lifetime trivial) (hI.has .tween trivial) (hI.has .interp trivial)
    fun c hc _ => hI.runs hc, hsc.onTicked⟩

end Stage

end Marionette
