import Marionette.Proofs.Instance.Resuming
import Marionette.Proofs.Instance.Summon
import Marionette.Proofs.Instance.Timeline

/-!
# Playback state stays in range

- `Clip.positions`: how many positions an animation goes through.
- `Scene.IsInRange`: the tween is not negative, every animation has its own loop mode and is at one
  of its positions, and nothing is suppressed.
- `IsInRange.congr`: what else there is of a scene does not matter.
- `IsInRange.played`, `IsInRange.ticked` and others: controls and ticks keep to the range.
-/

namespace Marionette

/-- How many positions an animation goes through: a loop also those of its delay. -/
def Clip.positions (clip : Clip) : Nat :=
  max 1 (match clip.loopMode with
    | .loop => clip.duration + clip.loopDelay
    | .once | .hold => clip.duration)

/-- An animation has a position at least, even with no length. -/
theorem Clip.positions_pos (clip : Clip) : 0 < clip.positions :=
  Nat.lt_of_lt_of_le Nat.zero_lt_one (Nat.le_max_left _ _)

/-- All positions fit into a score. -/
theorem Clip.positions_le (clip : Clip) (h : clip.duration + clip.loopDelay ≤ 2147483647) :
    clip.positions ≤ 2147483647 := by
  unfold positions
  split <;> omega

/-- The score is bounded. -/
def ScoreKey.isBounded : ScoreKey → Bool
  | tween | localTime _ | loopMode _ => true
  | _ => false

/-- The tag is there, or not, all the time. -/
def TagKey.isFixed : TagKey → Bool
  | playing _ => false
  | _ => true

/-- The playback state of an instance is in range. -/
structure Scene.IsInRange (clips : List CompiledClip) (sc : Scene) : Prop where
  tween : ∃ v : Int32, sc.score .tween = some v ∧ 0 ≤ v.toInt
  mode : ∀ c ∈ clips, sc.score (Instance.modeKey c) = some c.clip.loopMode.score
  time : ∀ c ∈ clips, ∃ n, sc.score (Instance.timeKey c) = some (Int32.ofNat n) ∧
    n < c.clip.positions
  root : sc.tagged .root = true
  suppress : sc.tagged .suppress = false
  new : sc.tagged .new = false

namespace Scene

theorem set_score_of_ne (sc : Scene) {k j : ScoreKey} (h : j ≠ k) (v : Int32) :
    (sc.set k v).score j = sc.score j :=
  if_neg h

/-- Setting a score twice is setting it once. -/
theorem set_set (sc : Scene) (k : ScoreKey) (v v' : Int32) :
    (sc.set k v).set k v' = sc.set k v' := by
  have hscore : ∀ k', (if k' = k then some v' else if k' = k then some v else sc.score k') =
      if k' = k then some v' else sc.score k' := by
    intro k'
    split
    · rfl
    · rfl
  exact congrArg (fun score => { sc with score := score }) (funext hscore)

namespace IsInRange

variable {clips : List CompiledClip} {sc sc' : Scene} {c : CompiledClip}

/-- Other scores, and which animations advance, do not matter. -/
theorem congr (h : sc.IsInRange clips)
    (hscore : ∀ k, k.isBounded = true → sc'.score k = sc.score k)
    (htagged : ∀ t, t.isFixed = true → sc'.tagged t = sc.tagged t) : sc'.IsInRange clips where
  tween := by
    obtain ⟨v, hv, hpos⟩ := h.tween
    exact ⟨v, (hscore _ rfl).trans hv, hpos⟩
  mode c hc := (hscore _ rfl).trans (h.mode c hc)
  time c hc := by
    obtain ⟨n, hn, hlt⟩ := h.time c hc
    exact ⟨n, (hscore _ rfl).trans hn, hlt⟩
  root := (htagged _ rfl).trans h.root
  suppress := (htagged _ rfl).trans h.suppress
  new := (htagged _ rfl).trans h.new

/-- Scenes with the same scores and tags are in range together. -/
theorem same (h : sc.IsInRange clips) (hscore : sc'.score = sc.score)
    (htagged : sc'.tagged = sc.tagged) : sc'.IsInRange clips :=
  h.congr (fun k _ => congrFun hscore k) fun t _ => congrFun htagged t

/-- A score without bounds may be set to anything. -/
theorem setFree (h : sc.IsInRange clips) {k : ScoreKey} (hk : k.isBounded = false) (v : Int32) :
    (sc.set k v).IsInRange clips := by
  refine h.congr (fun k' hk' => if_neg ?_) fun _ _ => rfl
  rintro rfl
  rw [hk] at hk'
  cases hk'

/-- The tween may be set to what is not negative. -/
theorem setTween (h : sc.IsInRange clips) {v : Int32} (hv : 0 ≤ v.toInt) :
    (sc.set .tween v).IsInRange clips where
  tween := ⟨v, sc.set_score_self .tween v, hv⟩
  mode c hc :=
    (sc.set_score_of_ne (k := .tween) (j := .loopMode _) (by nofun) v).trans (h.mode c hc)
  time c hc := by
    obtain ⟨n, hn, hlt⟩ := h.time c hc
    exact ⟨n, (sc.set_score_of_ne (k := .tween) (j := .localTime _) (by nofun) v).trans hn, hlt⟩
  root := h.root
  suppress := h.suppress
  new := h.new

/-- An animation is brought to one of its positions; the others stay where they are. -/
theorem setTime (h : sc.IsInRange clips) (hnames : (clips.map (·.clip.storageName)).Nodup)
    (hc : c ∈ clips) {n : Nat} (hn : n < c.clip.positions) :
    (sc.set (Instance.timeKey c) (Int32.ofNat n)).IsInRange clips where
  tween := by
    obtain ⟨v, hv, hpos⟩ := h.tween
    exact ⟨v, (sc.set_score_of_ne (k := .localTime _) (j := .tween) (by nofun) _).trans hv, hpos⟩
  mode c' hc' :=
    (sc.set_score_of_ne (k := .localTime _) (j := .loopMode _) (by nofun) _).trans (h.mode c' hc')
  time c' hc' := by
    by_cases hsame : Instance.timeKey c' = Instance.timeKey c
    · obtain rfl := List.inj_on_of_nodup_map hnames hc' hc (ScoreKey.localTime.inj hsame)
      exact ⟨n, sc.set_score_self _ _, hn⟩
    · obtain ⟨n', hn', hlt⟩ := h.time c' hc'
      exact ⟨n', (sc.set_score_of_ne hsame _).trans hn', hlt⟩
  root := h.root
  suppress := h.suppress
  new := h.new

/-- An animation may go back to its start. -/
theorem setStart (h : sc.IsInRange clips) (hnames : (clips.map (·.clip.storageName)).Nodup)
    (hc : c ∈ clips) : (sc.set (Instance.timeKey c) 0).IsInRange clips :=
  h.setTime hnames hc (n := 0) c.clip.positions_pos

/-- A score without bounds may even be unset. -/
theorem unsetFree (h : sc.IsInRange clips) {k : ScoreKey} (hk : k.isBounded = false) :
    (sc.unset k).IsInRange clips := by
  refine h.congr (fun k' hk' => if_neg ?_) fun _ _ => rfl
  rintro rfl
  rw [hk] at hk'
  cases hk'

/-- Which animations advance is free: one may start. -/
theorem start (h : sc.IsInRange clips) (a : String) : (sc.tag (.playing a)).IsInRange clips :=
  h.congr (fun _ _ => rfl) fun t ht => by cases t <;> first | rfl | cases ht

/-- And one may halt. -/
theorem halt (h : sc.IsInRange clips) (a : String) : (sc.untag (.playing a)).IsInRange clips :=
  h.congr (fun _ _ => rfl) fun t ht => by cases t <;> first | rfl | cases ht

/-- What happens beside the poses may be suppressed for a while. -/
theorem suppressed (h : sc.IsInRange clips)
    (hscore : ∀ k, k.isBounded = true → sc'.score k = sc.score k)
    (htagged : sc'.tagged = (sc.tag .suppress).tagged) : (sc'.untag .suppress).IsInRange clips := by
  refine h.congr hscore fun t _ => ?_
  rw [untag_tagged, htagged, tag_tagged]
  by_cases ht : t = .suppress
  · rw [ht, h.suppress]
    rfl
  · rw [bne_iff_ne.2 ht, beq_false_of_ne ht]
    rfl

end IsInRange

end Scene

namespace Scene.IsInRange

open Instance

variable {I : Instance} {c : CompiledClip} {sc : Scene} {clips : List CompiledClip}

/-- Telling the nodes about interpolation changes no score. -/
theorem synced (h : sc.IsInRange clips) : (I.synced sc).IsInRange clips :=
  h.same (synced_score sc) (synced_tagged sc)

/-- Neither does the lookup of a frame. -/
theorem dispatched (h : sc.IsInRange clips) (tree : DispatchTree) :
    (I.dispatched tree sc).IsInRange clips :=
  h.same (dispatched_score tree sc) (dispatched_tagged tree sc)

/-! ### Controls -/

variable (hnames : (clips.map (·.clip.storageName)).Nodup) (hc : c ∈ clips)

include hnames hc in
/-- Playing goes to the start and sets a tween of no length. -/
theorem played (h : sc.IsInRange clips) : (played I c sc).IsInRange clips := by
  have hstart : (((sc.set (timeKey c) 0).set .tween 0).set .interp 0).IsInRange clips :=
    ((h.setStart hnames hc).setTween (v := 0) (by decide)).setFree rfl 0
  have hshown := (hstart.synced (I := I)).setFree (k := .frame) rfl 0 |>.dispatched (I := I) c.tree
  exact ((hshown.setFree (k := .interp) rfl _).synced (I := I)).start _

/-- Going on sets no bounded score. -/
theorem resumed (h : sc.IsInRange clips) : (resumed I c sc).IsInRange clips :=
  ((h.start _).setFree (k := .interp) rfl _).synced

include hnames hc in
/-- Stopping goes to the start, too; the suppress tag is given and taken again. -/
theorem stopped (h : sc.IsInRange clips) : (stopped I c sc).IsInRange clips := by
  have hstart : ((sc.set (timeKey c) 0).set .tween 0).IsInRange clips :=
    (h.setStart hnames hc).setTween (v := 0) (by decide)
  refine (hstart.suppressed (fun k hk => ?_) ?_).halt _
  · rw [dispatched_score, set_score, if_neg, tag_score]
    rintro rfl
    cases hk
  · rw [dispatched_tagged, set_tagged]

/-- A tween is as long as the configuration says, so that it must fit into a score. -/
theorem tweenBegun (h : sc.IsInRange clips) (htween : I.stage.config.tweenDuration ≤ 2147483647) :
    (tweenBegun I sc).IsInRange clips := by
  have hstandard : (sc.set .tween (Int32.ofNat I.stage.config.tweenDuration)).IsInRange clips := by
    refine h.setTween ?_
    rw [Int32.toInt_ofNat_of_lt (by omega)]
    omega
  -- a tween is as long as was asked for, or as the configuration says
  have hchosen : ∀ {sc : Scene}, sc.IsInRange clips →
      (if inRange .tweenRequest (.atLeast 1) sc then
        sc.set .tween ((sc.score .tweenRequest).getD 0) else sc).IsInRange clips := by
    intro sc h
    split
    · rename_i hasked
      -- a request that counts is at least one
      unfold inRange at hasked
      cases hscore : sc.score .tweenRequest with
      | none =>
        rw [hscore] at hasked
        cases hasked
      | some v =>
        rw [hscore, Option.any_some, show (1 : Int32) = Int32.ofNat 1 from rfl,
          ScoreRange.contains_atLeast (by decide), decide_eq_true_eq] at hasked
        refine h.setTween ?_
        rw [Option.getD_some]
        omega
    · exact h
  exact (((hchosen hstandard).unsetFree rfl).setFree (k := .interp) rfl _).synced

include hnames hc in
/-- A tween to the start. -/
theorem tweenPlayed (h : sc.IsInRange clips) (htween : I.stage.config.tweenDuration ≤ 2147483647) :
    (tweenPlayed I c sc).IsInRange clips := by
  have hbegun := (h.setStart hnames hc).tweenBegun (I := I) htween
  refine (hbegun.suppressed (fun k hk => ?_) ?_).start _
  · rw [dispatched_score, set_score, if_neg, tag_score]
    rintro rfl
    cases hk
  · rw [dispatched_tagged, set_tagged]

/-- The frame score is free. -/
theorem frameSet (h : sc.IsInRange clips) : (frameSet I c sc).IsInRange clips := by
  refine h.suppressed (fun k hk => ?_) ?_
  · rw [sought_score, set_score, if_neg, tag_score]
    rintro rfl
    cases hk
  · rw [sought_tagged, set_tagged]

/-- A tween to where the animation stands. -/
theorem tweenResumed (h : sc.IsInRange clips) (htween : I.stage.config.tweenDuration ≤ 2147483647) :
    (tweenResumed I c sc).IsInRange clips :=
  ((h.tweenBegun htween).frameSet).start _

/-- Applying the current frame. -/
theorem frameApplied (h : sc.IsInRange clips) : (frameApplied I c sc).IsInRange clips :=
  (h.setFree (k := .frame) rfl _).dispatched _

/-- Pausing any animations. -/
theorem allPaused (h : sc.IsInRange clips) (paused : List CompiledClip) :
    (allPaused paused sc).IsInRange clips := by
  induction paused generalizing sc with
  | nil => exact h
  | cons c rest ih => exact ih (h.halt _)

/-- Every animation starts at its first position. -/
theorem settled_time (h : sc.score (timeKey c) = some 0 ∨ c ∈ clips) :
    (settled clips sc).score (timeKey c) = some 0 := by
  induction clips generalizing sc with
  | nil => exact h.resolve_right List.not_mem_nil
  | cons c' rest ih =>
    refine ih ?_
    have hmode : timeKey c ≠ modeKey c' := nofun
    by_cases htime : timeKey c = timeKey c'
    · exact .inl (by rw [set_score_of_ne _ hmode, htime, set_score_self])
    · refine h.imp (fun hstart => by simp [hmode, htime, hstart]) fun hc => ?_
      exact (List.mem_cons.1 hc).resolve_left fun heq => htime (heq ▸ rfl)

/-- A new instance is in range, with all animations at their start. -/
theorem initiated (hnames : (I.clips.map (·.clip.storageName)).Nodup)
    (hroot : sc.tagged .root = true) (hsuppress : sc.tagged .suppress = false) :
    (initiated I sc).IsInRange I.clips := by
  let scores :=
    ((sc.set .lifetime 0).set .frame 0).set .tween 0 |>.set .interp I.stage.defaultInterp
  have hsettled : (settled I.clips scores).tagged = scores.tagged :=
    settled_same Scene.tagged I.clips fun _ _ _ => rfl
  -- a new instance is new no longer, and has its other tags
  have htagged : ∀ t, (Instance.initiated I sc).tagged t = (t != .new && sc.tagged t) := fun t =>
    congrArg (t != .new && ·) (congrFun hsettled t)
  constructor
  case tween =>
    have htween : (settled I.clips scores).score .tween = scores.score .tween :=
      foldl_same (fun sc : Scene => sc.score .tween) fun c _ sc => by simp [timeKey, modeKey]
    exact ⟨0, htween.trans rfl, by decide⟩
  case mode => exact fun c hc => settled_mode hc hnames
  case time => exact fun c hc => ⟨0, settled_time (.inr hc), c.clip.positions_pos⟩
  case root => exact (htagged .root).trans hroot
  case suppress => exact (htagged .suppress).trans hsuppress
  case new => exact htagged .new

/-! ### Ticks -/

/-- At the end of a loop, the animation starts again once its delay is over. -/
theorem restarted_loop {n : Nat} (hmode : sc.score (modeKey c) = some LoopMode.loop.score)
    (htime : sc.score (timeKey c) = some (Int32.ofNat n)) (hn : n < 2 ^ 31)
    (hlength : c.clip.duration + c.clip.loopDelay ≤ 2147483647) :
    let next := if c.clip.duration + c.clip.loopDelay ≤ n then sc.set (timeKey c) 0 else sc
    restarted I c sc = I.synced next ∨ restarted I c sc = next := by
  have hover : Int32.ofNat c.clip.duration + Int32.ofNat c.clip.loopDelay =
      Int32.ofNat (c.clip.duration + c.clip.loopDelay) := (Int32.ofNat_add _ _).symm
  have hloop : inRange (modeKey c) (.exact 0) sc = true := (inRange_exact hmode).trans (by decide)
  have hpast :
      inRange (timeKey c) (.atLeast (Int32.ofNat (c.clip.duration + c.clip.loopDelay))) sc =
      decide (c.clip.duration + c.clip.loopDelay ≤ n) := inRange_atLeast htime hn (by omega)
  unfold restarted
  simp only [hover, hloop, hpast, if_true, decide_eq_true_eq]
  generalize (if c.clip.duration + c.clip.loopDelay ≤ n then sc.set (timeKey c) 0 else sc) = next
  split
  · split
    · exact .inl rfl
    · exact .inr rfl
  · exact .inr rfl

section

variable (hlength : c.clip.duration + c.clip.loopDelay ≤ 2147483647)

include hnames hc hlength in
/-- A tick later the animation is at its next position, or at the one where it starts again or
stays. -/
theorem passed (h : sc.IsInRange clips) {n : Nat} (hn : n < c.clip.positions) :
    (passed I c (sc.set (timeKey c) (Int32.ofNat (n + 1)))).IsInRange clips := by
  let next := sc.set (timeKey c) (Int32.ofNat (n + 1))
  have hpositions := c.clip.positions_le hlength
  have htime : next.score (timeKey c) = some (Int32.ofNat (n + 1)) := sc.set_score_self _ _
  have hmode : next.score (modeKey c) = some c.clip.loopMode.score :=
    (sc.set_score_of_ne (k := timeKey c) (j := modeKey c) (by nofun) _).trans (h.mode c hc)
  unfold Instance.passed
  rw [inRange_atLeast htime (by omega) (by omega)]
  simp only [decide_eq_true_eq]
  by_cases hend : c.clip.duration ≤ n + 1
  · rw [if_pos hend]
    cases hloop : c.clip.loopMode with
    | loop =>
      rw [hloop] at hmode
      rw [ended_loop hmode]
      -- beyond the delay the animation starts again, and else it is at its next position
      have hagain : (if c.clip.duration + c.clip.loopDelay ≤ n + 1 then
          next.set (timeKey c) 0 else next).IsInRange clips := by
        split
        · rw [set_set]
          exact h.setStart hnames hc
        · refine h.setTime hnames hc ?_
          unfold Clip.positions
          rw [hloop]
          dsimp only
          omega
      rcases restarted_loop (I := I) hmode htime (by omega) hlength with heq | heq
      · rw [heq]
        exact hagain.synced
      · rw [heq]
        exact hagain
    | once =>
      rw [hloop] at hmode
      rw [ended_once hmode]
      have hstopped : Instance.stopped I c next = Instance.stopped I c sc := by
        unfold Instance.stopped
        rw [set_set]
      exact hstopped ▸ h.stopped hnames hc
    | hold =>
      rw [hloop] at hmode
      rw [ended_hold hmode, set_set, lastTick_eq (by omega)]
      refine (h.setTime hnames hc ?_).halt _
      unfold Clip.positions
      rw [hloop]
      dsimp only
      omega
  · rw [if_neg hend]
    refine h.setTime hnames hc ?_
    unfold Clip.positions
    split <;> omega

include hnames hc hlength in
/-- A tick of an animation that advances keeps the scene in range. -/
theorem ticked (h : sc.IsInRange clips) : (ticked I c sc).IsInRange clips := by
  unfold Instance.ticked
  split
  · exact h
  · obtain ⟨n, hn, hlt⟩ := h.time c hc
    have hnext : (sc.score (timeKey c)).getD 0 + 1 = Int32.ofNat (n + 1) := by
      rw [hn, Option.getD_some, Int32.ofNat_add]
      rfl
    have hpassed := h.passed (I := I) hnames hc hlength hlt
    unfold Instance.advanced followed
    rw [hnext]
    split
    · exact (hpassed.setFree (k := .frame) rfl _).dispatched _
    · exact hpassed

end

/-- A tick of a tween that is not over yet. -/
theorem tweened (h : sc.IsInRange clips) (hrest : inRange .tween (.atLeast 1) sc = true) :
    (tweened I sc).IsInRange clips := by
  obtain ⟨v, hv, -⟩ := h.tween
  have hpos : 1 ≤ v.toInt := by
    rw [inRange, hv, Option.any_some, show (1 : Int32) = Int32.ofNat 1 from rfl,
      ScoreRange.contains_atLeast (by decide), decide_eq_true_eq] at hrest
    exact hrest
  have hless : 0 ≤ ((sc.score .tween).getD 0 - 1).toInt := by
    have hlt := v.toInt_lt
    rw [hv, Option.getD_some, Int32.toInt_sub, show (1 : Int32).toInt = 1 from rfl,
      Int.bmod_eq_of_le (by omega) (by omega)]
    omega
  have hshown := (h.setTween hless).setFree (k := .interp) rfl
    (((sc.set .tween ((sc.score .tween).getD 0 - 1)).score .tween).getD 0)
  unfold Instance.tweened
  refine IsInRange.synced ?_
  split
  · exact hshown.setFree rfl _
  · exact hshown

include hnames in
/-- The ticks of several animations, one after the other. -/
theorem clipsTicked (h : sc.IsInRange clips) {turns : List CompiledClip}
    (hturns : ∀ c ∈ turns, c ∈ clips ∧ c.clip.duration + c.clip.loopDelay ≤ 2147483647) :
    (clipsTicked I turns sc).IsInRange clips := by
  induction turns generalizing sc with
  | nil => exact h
  | cons c rest ih =>
    obtain ⟨⟨hc, hlength⟩, hrest⟩ := List.forall_mem_cons.1 hturns
    refine ih ?_ hrest
    dsimp only
    split
    · exact h.ticked hnames hc hlength
    · exact h

/-- A tick of all animations and of the tween. -/
theorem onTicked (h : sc.IsInRange I.clips) (hnames : (I.clips.map (·.clip.storageName)).Nodup)
    (hlength : ∀ c ∈ I.clips, c.clip.duration + c.clip.loopDelay ≤ 2147483647) :
    (onTicked I sc).IsInRange I.clips := by
  have haged : (sc.set .lifetime ((sc.score .lifetime).getD 0 + 1)).IsInRange I.clips :=
    h.setFree rfl _
  have hmoved := haged.clipsTicked (I := I) hnames fun c hc => ⟨hc, hlength c hc⟩
  unfold Instance.onTicked
  dsimp only
  split
  · rename_i hrest
    exact hmoved.tweened hrest
  · exact hmoved

end Scene.IsInRange

end Marionette
