import Marionette.Proofs.Instance.Crowd
import Marionette.Proofs.Instance.Ticks

/-!
# How an animation advances

- `Clip.advance`: where a tick brings an animation, by the score of its loop mode, from any local
  time.
- `Standing`: where an animation stands; `Standing.next`: the same a tick later.
- `Instance.advanced_cases`: the animation goes on, starts again, stops, or holds its last frame.
- `Instance.standing_advanced`: so it stands where it should.
- `Instance.standing_onTicked`: where several animations advance, each of them does so by itself.
-/

namespace Marionette

/-- The local time a tick after another one, and whether the animation is still playing then. -/
def Clip.advance (clip : Clip) (mode : Option Int32) (time : Int32) : Int32 × Bool :=
  let next := time + 1
  if next < Int32.ofNat clip.duration then (next, true)
  else if mode = some LoopMode.loop.score then
    (if next < Int32.ofNat clip.duration + Int32.ofNat clip.loopDelay then next else 0, true)
  else if mode = some LoopMode.once.score then (0, false)
  else if mode = some LoopMode.hold.score then (Int32.ofNat (max clip.duration 1 - 1), false)
  else (next, true)

/-- Setting a score to what it is changes nothing. -/
theorem Scene.set_eq_self {sc : Scene} {k : ScoreKey} {v : Int32} (h : sc.score k = some v) :
    sc.set k v = sc := by
  have hscore : ∀ k', (if k' = k then some v else sc.score k') = sc.score k' := by
    intro k'
    split
    · rename_i hk
      rw [hk, h]
    · rfl
  exact congrArg (fun score => { sc with score := score }) (funext hscore)

/-- Where an animation stands. -/
structure Standing where
  /-- Its local time. -/
  time : Option Int32
  /-- The score of its loop mode. -/
  mode : Option Int32
  /-- It is playing. -/
  playing : Bool

/-- An animation that is playing advances at a tick. -/
def Standing.next (clip : Clip) (p : Standing) : Standing :=
  if p.playing then
    let (time, goes) := clip.advance p.mode (p.time.getD 0)
    { p with time := some time, playing := goes }
  else p

/-- An animation that is played once and stops is back at its first tick. -/
theorem Standing.time_next_of_once {clip : Clip} {p : Standing} (hplaying : p.playing = true)
    (honce : p.mode = some LoopMode.once.score) (hstops : (p.next clip).playing = false) :
    (p.next clip).time = some 0 := by
  have hloop : ¬some LoopMode.once.score = some LoopMode.loop.score := by decide
  unfold Standing.next Clip.advance at *
  simp only [hplaying, honce, hloop, if_true, if_false] at hstops ⊢
  by_cases hlt : p.time.getD 0 + 1 < Int32.ofNat clip.duration
  · rw [if_pos hlt] at hstops
    cases hstops
  · rw [if_neg hlt]

namespace Instance

variable {I : Instance} {c : CompiledClip} {sc : Scene}

theorem inRange_atLeast_of_score {k : ScoreKey} {v lo : Int32} (h : sc.score k = some v) :
    inRange k (.atLeast lo) sc = !decide (v < lo) := by
  simp [inRange, h, ScoreRange.contains, ScoreRange.atLeast, ← decide_not]

/-- Starting a loop again, once its delay is over. -/
theorem restarted_of_score {v : Int32} (hmode : sc.score (modeKey c) = some LoopMode.loop.score)
    (htime : sc.score (timeKey c) = some v) :
    restarted I c sc =
      let time := if v < Int32.ofNat c.clip.duration + Int32.ofNat c.clip.loopDelay then v else 0
      if time = 0 then I.synced (sc.set (timeKey c) 0) else sc := by
  have hloop : ∀ {sc : Scene}, sc.score (modeKey c) = some LoopMode.loop.score →
      inRange (modeKey c) (.exact 0) sc = true := fun h => by
    rw [inRange_exact h]
    rfl
  have hzero : (sc.set (timeKey c) 0).score (modeKey c) = some LoopMode.loop.score := by
    rw [← hmode]
    exact Scene.set_score_of_ne sc (k := timeKey c) (j := modeKey c) nofun 0
  unfold restarted
  dsimp only
  rw [if_pos (hloop hmode), inRange_atLeast_of_score htime]
  by_cases hpast : v < Int32.ofNat c.clip.duration + Int32.ofNat c.clip.loopDelay
  · -- the delay is not over yet
    simp only [hpast, decide_true, Bool.not_true, Bool.false_eq_true, if_false, if_true,
      hloop hmode, inRange_exact htime, decide_eq_true_eq]
    split
    · rename_i hv
      rw [Scene.set_eq_self (hv ▸ htime)]
    · rfl
  · simp only [hpast, decide_false, Bool.not_false, if_true, if_false, hloop hzero,
      inRange_exact (Scene.set_score_self sc (timeKey c) 0), decide_true]

/-- With a score that stands for no loop mode nothing happens at the end. -/
theorem ended_of_ne (hloop : sc.score (modeKey c) ≠ some LoopMode.loop.score)
    (honce : sc.score (modeKey c) ≠ some LoopMode.once.score)
    (hhold : sc.score (modeKey c) ≠ some LoopMode.hold.score) : ended I c sc = sc := by
  have hexact : ∀ {m : Int32}, sc.score (modeKey c) ≠ some m →
      inRange (modeKey c) (.exact m) sc = false := by
    intro m hm
    cases hscore : sc.score (modeKey c) with
    | none => rw [inRange, hscore, Option.any_none]
    | some v =>
      rw [inRange_exact hscore]
      exact decide_eq_false fun heq => hm (heq ▸ hscore)
  have hrestarted : restarted I c sc = sc := by
    simp only [restarted, show inRange (modeKey c) (.exact 0) sc = false from hexact hloop,
      Bool.false_eq_true, if_false]
  have hstopped : stoppedOnce I c sc = sc := by
    simp only [stoppedOnce, show inRange (modeKey c) (.exact 1) sc = false from hexact honce,
      Bool.false_eq_true, if_false]
  rw [ended, hrestarted, hstopped, held, show inRange (modeKey c) (.exact 2) sc = false from
    hexact hhold, if_neg Bool.false_ne_true]

/-- Where the animation stands when a tick begins matters no longer after it was stopped. -/
theorem stopped_setTime (v : Int32) : stopped I c (sc.set (timeKey c) v) = stopped I c sc := by
  unfold stopped
  rw [Scene.set_set]

/-- What a tick does to an animation that is playing: it goes on, starts again, stops, or holds its
last frame. -/
theorem advanced_cases (hduration : c.clip.duration ≤ 2147483647)
    (hplaying : sc.tagged (playingKey c) = true) {time : Int32} {goes : Bool}
    (h : c.clip.advance (sc.score (modeKey c)) ((sc.score (timeKey c)).getD 0) = (time, goes)) :
    (goes = true ∧ time = (sc.score (timeKey c)).getD 0 + 1 ∧
      advanced I c sc = I.dispatched c.tree ((sc.set (timeKey c) time).set .frame time)) ∨
    (goes = true ∧ time = 0 ∧ sc.score (modeKey c) = some LoopMode.loop.score ∧
      advanced I c sc = I.dispatched c.tree ((I.synced (sc.set (timeKey c) 0)).set .frame 0)) ∨
    (goes = false ∧ time = 0 ∧ sc.score (modeKey c) = some LoopMode.once.score ∧
      advanced I c sc = stopped I c sc) ∨
    (goes = false ∧ time = lastTick c ∧ sc.score (modeKey c) = some LoopMode.hold.score ∧
      advanced I c sc = (sc.set (timeKey c) time).untag (playingKey c)) := by
  let next := (sc.score (timeKey c)).getD 0 + 1
  let moved := sc.set (timeKey c) next
  have hnext : moved.score (timeKey c) = some next := Scene.set_score_self _ _ _
  have hmode : moved.score (modeKey c) = sc.score (modeKey c) :=
    Scene.set_score_of_ne sc (k := timeKey c) (j := modeKey c) nofun next
  -- while it is playing, the frame of its local time is applied
  have hfollow : ∀ {sc : Scene} {v : Int32}, sc.tagged (playingKey c) = true →
      sc.score (timeKey c) = some v → followed I c sc = I.dispatched c.tree (sc.set .frame v) := by
    intro sc v hplaying hv
    rw [followed, if_pos hplaying, hv, Option.getD_some]
  have hrest : ∀ {sc : Scene}, sc.tagged (playingKey c) = false → followed I c sc = sc := by
    intro sc hidle
    rw [followed, hidle, if_neg Bool.false_ne_true]
  have hadvanced : advanced I c sc =
      followed I c (if next < Int32.ofNat c.clip.duration then moved else ended I c moved) := by
    rw [advanced, passed, inRange_atLeast_of_score hnext]
    by_cases hlt : next < Int32.ofNat c.clip.duration <;> simp [hlt, moved, next]
  unfold Clip.advance at h
  dsimp only at h
  rw [hadvanced]
  by_cases hlt : next < Int32.ofNat c.clip.duration
  · rw [if_pos hlt] at h
    obtain ⟨rfl, rfl⟩ := Prod.mk.inj h
    rw [if_pos hlt]
    exact .inl ⟨rfl, rfl, hfollow hplaying hnext⟩
  rw [if_neg hlt] at h ⊢
  by_cases hloop : sc.score (modeKey c) = some LoopMode.loop.score
  · rw [if_pos hloop] at h
    obtain ⟨htime, rfl⟩ := Prod.mk.inj h
    rw [ended_loop (hmode.trans hloop), restarted_of_score (hmode.trans hloop) hnext, htime]
    by_cases hzero : time = 0
    · refine .inr (.inl ⟨rfl, hzero, hloop, ?_⟩)
      rw [if_pos hzero, show moved.set (timeKey c) 0 = sc.set (timeKey c) 0 from
        Scene.set_set _ _ _ _]
      exact hfollow (by rw [I.synced_tagged]; exact hplaying)
        (by rw [I.synced_score]; exact Scene.set_score_self _ _ _)
    · -- the delay goes on
      have hsame : next = time := by
        by_cases hpast : next < Int32.ofNat c.clip.duration + Int32.ofNat c.clip.loopDelay
        · exact (if_pos hpast).symm.trans htime
        · exact absurd ((if_neg hpast).symm.trans htime).symm hzero
      rw [if_neg hzero, ← hsame]
      exact .inl ⟨rfl, rfl, hfollow hplaying hnext⟩
  rw [if_neg hloop] at h
  by_cases honce : sc.score (modeKey c) = some LoopMode.once.score
  · rw [if_pos honce] at h
    obtain ⟨rfl, rfl⟩ := Prod.mk.inj h
    refine .inr (.inr (.inl ⟨rfl, rfl, honce, ?_⟩))
    rw [ended_once (hmode.trans honce), stopped_setTime]
    exact hrest (by simp [stopped_tagged])
  rw [if_neg honce] at h
  by_cases hhold : sc.score (modeKey c) = some LoopMode.hold.score
  · rw [if_pos hhold, ← lastTick_eq (Nat.lt_succ_of_le hduration)] at h
    obtain ⟨rfl, rfl⟩ := Prod.mk.inj h
    refine .inr (.inr (.inr ⟨rfl, rfl, hhold, ?_⟩))
    rw [ended_hold (hmode.trans hhold), Scene.set_set]
    exact hrest (by simp)
  · rw [if_neg hhold] at h
    obtain ⟨rfl, rfl⟩ := Prod.mk.inj h
    rw [ended_of_ne (hmode ▸ hloop) (hmode ▸ honce) (hmode ▸ hhold)]
    exact .inl ⟨rfl, rfl, hfollow hplaying hnext⟩

/-- Where no tween is running, none begins. -/
theorem inRange_tween_advanced (hduration : c.clip.duration ≤ 2147483647)
    (hplaying : sc.tagged (playingKey c) = true) (h : inRange .tween (.atLeast 1) sc = false) :
    inRange .tween (.atLeast 1) (advanced I c sc) = false := by
  cases hnext : c.clip.advance (sc.score (modeKey c)) ((sc.score (timeKey c)).getD 0) with
  | mk time goes =>
    obtain ⟨-, -, hgo⟩ | ⟨-, -, -, hagain⟩ | ⟨-, -, -, hstop⟩ | ⟨-, -, -, hhold⟩ :=
      advanced_cases (I := I) hduration hplaying hnext
    · simpa [hgo, inRange, timeKey] using h
    · simpa [hagain, inRange, timeKey] using h
    · simp only [hstop, inRange, stopped, Scene.untag_score, dispatched_score, Scene.set_score,
        Scene.tag_score]
      rfl
    · simpa [hhold, inRange, timeKey] using h

/-! ### Several animations -/

/-- Where an animation of a scene stands. -/
def standing (c : CompiledClip) (sc : Scene) : Standing :=
  ⟨sc.score (timeKey c), sc.score (modeKey c), sc.tagged (playingKey c)⟩

/-- After a tick, an animation that is playing stands where it should. -/
theorem standing_advanced (hduration : c.clip.duration ≤ 2147483647)
    (hplaying : sc.tagged (playingKey c) = true) :
    standing c (advanced I c sc) = (standing c sc).next c.clip := by
  have hmode : (advanced I c sc).score (modeKey c) = sc.score (modeKey c) :=
    advanced_same (p := fun sc => sc.score (modeKey c))
      ((isLasting_score (.inr ⟨_, rfl⟩) [c]).beside c (.head _)) sc
  cases hnext : c.clip.advance (sc.score (modeKey c)) ((sc.score (timeKey c)).getD 0) with
  | mk time goes =>
    have hthen : (standing c sc).next c.clip = ⟨some time, sc.score (modeKey c), goes⟩ := by
      simp only [Standing.next, standing, hplaying, hnext, if_true]
    rw [hthen, standing, hmode]
    obtain ⟨rfl, -, hgo⟩ | ⟨rfl, rfl, -, hagain⟩ | ⟨rfl, rfl, -, hstop⟩ | ⟨rfl, -, -, hhold⟩ :=
      advanced_cases (I := I) hduration hplaying hnext
    · simp [hgo, timeKey, hplaying]
    · simp [hagain, timeKey, hplaying]
    · simp [hstop, stopped, timeKey]
    · simp [hhold]

/-- Other animations have no part in where an animation stands. -/
theorem isBeside_standing {c' : CompiledClip} (h : c'.clip.storageName ≠ c.clip.storageName) :
    IsBeside c' (standing c) where
  time v sc := by
    have hkeys : timeKey c ≠ timeKey c' := fun heq => h (ScoreKey.localTime.inj heq).symm
    have hmode : modeKey c ≠ timeKey c' := nofun
    simp [standing, hkeys, hmode]
  tween v sc := by simp [standing, timeKey, modeKey]
  frame v sc := by simp [standing, timeKey, modeKey]
  suppress sc := by simp [standing, playingKey]
  release sc := by simp [standing, playingKey]
  halt sc := by
    have hkeys : playingKey c ≠ playingKey c' := fun heq => h (TagKey.playing.inj heq).symm
    simp [standing, hkeys]
  relook _ _ _ := rfl
  say _ _ _ := rfl

/-- Where no tween is running, animations that are playing advance, and begin no tween. -/
theorem clipsTicked_rest {clips : List CompiledClip}
    (hduration : ∀ c ∈ clips, c.clip.duration ≤ 2147483647)
    (h : inRange .tween (.atLeast 1) sc = false) :
    inRange .tween (.atLeast 1) (clipsTicked I clips sc) = false := by
  induction clips generalizing sc with
  | nil => exact h
  | cons c rest ih =>
    obtain ⟨hc, hrest⟩ := List.forall_mem_cons.1 hduration
    rw [clipsTicked, List.foldl_cons]
    refine ih hrest ?_
    split
    · rename_i hplaying
      rw [ticked, h, if_neg Bool.false_ne_true]
      exact inRange_tween_advanced hc hplaying h
    · exact h

/-- Each of them advances by itself, whatever the others do. -/
theorem standing_clipsTicked {clips : List CompiledClip}
    (hduration : ∀ c ∈ clips, c.clip.duration ≤ 2147483647)
    (hnames : (clips.map (·.clip.storageName)).Nodup) (hc : c ∈ clips)
    (h : inRange .tween (.atLeast 1) sc = false) :
    standing c (clipsTicked I clips sc) = (standing c sc).next c.clip := by
  obtain ⟨before, after, rfl⟩ := List.append_of_mem hc
  rw [List.map_append, List.map_cons] at hnames
  obtain ⟨-, hafter, hbefore⟩ := List.nodup_append.1 hnames
  have hbeside : ∀ c' ∈ before, IsBeside c' (standing c) := fun c' hc' =>
    isBeside_standing (hbefore _ (List.mem_map_of_mem hc') _ List.mem_cons_self)
  have hbeside' : ∀ c' ∈ after, IsBeside c' (standing c) := fun c' hc' =>
    isBeside_standing fun heq => (List.nodup_cons.1 hafter).1 (List.mem_map.2 ⟨c', hc', heq⟩)
  -- neither those before it nor those after it have a part in it
  let sc' := clipsTicked I before sc
  have hsame : standing c sc' = standing c sc := clipsTicked_same hbeside sc
  have hrest : inRange .tween (.atLeast 1) sc' = false :=
    clipsTicked_rest (fun c' hc' => hduration c' (List.mem_append_left _ hc')) h
  have hsteps : clipsTicked I (before ++ c :: after) sc = clipsTicked I after
      (if sc'.tagged (playingKey c) then ticked I c sc' else sc') := by
    rw [clipsTicked, List.foldl_append, List.foldl_cons]
    rfl
  rw [hsteps, clipsTicked_same hbeside', ← hsame]
  split
  · rename_i hplaying
    rw [ticked, hrest, if_neg Bool.false_ne_true, standing_advanced (hduration c hc) hplaying]
  · rename_i hidle
    exact (if_neg hidle).symm

/-- So they do at a tick of the instance. -/
theorem standing_onTicked (h : I.IsAble) (hc : c ∈ I.clips)
    (hrest : inRange .tween (.atLeast 1) sc = false) :
    standing c (onTicked I sc) = (standing c sc).next c.clip := by
  let aged := sc.set .lifetime ((sc.score .lifetime).getD 0 + 1)
  have haged : inRange .tween (.atLeast 1) aged = false := hrest
  unfold onTicked
  dsimp only
  rw [clipsTicked_rest h.duration_le haged, if_neg Bool.false_ne_true,
    standing_clipsTicked h.duration_le h.areCompiled.nodup_storageNames hc haged]
  rfl

/-! ### One animation -/

theorem ticks_root (sc : Scene) (n : Nat) :
    ((onTicked I)^[n] sc).tagged .root = sc.tagged .root := by
  induction n generalizing sc with
  | zero => rfl
  | succ n ih =>
    rw [Function.iterate_succ_apply]
    exact (ih _).trans (onTicked_root sc)

/-- No other animation advances, and no tween is running. -/
structure IsAlone (I : Instance) (c : CompiledClip) (sc : Scene) : Prop where
  rest : inRange .tween (.atLeast 1) sc = false
  others : ∀ c' ∈ I.clips, c'.clip.storageName ≠ c.clip.storageName →
    sc.tagged (playingKey c') = false

namespace IsAlone

/-- Playing an animation ends a tween. -/
theorem played (h : ∀ c' ∈ I.clips, c'.clip.storageName ≠ c.clip.storageName →
    sc.tagged (playingKey c') = false) : I.IsAlone c (played I c sc) where
  rest := by
    simp only [Instance.played, inRange, Scene.tag_score, synced_score, Scene.set_score,
      dispatched_score]
    rfl
  others c' hc' hne := by
    have hkeys : playingKey c' ≠ playingKey c := fun heq => hne (TagKey.playing.inj heq)
    simp [Instance.played, h c' hc' hne, hkeys]

theorem advanced (h : I.IsAlone c sc) (hduration : c.clip.duration ≤ 2147483647)
    (hplaying : sc.tagged (playingKey c) = true) : I.IsAlone c (advanced I c sc) where
  rest := inRange_tween_advanced hduration hplaying h.rest
  others c' hc' hne := by
    have hsame := advanced_same (I := I) (isBeside_standing hne.symm) sc
    exact (congrArg Standing.playing hsame).trans (h.others c' hc' hne)

variable (h : I.IsAlone c sc) (hc : c ∈ I.clips) (hduration : c.clip.duration ≤ 2147483647)
  (hnames : (I.clips.map (·.clip.storageName)).Nodup)

include h hc hduration hnames

/-- At a tick, only this animation has a turn, and no tween. -/
theorem onTicked_eq : Instance.onTicked I sc =
    let aged := sc.set .lifetime ((sc.score .lifetime).getD 0 + 1)
    if aged.tagged (playingKey c) then Instance.advanced I c aged else aged := by
  have haged : I.IsAlone c (sc.set .lifetime ((sc.score .lifetime).getD 0 + 1)) :=
    ⟨h.rest, h.others⟩
  unfold Instance.onTicked
  dsimp only
  rw [clipsTicked_alone hc haged.others hnames, ticked, haged.rest,
    if_neg Bool.false_ne_true]
  cases hplaying : (sc.set .lifetime ((sc.score .lifetime).getD 0 + 1)).tagged (playingKey c) with
  | true =>
    rw [if_pos rfl, inRange_tween_advanced hduration hplaying haged.rest]
    rfl
  | false =>
    rw [if_neg Bool.false_ne_true, haged.rest]
    rfl

theorem onTicked : I.IsAlone c (Instance.onTicked I sc) := by
  have haged : I.IsAlone c (sc.set .lifetime ((sc.score .lifetime).getD 0 + 1)) :=
    ⟨h.rest, h.others⟩
  rw [h.onTicked_eq hc hduration hnames]
  dsimp only
  split
  · exact haged.advanced hduration ‹_›
  · exact haged

theorem ticks (k : Nat) : I.IsAlone c ((Instance.onTicked I)^[k] sc) := by
  induction k with
  | zero => exact h
  | succ k ih =>
    rw [Function.iterate_succ_apply']
    exact ih.onTicked hc hduration hnames

end IsAlone

end Instance

end Marionette
