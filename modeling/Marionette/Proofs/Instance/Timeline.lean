import Marionette.Proofs.Instance.Ticks

/-!
# The timeline of an animation

Where an animation stands after a number of ticks, as long as nothing else controls it.

- `Clip.position`: the playback position and whether the animation advances, in closed form;
  `Clip.after`: the same from one tick to the next.
- `Instance.Stands`: an animation stands at a position, and no other one advances.
- `Stands.played`, `Stands.onTicked`: playing leads to the start, and a tick to the next position.
-/

namespace Marionette

/-- The playback position of an animation a number of ticks after its start, and whether it is still
advancing. -/
def Clip.position (clip : Clip) (k : Nat) : Nat × Bool :=
  match clip.loopMode with
  | .loop =>
    (if clip.duration + clip.loopDelay = 0 then 0 else k % (clip.duration + clip.loopDelay), true)
  | .once => if k < max clip.duration 1 then (k, true) else (0, false)
  | .hold => if k < max clip.duration 1 then (k, true) else (max clip.duration 1 - 1, false)

/-- The position a tick after another one. -/
def Clip.after (clip : Clip) (p : Nat × Bool) : Nat × Bool :=
  if p.2 then
    if p.1 + 1 < clip.duration then (p.1 + 1, true)
    else match clip.loopMode with
    | .loop => (if clip.duration + clip.loopDelay ≤ p.1 + 1 then 0 else p.1 + 1, true)
    | .once => (0, false)
    | .hold => (max clip.duration 1 - 1, false)
  else p

namespace Clip

/-- An animation starts at 0, and advances from there. -/
theorem position_zero (clip : Clip) : clip.position 0 = (0, true) := by
  unfold position
  cases clip.loopMode <;> simp

/-- An animation that advances has not come to its end. -/
theorem position_lt (clip : Clip) (k : Nat) (h : (clip.position k).2 = true) :
    (clip.position k).1 < max (clip.duration + clip.loopDelay) 1 := by
  unfold position at h ⊢
  cases hmode : clip.loopMode with
  | loop =>
    simp only [hmode] at h ⊢
    by_cases hzero : clip.duration + clip.loopDelay = 0
    · rw [if_pos hzero]
      omega
    · rw [if_neg hzero]
      have := Nat.mod_lt k (y := clip.duration + clip.loopDelay) (by omega)
      omega
  | once | hold =>
    simp only [hmode] at h ⊢
    by_cases hk : k < max clip.duration 1
    · rw [if_pos hk]
      show k < _
      omega
    · rw [if_neg hk] at h
      cases h

/-- Counting in circles goes on by one or starts again. -/
theorem mod_succ {m : Nat} (hm : 0 < m) (k : Nat) :
    (k + 1) % m = if m ≤ k % m + 1 then 0 else k % m + 1 := by
  have hlt := Nat.mod_lt k hm
  rw [← Nat.mod_add_mod]
  split
  · rw [show k % m + 1 = m by omega, Nat.mod_self]
  · exact Nat.mod_eq_of_lt (by omega)

/-- The closed form goes from one tick to the next. -/
theorem position_succ (clip : Clip) (k : Nat) :
    clip.position (k + 1) = clip.after (clip.position k) := by
  unfold position after
  cases hmode : clip.loopMode with
  | loop =>
    simp only [if_true]
    by_cases hzero : clip.duration + clip.loopDelay = 0
    · rw [if_pos hzero, if_neg (by omega), if_pos (by omega)]
    · rw [if_neg hzero, if_neg hzero, mod_succ (by omega)]
      by_cases hnext : k % (clip.duration + clip.loopDelay) + 1 < clip.duration
      · rw [if_pos hnext, if_neg (by omega)]
      · rw [if_neg hnext]
  | once | hold =>
    by_cases hk : k < max clip.duration 1
    · simp only [if_pos hk, if_true]
      by_cases hnext : k + 1 < clip.duration
      · rw [if_pos hnext, if_pos (by omega)]
      · rw [if_neg hnext, if_neg (by omega)]
    · simp only [if_neg hk, Bool.false_eq_true, if_false]
      rw [if_neg (by omega)]

end Clip

namespace Instance

variable {I : Instance} {c : CompiledClip} {sc : Scene} {k : Nat}

/-- Bounds on ticks are compared as ticks, since both fit into a score. -/
theorem inRange_atLeast {key : ScoreKey} {n m : Nat} (h : sc.score key = some (Int32.ofNat n))
    (hn : n < 2 ^ 31) (hm : m < 2 ^ 31) :
    inRange key (.atLeast (Int32.ofNat m)) sc = decide (m ≤ n) := by
  rw [inRange, h, Option.any_some, ScoreRange.contains_atLeast hm, Int32.toInt_ofNat_of_lt hn]
  simp

/-- A score is in the range of one number if it is that number. -/
theorem inRange_exact {key : ScoreKey} {v m : Int32} (h : sc.score key = some v) :
    inRange key (.exact m) sc = decide (v = m) := by
  rw [inRange, h, Option.any_some, ScoreRange.contains_exact]

/-! ### The end of an animation -/

/-- At its end a looping animation does not stop or hold. -/
theorem ended_loop (h : sc.score (modeKey c) = some LoopMode.loop.score) :
    ended I c sc = restarted I c sc := by
  have hmode : (restarted I c sc).score (modeKey c) = some LoopMode.loop.score := by
    have hkeys : modeKey c ≠ timeKey c := nofun
    unfold restarted
    dsimp only
    repeat' split
    all_goals simp [hkeys, h]
  have honce : stoppedOnce I c (restarted I c sc) = restarted I c sc := by
    rw [stoppedOnce, inRange_exact hmode]
    rfl
  rw [ended, honce, held, inRange_exact hmode]
  rfl

/-- Only a looping animation starts again. -/
theorem restarted_of_ne_loop {v : Int32} (h : sc.score (modeKey c) = some v) (hv : v ≠ 0) :
    restarted I c sc = sc := by
  unfold restarted
  simp only [inRange_exact h, decide_eq_false hv, Bool.false_eq_true, if_false]

/-- One that plays once stops. -/
theorem ended_once (h : sc.score (modeKey c) = some LoopMode.once.score) :
    ended I c sc = stopped I c sc := by
  have hmode : (stopped I c sc).score (modeKey c) = some LoopMode.once.score := by
    have hkeys : modeKey c ≠ timeKey c := nofun
    have hkeys' : modeKey c ≠ .tween ∧ modeKey c ≠ .frame := ⟨nofun, nofun⟩
    simp [stopped, hkeys, hkeys', h]
  have honce : stoppedOnce I c sc = stopped I c sc := by
    rw [stoppedOnce, inRange_exact h]
    rfl
  rw [ended, restarted_of_ne_loop h (by decide), honce, held, inRange_exact hmode]
  rfl

/-- One that holds stays at its last tick, without advancing. -/
theorem ended_hold (h : sc.score (modeKey c) = some LoopMode.hold.score) :
    ended I c sc = (sc.set (timeKey c) (lastTick c)).untag (playingKey c) := by
  have honce : stoppedOnce I c sc = sc := by
    rw [stoppedOnce, inRange_exact h]
    rfl
  rw [ended, restarted_of_ne_loop h (by decide), honce, held, inRange_exact h]
  rfl

/-- The last tick is computed within the range of scores. -/
theorem lastTick_eq (h : c.clip.duration < 2 ^ 31) :
    lastTick c = Int32.ofNat (max c.clip.duration 1 - 1) :=
  ofNat_lastTick h

/-! ### From one tick to the next -/

/-- An animation stands at a position of its timeline, without a tween, and no other animation
advances. -/
structure Stands (I : Instance) (c : CompiledClip) (p : Nat × Bool) (sc : Scene) : Prop where
  time : sc.score (timeKey c) = some (Int32.ofNat p.1)
  playing : sc.tagged (playingKey c) = p.2
  mode : sc.score (modeKey c) = some c.clip.loopMode.score
  tween : sc.score .tween = some 0
  root : sc.tagged .root = true
  others : ∀ c' ∈ I.clips, c'.clip.storageName ≠ c.clip.storageName →
    sc.tagged (playingKey c') = false

namespace Stands

variable {p : Nat × Bool}

/-- Only these scores and tags matter. -/
theorem congr {sc' : Scene} (h : I.Stands c p sc)
    (hscore : ∀ key, key = timeKey c ∨ key = modeKey c ∨ key = .tween →
      sc'.score key = sc.score key) (htagged : sc'.tagged = sc.tagged) : I.Stands c p sc' where
  time := (hscore _ (.inl rfl)).trans h.time
  playing := htagged ▸ h.playing
  mode := (hscore _ (.inr (.inl rfl))).trans h.mode
  tween := (hscore _ (.inr (.inr rfl))).trans h.tween
  root := htagged ▸ h.root
  others := htagged ▸ h.others

/-- How long the instance has been there does not matter. -/
theorem age (h : I.Stands c p sc) (v : Int32) : I.Stands c p (sc.set .lifetime v) := by
  refine h.congr (fun key hkey => if_neg ?_) rfl
  rcases hkey with rfl | rfl | rfl
  all_goals nofun

/-- Moving an animation to a time. -/
theorem setTime (h : I.Stands c p sc) (n : Nat) :
    I.Stands c (n, p.2) (sc.set (timeKey c) (Int32.ofNat n)) where
  time := if_pos rfl
  playing := h.playing
  mode := by simpa [modeKey, timeKey] using h.mode
  tween := by simpa [timeKey] using h.tween
  root := h.root
  others := h.others

/-- Halting it where it is. -/
theorem halt (h : I.Stands c p sc) : I.Stands c (p.1, false) (sc.untag (playingKey c)) where
  time := h.time
  playing := by simp
  mode := h.mode
  tween := h.tween
  root := by simp [h.root, playingKey]
  others := fun c' hc' hne => by simp [h.others c' hc' hne]

/-- Stopping takes it back to the start. -/
theorem stop (h : I.Stands c p sc) : I.Stands c (0, false) (stopped I c sc) where
  time := by simp [stopped, timeKey]
  playing := by simp [stopped_tagged]
  mode := by simp [stopped, modeKey, timeKey, ← h.mode]
  tween := by simp [stopped]
  root := by simp [stopped_tagged, h.root, playingKey]
  others := fun c' hc' hne => by rw [stopped_tagged, h.others c' hc' hne, Bool.and_false]

/-- Starting again happens when the delay is over, and not before. -/
theorem restart {n : Nat} {b : Bool} (h : I.Stands c (n, b) sc) (hI : I.Plays c) (hn : n < 2 ^ 31)
    (hmode : c.clip.loopMode = .loop) :
    I.Stands c (if c.clip.duration + c.clip.loopDelay ≤ n then 0 else n, b) (restarted I c sc) := by
  have hlength := hI.length_le
  have hover : Int32.ofNat c.clip.duration + Int32.ofNat c.clip.loopDelay =
      Int32.ofNat (c.clip.duration + c.clip.loopDelay) := (Int32.ofNat_add _ _).symm
  have hsynced : ∀ {m : Nat} {sc : Scene}, I.Stands c (m, b) sc → I.Stands c (m, b)
      (if inRange (timeKey c) (.exact 0) sc then I.synced sc else sc) := by
    intro m sc h
    split
    · exact h.congr (fun _ _ => by rw [synced_score]) (synced_tagged sc)
    · exact h
  have hloop : ∀ {m : Nat} {sc : Scene}, I.Stands c (m, b) sc →
      inRange (modeKey c) (.exact 0) sc = true := by
    intro m sc h
    rw [inRange_exact h.mode, hmode]
    rfl
  let past := ScoreRange.atLeast (Int32.ofNat (c.clip.duration + c.clip.loopDelay))
  -- beyond the delay the time starts again, and only then are the poses synchronized
  have hagain : I.Stands c (if c.clip.duration + c.clip.loopDelay ≤ n then 0 else n, b)
      (if inRange (modeKey c) (.exact 0) sc then
        if inRange (timeKey c) past sc then sc.set (timeKey c) 0 else sc
      else sc) := by
    rw [if_pos (hloop h), inRange_atLeast h.time hn (by omega)]
    simp only [decide_eq_true_eq]
    split
    · exact h.setTime 0
    · exact h
  unfold restarted
  rw [hover]
  dsimp only
  rw [if_pos (hloop hagain)]
  exact hsynced hagain

/-- Coming to the end, or not, leads to the position after the last one. -/
theorem pass {n : Nat} (h : I.Stands c (n + 1, true) sc) (hI : I.Plays c)
    (hn : n < max (c.clip.duration + c.clip.loopDelay) 1) :
    I.Stands c (c.clip.after (n, true)) (passed I c sc) := by
  have hlength := hI.length_le
  unfold passed Clip.after
  rw [inRange_atLeast h.time (show n + 1 < 2 ^ 31 by omega) (show _ < 2 ^ 31 by omega)]
  simp only [decide_eq_true_eq, if_true]
  by_cases hend : c.clip.duration ≤ n + 1
  · -- what the end does is decided by the score of the loop mode
    rw [if_pos hend, if_neg (by omega)]
    have hmode := h.mode
    cases hloop : c.clip.loopMode with
    | loop =>
      rw [hloop] at hmode
      rw [ended_loop hmode]
      exact h.restart hI (by omega) hloop
    | once =>
      rw [hloop] at hmode
      rw [ended_once hmode]
      exact h.stop
    | hold =>
      rw [hloop] at hmode
      rw [ended_hold hmode, lastTick_eq (by omega)]
      exact (h.setTime _).halt
  · rw [if_neg hend, if_pos (by omega)]
    exact h

/-- Applying the frame of the time moves nothing. -/
theorem follow (h : I.Stands c p sc) : I.Stands c p (followed I c sc) := by
  unfold followed
  split
  · refine h.congr (fun key hkey => ?_) (dispatched_tagged _ _)
    rw [dispatched_score]
    refine if_neg ?_
    rcases hkey with rfl | rfl | rfl
    all_goals nofun
  · exact h

/-- A tick of the animation while it advances. -/
theorem tick {k : Nat} (h : I.Stands c (c.clip.position k) sc) (hI : I.Plays c)
    (hplaying : (c.clip.position k).2 = true) :
    I.Stands c (c.clip.position (k + 1)) (ticked I c sc) := by
  have hlt := c.clip.position_lt k hplaying
  have htween : inRange .tween (.atLeast 1) sc = false := by
    rw [inRange, h.tween]
    decide
  have hnext : (sc.score (timeKey c)).getD 0 + 1 = Int32.ofNat ((c.clip.position k).1 + 1) := by
    rw [h.time, Option.getD_some, Int32.ofNat_add]
    rfl
  rw [ticked, htween, if_neg Bool.false_ne_true, advanced, hnext, c.clip.position_succ]
  have hset := h.setTime ((c.clip.position k).1 + 1)
  rw [hplaying] at hset
  rw [show c.clip.position k = ((c.clip.position k).1, true) from Prod.ext rfl hplaying]
  exact (hset.pass hI hlt).follow

end Stands

/-- Where no animation advances, none has a tick. -/
theorem clipsTicked_none {clips : List CompiledClip}
    (h : ∀ c ∈ clips, sc.tagged (playingKey c) = false) : clipsTicked I clips sc = sc := by
  induction clips with
  | nil => rfl
  | cons c rest ih =>
    rw [clipsTicked, List.foldl_cons, h c List.mem_cons_self, if_neg Bool.false_ne_true]
    exact ih fun c' hc' => h c' (List.mem_cons_of_mem _ hc')

/-- Of all animations, only the one that advances has a tick. -/
theorem clipsTicked_alone (hc : c ∈ I.clips)
    (hothers : ∀ c' ∈ I.clips, c'.clip.storageName ≠ c.clip.storageName →
      sc.tagged (playingKey c') = false)
    (hnames : (I.clips.map (·.clip.storageName)).Nodup) :
    clipsTicked I I.clips sc = if sc.tagged (playingKey c) then ticked I c sc else sc := by
  obtain ⟨before, after, hclips⟩ := List.append_of_mem hc
  rw [hclips, List.map_append, List.map_cons] at hnames
  obtain ⟨-, hafter, hbefore⟩ := List.nodup_append.1 hnames
  have hidle : ∀ c', c' ∈ before ∨ c' ∈ after → sc.tagged (playingKey c') = false := by
    rintro c' (hc' | hc')
    · refine hothers c' (hclips ▸ List.mem_append_left _ hc') ?_
      exact hbefore _ (List.mem_map_of_mem hc') _ List.mem_cons_self
    · refine hothers c' (hclips ▸ List.mem_append_right _ (List.mem_cons_of_mem _ hc')) ?_
      exact fun heq => (List.nodup_cons.1 hafter).1 (List.mem_map.2 ⟨c', hc', heq⟩)
  -- a tick of one animation does not start the ones after it
  have hlast : ∀ sc' : Scene, sc.StartsNone sc' → clipsTicked I after sc' = sc' := by
    refine fun sc' hstarts => clipsTicked_none fun c' hc' => Bool.eq_false_iff.2 fun htag => ?_
    exact Bool.false_ne_true ((hidle c' (.inr hc')).symm.trans (hstarts _ htag))
  rw [hclips, clipsTicked, List.foldl_append, List.foldl_cons]
  rw [show before.foldl _ sc = sc from clipsTicked_none fun c' hc' => hidle c' (.inl hc')]
  split
  · exact hlast _ (startsNone_ticked sc)
  · exact hlast _ (.of_tagged_eq rfl)

namespace Stands

variable {p : Nat × Bool}

/-- In a tick only this animation has its turn, as the others do not advance. -/
theorem clipsTicked_eq (h : I.Stands c p sc) (hc : c ∈ I.clips)
    (hnames : (I.clips.map (·.clip.storageName)).Nodup) :
    clipsTicked I I.clips sc = if p.2 then ticked I c sc else sc := by
  rw [← h.playing]
  exact clipsTicked_alone hc h.others hnames

/-- A tick leads to the next position. -/
theorem onTicked {k : Nat} (h : I.Stands c (c.clip.position k) sc) (hI : I.Plays c)
    (hnames : (I.clips.map (·.clip.storageName)).Nodup) :
    I.Stands c (c.clip.position (k + 1)) (onTicked I sc) := by
  have haged := h.age ((sc.score .lifetime).getD 0 + 1)
  have hmoved : I.Stands c (c.clip.position (k + 1))
      (clipsTicked I I.clips (sc.set .lifetime ((sc.score .lifetime).getD 0 + 1))) := by
    rw [haged.clipsTicked_eq hI.mem hnames]
    split
    · rename_i hplaying
      exact haged.tick hI hplaying
    · rename_i hplaying
      rw [c.clip.position_succ, Clip.after, if_neg hplaying]
      exact haged
  unfold Instance.onTicked
  dsimp only
  rw [inRange, hmoved.tween, if_neg (by decide)]
  exact hmoved

/-- Playing leads to the start. -/
theorem played (hmode : sc.score (modeKey c) = some c.clip.loopMode.score)
    (hroot : sc.tagged .root = true)
    (hothers : ∀ c' ∈ I.clips, c'.clip.storageName ≠ c.clip.storageName →
      sc.tagged (playingKey c') = false) :
    I.Stands c (c.clip.position 0) (played I c sc) := by
  rw [c.clip.position_zero]
  refine ⟨?_, ?_, ?_, ?_, ?_, fun c' hc' hne => ?_⟩
  · simp [Instance.played, timeKey]
  · simp [Instance.played]
  · simpa [Instance.played, timeKey, modeKey] using hmode
  · simp [Instance.played]
  · simp [Instance.played, hroot]
  · have hkeys : playingKey c' ≠ playingKey c := fun heq => hne (TagKey.playing.inj heq)
    simp [Instance.played, hothers c' hc' hne, hkeys]

end Stands

/-- The scene after playing an animation and a number of ticks. -/
def sceneAfter (I : Instance) (c : CompiledClip) (sc : Scene) : Nat → Scene
  | 0 => played I c sc
  | k + 1 => onTicked I (sceneAfter I c sc k)

end Instance

/-- A tick more is a tick at the end. -/
theorem World.on_ticks_succ (n : Nat) (w : World) :
    Run.on (World.ticks (n + 1)) w = Run.on (World.ticks n >>= fun _ => World.tick) w := by
  induction n generalizing w with
  | zero =>
    show Run.on (World.tick >>= fun _ => Pure.pure ()) w = Run.on (Pure.pure () >>= _) w
    rw [Run.on_bind, Run.on_bind_ok (Run.on_pure () w)]
    rcases Run.on World.tick w with ⟨_ | _, w'⟩ <;> rfl
  | succ n ih =>
    show Run.on (World.tick >>= fun _ => World.ticks (n + 1)) w =
      Run.on ((World.tick >>= fun _ => World.ticks n) >>= fun _ => World.tick) w
    rw [Run.on_bind, Run.on_bind, Run.on_bind]
    rcases Run.on World.tick w with ⟨e | a, w'⟩
    · rfl
    · exact (ih w').trans (Run.on_bind _ _ _)

namespace Instance

variable {I : Instance} {c : CompiledClip} {sc : Scene} {w : World}

/-- The instance is ready to play: it stands alone, and nothing advances. -/
structure Ready (I : Instance) (c : CompiledClip) (w : World) (sc : Scene) : Prop where
  shows : I.Shows w sc
  ticks : I.Ticks
  alone : I.Alone w
  plays : I.Plays c
  nodup_names : (I.clips.map (·.clip.storageName)).Nodup
  mode : sc.score (modeKey c) = some c.clip.loopMode.score
  root : sc.tagged .root = true
  others : ∀ c' ∈ I.clips, c'.clip.storageName ≠ c.clip.storageName →
    sc.tagged (playingKey c') = false

namespace Ready

/-- After any number of ticks the animation stands where its timeline says. -/
theorem stands (h : I.Ready c w sc) (k : Nat) :
    I.Stands c (c.clip.position k) (sceneAfter I c sc k) := by
  induction k with
  | zero => exact Stands.played h.mode h.root h.others
  | succ k ih => exact ih.onTicked h.plays h.nodup_names

/-- Playing and any number of ticks lead to the scene after them. -/
theorem play_ticks (h : I.Ready c w sc) :
    ∃ w₁, Run.on (World.run ((I.paths c).control "play") (some I.root)) w = (.ok (), w₁) ∧
      ∀ k, ∃ w₂, Run.on (World.ticks k) w₁ = (.ok (), w₂) ∧
        I.Reaches w (sceneAfter I c sc k) w₂ := by
  obtain ⟨w₁, hplay, hreach⟩ := h.shows.run (by decide) (Takes.play h.plays.runs)
  refine ⟨w₁, hplay, fun k => ?_⟩
  induction k with
  | zero => exact ⟨w₁, rfl, hreach⟩
  | succ k ih =>
    obtain ⟨w₂, hticks, hreach₂⟩ := ih
    have hstands := h.stands k
    -- whatever advances is the animation itself
    have hplays : ∀ c' ∈ I.clips, (sceneAfter I c sc k).tagged (playingKey c') = true →
        I.Runs c' := by
      intro c' hc' htag
      by_cases hname : c'.clip.storageName = c.clip.storageName
      · rw [List.inj_on_of_nodup_map h.nodup_names hc' h.plays.mem hname]
        exact h.plays.runs
      · rw [hstands.others c' hc' hname] at htag
        cases htag
    obtain ⟨w₃, htick, hreach₃⟩ := hreach₂.1.tick h.ticks (h.alone.of_keeps hreach₂.2)
      hstands.root hplays
    refine ⟨w₃, ?_, hreach₂.trans hreach₃⟩
    rw [World.on_ticks_succ, Run.on_bind_ok hticks, htick]

end Ready

end Instance

end Marionette
