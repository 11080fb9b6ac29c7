import Marionette.Proofs.Instance.Advancing
import Marionette.Proofs.Instance.Interpolation

/-!
# The timeline of a tween

While a tween runs, its ticks are counted down once for the whole instance, and no animation
advances.

- `Config.tweenLength`: how many ticks a tween takes, by what was asked for.
- `Instance.Tweens`: so many ticks of a tween are left, and the animations stand as they stood.
- `Instance.stoodFor`: where they stand while a tween to the start of one of them runs.
- `Tweens.played`: so it is when a tween to the start of an animation begins.
- `Tweens.onTicked`: a tick leaves one tick less and moves no animation.
-/

namespace Marionette

/-- How many ticks a tween takes: as many as were asked for, if that is a tick at least, and else as
many as are configured. -/
def Config.tweenLength (config : Config) : Option Int32 → Nat
  | some ticks => if 1 ≤ ticks.toInt then ticks.toInt.toNat else config.tweenDuration
  | none => config.tweenDuration

theorem Config.tweenLength_pos {config : Config} (hpos : 1 ≤ config.tweenDuration)
    (request : Option Int32) : 1 ≤ config.tweenLength request := by
  unfold tweenLength
  split
  · split
    · omega
    · exact hpos
  · exact hpos

theorem Config.tweenLength_le {config : Config} (hle : config.tweenDuration ≤ 2147483647)
    (request : Option Int32) : config.tweenLength request ≤ 2147483647 := by
  unfold tweenLength
  split
  · rename_i ticks
    have hlt := ticks.toInt_lt
    split
    · omega
    · exact hle
  · exact hle

namespace Instance

variable {I : Instance} {c : CompiledClip} {sc : Scene} {left : Nat}
    {stood : CompiledClip → Standing}

/-- So many ticks of a tween are left, and the animations stand as they stood. -/
structure Tweens (I : Instance) (stood : CompiledClip → Standing) (left : Nat)
    (sc : Scene) : Prop where
  tween : sc.score .tween = some (Int32.ofNat left)
  interp : sc.score .interp = some (if left = 0 then I.stage.defaultInterp else Int32.ofNat left)
  request : sc.score .tweenRequest = none
  stands : ∀ c ∈ I.clips, standing c sc = stood c
  root : sc.tagged .root = true

/-- Where the animations stand while a tween to the start of one of them runs. -/
def stoodFor (c : CompiledClip) (sc : Scene) (c' : CompiledClip) : Standing :=
  if c'.clip.storageName = c.clip.storageName then
    { standing c sc with time := some 0, playing := true }
  else standing c' sc

/-- Scores and tags that belong to no animation have no part in where it stands. -/
theorem standing_congr {sc' : Scene}
    (hscore : ∀ a, sc'.score (.localTime a) = sc.score (.localTime a) ∧
    sc'.score (.loopMode a) = sc.score (.loopMode a))
      (htagged : ∀ a, sc'.tagged (.playing a) = sc.tagged (.playing a)) :
    standing c sc' = standing c sc := by
  simp only [standing, timeKey, modeKey, playingKey, hscore, htagged]

/-- What a tween begins with. -/
theorem tweenBegun_eq (sc : Scene) : I.tweenBegun sc =
    let length := Int32.ofNat (I.stage.config.tweenLength (sc.score .tweenRequest))
    I.synced (((sc.set .tween length).unset .tweenRequest).set .interp length) := by
  let standard := sc.set .tween (Int32.ofNat I.stage.config.tweenDuration)
  have hchosen : (if inRange .tweenRequest (.atLeast 1) standard then
      standard.set .tween ((standard.score .tweenRequest).getD 0) else standard) =
      sc.set .tween (Int32.ofNat (I.stage.config.tweenLength (sc.score .tweenRequest))) := by
    have hsame : standard.score .tweenRequest = sc.score .tweenRequest :=
      sc.set_score_of_ne (k := .tween) (j := .tweenRequest) nofun _
    cases hrequest : sc.score .tweenRequest with
    | none =>
      rw [inRange, hsame, hrequest, Option.any_none, if_neg Bool.false_ne_true]
      rfl
    | some ticks =>
      rw [Scene.IsTimed.inRange_one (hsame.trans hrequest), hsame, hrequest, Config.tweenLength]
      by_cases hone : 1 ≤ ticks.toInt
      · have hlt := ticks.toInt_lt
        have hticks : Int32.ofNat ticks.toInt.toNat = ticks := by
          rw [← Int32.toInt_inj, Int32.toInt_ofNat_of_lt (by omega)]
          omega
        rw [if_pos (decide_eq_true hone), if_pos hone, hticks]
        exact Scene.set_set _ _ _ _
      · rw [if_neg (by simpa using hone), if_neg hone]
  unfold tweenBegun
  dsimp only
  rw [hchosen]
  rfl

namespace Tweens

/-- While a tween runs, no animation has a tick. -/
theorem clipsTicked_eq (h : inRange .tween (.atLeast 1) sc = true) (clips : List CompiledClip) :
    clipsTicked I clips sc = sc := by
  induction clips with
  | nil => rfl
  | cons c rest ih =>
    rw [clipsTicked, List.foldl_cons, ticked, if_pos h, ite_self]
    exact ih

/-- A tween to the start of an animation begins: all other animations stand where they stood. -/
theorem played (hroot : sc.tagged .root = true) (hpos : 1 ≤ I.stage.config.tweenDuration) :
    I.Tweens (stoodFor c sc) (I.stage.config.tweenLength (sc.score .tweenRequest))
      (tweenPlayed I c sc) := by
  have hlength := Config.tweenLength_pos hpos (sc.score .tweenRequest)
  have hrequest : (sc.set (timeKey c) 0).score .tweenRequest = sc.score .tweenRequest :=
    sc.set_score_of_ne (k := timeKey c) (j := .tweenRequest) (by simp [timeKey]) 0
  constructor
  case tween =>
    rw [tweenPlayed, tweenBegun_eq, hrequest]
    simp
  case interp =>
    rw [tweenPlayed, tweenBegun_eq, hrequest, if_neg (Nat.ne_of_gt hlength)]
    simp
  case request => simp [tweenPlayed, tweenBegun_eq]
  case root => simp [tweenPlayed, tweenBegun_eq, playingKey, hroot]
  case stands =>
    intro c' _
    simp only [stoodFor, standing, tweenPlayed, tweenBegun_eq, timeKey, modeKey, playingKey]
    by_cases hname : c'.clip.storageName = c.clip.storageName
    · simp [hname]
    · have hplaying : TagKey.playing c'.clip.storageName ≠ .playing c.clip.storageName :=
        fun heq => hname (TagKey.playing.inj heq)
      have hother : TagKey.playing c'.clip.storageName ≠ .suppress := by simp
      simp [hname, beq_false_of_ne hplaying, beq_false_of_ne hother, bne_iff_ne.2 hother]

/-- What was recorded does not matter. -/
theorem said (h : I.Tweens stood left sc) (output : List RawOutput) :
    I.Tweens stood left { sc with output := output } :=
  ⟨h.tween, h.interp, h.request, h.stands, h.root⟩

/-- A tick leaves one tick less, and all animations stand where they stood. -/
theorem onTicked (h : I.Tweens stood (left + 1) sc) (hle : left + 1 ≤ 2147483647) :
    I.Tweens stood left (onTicked I sc) := by
  let aged := sc.set .lifetime ((sc.score .lifetime).getD 0 + 1)
  have hone : inRange .tween (.atLeast 1) aged = true := by
    refine (Scene.IsTimed.inRange_one (h.tween : aged.score .tween = _)).trans (decide_eq_true ?_)
    rw [Int32.toInt_ofNat_of_lt (by omega)]
    omega
  have hless : Int32.ofNat (left + 1) - 1 = Int32.ofNat left := by
    rw [Int32.ofNat_add]
    exact Int32.add_sub_cancel _ _
  have hover : (ScoreRange.atMost 0).contains (Int32.ofNat left) = decide (left = 0) := by
    have hiff : Int32.ofNat left ≤ 0 ↔ left = 0 := by
      rw [Int32.le_iff_toInt_le, Int32.toInt_ofNat_of_lt (by omega)]
      show (left : Int) ≤ 0 ↔ _
      omega
    simp [ScoreRange.contains, ScoreRange.atMost, hiff]
  have hticked : Instance.onTicked I sc = tweened I aged := by
    unfold Instance.onTicked
    dsimp only
    rw [clipsTicked_eq hone, if_pos hone]
  have hscore : ∀ k, (tweened I aged).score k = if k = .interp then
        some (if left = 0 then I.stage.defaultInterp else Int32.ofNat left)
      else if k = .tween then some (Int32.ofNat left) else aged.score k := by
    intro k
    have htween : aged.score .tween = some (Int32.ofNat (left + 1)) := h.tween
    simp only [tweened, synced_score, htween, Option.getD_some, hless,
      Scene.set_score_self, inRange, Scene.set_score, reduceCtorEq, if_false, Option.any_some,
      hover, decide_eq_true_eq]
    by_cases hzero : left = 0
    · by_cases hk : k = .interp <;> simp [hzero, hk]
    · by_cases hk : k = .interp <;> simp [hzero, hk]
  have htagged : (tweened I aged).tagged = sc.tagged := by
    unfold tweened
    dsimp only
    rw [synced_tagged]
    split <;> rfl
  rw [hticked]
  constructor
  case tween => simp [hscore]
  case interp => simp [hscore]
  case request => exact (hscore .tweenRequest).trans (by simpa [aged] using h.request)
  case stands =>
    intro c hc
    rw [← h.stands c hc]
    refine standing_congr (fun a => ⟨?_, ?_⟩) fun a => congrFun htagged _
    · simp [hscore, aged]
    · simp [hscore, aged]
  case root => exact (congrFun htagged _).trans h.root

/-- When no tick of it is left, the animations go on. -/
theorem standing_onTicked (h : I.Tweens stood 0 sc) (hI : I.IsAble) (hc : c ∈ I.clips) :
    standing c (Instance.onTicked I sc) = (stood c).next c.clip := by
  rw [← h.stands c hc]
  exact Instance.standing_onTicked hI hc (by rw [inRange, h.tween]; rfl)

end Tweens

end Instance

end Marionette
