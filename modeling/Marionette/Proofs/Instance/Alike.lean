import Marionette.Proofs.Instance.Advancing
import Marionette.Proofs.Instance.Places
import Marionette.Proofs.Instance.Records
import Marionette.Proofs.Instance.Resuming

/-!
# Scenes that are alike

Nothing that ticks do depends on how old an instance is, or on how its nodes blend into their poses.
So where two scenes differ in this only, they go on to do so; and a break of an animation is such a
difference.

- `Instance.Alike`: scenes that differ in nothing else.
- `Alike.framed`, `Alike.advanced` and their like: what is done in both scenes leaves them alike.
- `Alike.onTicked`: so does a tick, with all animations and the tween.
- `alike_ticks_of_rest`: where nothing advances, ticks lead to scenes that are alike.
- `alike_of_break`: pausing an animation that advances alone and resuming it later does so as well.
-/

namespace Marionette

namespace Instance

variable {I : Instance} {c : CompiledClip} {sc sc' : Scene} {slot : Slot} {frame : Frame} {r : Nat}

/-! ### Places -/

/-- A change of looks brings a passenger somewhere that depends only on where it is. -/
theorem placeOf_relookNode_congr {name : String} {g : Look → Look}
    (hg : ∀ look look', look'.place = look.place → (g look').place = (g look).place)
    (h : placeOf sc' r = placeOf sc r) :
    placeOf (I.relookNode name g sc') r = placeOf (I.relookNode name g sc) r := by
  refine List.foldl_rel (r := fun sc' sc => placeOf sc' r = placeOf sc r) h fun id _ sc' sc h => ?_
  split
  · unfold placeOf at h ⊢
    simp only [Scene.relook_look]
    split
    · exact hg _ _ h
    · exact h
  · exact h

/-- So do poses. -/
theorem placeOf_posed_congr {flags : List (Slot × Bool)} (h : placeOf sc' r = placeOf sc r) :
    placeOf (I.posed frame flags sc') r = placeOf (I.posed frame flags sc) r := by
  refine List.foldl_rel (r := fun sc' sc => placeOf sc' r = placeOf sc r) h
    fun flag _ sc' sc h => ?_
  cases frame.entry? flag.1.node.uuid with
  | none => exact h
  | some entry =>
    simp only [updated]
    split
    · refine placeOf_relookNode_congr (fun look look' hlook => ?_) h
      rw [Look.place_poseData, Look.place_poseData, hlook]
    · split
      · refine placeOf_relookNode_congr (fun look look' hlook => ?_) h
        rw [Look.place_moved, Look.place_moved, hlook]
      · exact h

/-! ### Alike -/

/-- The scenes differ in the age of the instance and in how its nodes blend, and in nothing else. -/
structure Alike (sc sc' : Scene) : Prop where
  score : ∀ k, k ≠ .lifetime → k ≠ .interp → sc'.score k = sc.score k
  tagged : sc'.tagged = sc.tagged
  place : ∀ r, placeOf sc' r = placeOf sc r
  output : sc'.output = sc.output

namespace Alike

theorem refl (sc : Scene) : Alike sc sc :=
  ⟨fun _ _ _ => rfl, rfl, fun _ => rfl, rfl⟩

theorem symm (h : Alike sc sc') : Alike sc' sc :=
  ⟨fun k hk hk' => (h.score k hk hk').symm, h.tagged.symm, fun r => (h.place r).symm, h.output.symm⟩

/-- Likeness passes on, as it compares the same parts each time. -/
theorem trans {sc'' : Scene} (h : Alike sc sc') (h' : Alike sc' sc'') : Alike sc sc'' :=
  ⟨fun k hk hk' => (h'.score k hk hk').trans (h.score k hk hk'), h'.tagged.trans h.tagged,
    fun r => (h'.place r).trans (h.place r), h'.output.trans h.output⟩

/-! ### What is done in one scene only -/

/-- The lifetime is not compared. -/
theorem age (sc : Scene) (v : Int32) : Alike sc (sc.set .lifetime v) :=
  ⟨fun _ hk _ => if_neg hk, rfl, fun _ => rfl, rfl⟩

theorem interp (sc : Scene) (v : Int32) : Alike sc (sc.set .interp v) :=
  ⟨fun _ _ hk => if_neg hk, rfl, fun _ => rfl, rfl⟩

/-- What nodes are told about interpolation is not compared. -/
theorem sync (sc : Scene) : Alike sc (I.synced sc) :=
  ⟨fun k _ _ => congrFun (synced_score sc) k, synced_tagged sc, fun _ => placeOf_synced sc,
    synced_output sc⟩

/-! ### What is done in both -/

section

variable (h : Alike sc sc')

include h

/-- Setting the same score in both keeps them alike, and so do the same tags. -/
theorem set (k : ScoreKey) (v : Int32) : Alike (sc.set k v) (sc'.set k v) where
  score k' hk hk' := by simp only [Scene.set_score, h.score k' hk hk']
  tagged := h.tagged
  place := h.place
  output := h.output

theorem tag (t : TagKey) : Alike (sc.tag t) (sc'.tag t) where
  score := h.score
  tagged := funext fun t' => by rw [Scene.tag_tagged, Scene.tag_tagged, h.tagged]
  place := h.place
  output := h.output

theorem untag (t : TagKey) : Alike (sc.untag t) (sc'.untag t) where
  score := h.score
  tagged := funext fun t' => by rw [Scene.untag_tagged, Scene.untag_tagged, h.tagged]
  place := h.place
  output := h.output

/-- They may even get different lifetimes. -/
theorem setAge (v v' : Int32) : Alike (sc.set .lifetime v) (sc'.set .lifetime v') :=
  (age sc v).symm.trans (h.trans (age sc' v'))

/-- Or different interpolation durations. -/
theorem setInterp (v v' : Int32) : Alike (sc.set .interp v) (sc'.set .interp v') :=
  (interp sc v).symm.trans (h.trans (interp sc' v'))

theorem synced : Alike (I.synced sc) (I.synced sc') :=
  (sync sc).symm.trans (h.trans (sync sc'))

/-- Both animations stand at the same time. -/
theorem time (c : CompiledClip) : sc'.score (timeKey c) = sc.score (timeKey c) :=
  h.score (timeKey c) nofun nofun

theorem inRange_time (c : CompiledClip) (range : ScoreRange) :
    inRange (timeKey c) range sc' = inRange (timeKey c) range sc := by
  rw [inRange, inRange, h.time c]

theorem mode (c : CompiledClip) : sc'.score (modeKey c) = sc.score (modeKey c) :=
  h.score (modeKey c) nofun nofun

theorem inRange_mode (c : CompiledClip) (range : ScoreRange) :
    inRange (modeKey c) range sc' = inRange (modeKey c) range sc := by
  rw [inRange, inRange, h.mode c]

theorem tween : sc'.score .tween = sc.score .tween :=
  h.score .tween nofun nofun

theorem inRange_tween (range : ScoreRange) :
    inRange .tween range sc' = inRange .tween range sc := by
  rw [inRange, inRange, h.tween]

/-- Applying a frame reads and writes what both have in common, apart from the looks of the
nodes. -/
theorem framed (tree : DispatchTree) (frame : Frame) :
    Alike (I.framed tree frame sc) (I.framed tree frame sc') where
  score k hk hk' := by rw [framed_score, framed_score, h.score k hk hk']
  tagged := by rw [framed_tagged, framed_tagged, h.tagged]
  place r := by
    rw [placeOf_framed_eq_posed, placeOf_framed_eq_posed]
    exact placeOf_posed_congr (h.place r)
  output := by rw [output_framed, output_framed, h.tagged, h.output]

/-- The lookup finds the same frame in both, as it asks for the frame score. -/
theorem dispatched (tree : DispatchTree) :
    Alike (I.dispatched tree sc) (I.dispatched tree sc') := by
  unfold Instance.dispatched
  rw [h.score .frame nofun nofun]
  split
  · exact h
  · exact h.framed tree _

/-- Stopping does the same to both. -/
theorem stopped (c : CompiledClip) : Alike (stopped I c sc) (stopped I c sc') :=
  (((((((h.set _ _).set _ _).tag _).set _ _).dispatched c.tree).untag _).untag _ :)

theorem resumed (c : CompiledClip) : Alike (resumed I c sc) (resumed I c sc') :=
  ((h.tag _).set _ _).synced

end

/-- Where both scenes agree on a test, it does not matter what it decides. -/
theorem choose {x x' y y' : Scene} {b b' : Bool} (hb : b' = b) (hx : Alike x x') (hy : Alike y y') :
    Alike (if b then x else y) (if b' then x' else y') := by
  rw [hb]
  split
  · exact hx
  · exact hy

section

variable (h : Alike sc sc')

include h

/-- Starting again sets the time back in both. -/
theorem restarted (c : CompiledClip) : Alike (restarted I c sc) (restarted I c sc') := by
  have hagain : ∀ past, Alike
      (if inRange (modeKey c) (.exact 0) sc then
        if inRange (timeKey c) past sc then sc.set (timeKey c) 0 else sc else sc)
      (if inRange (modeKey c) (.exact 0) sc' then
        if inRange (timeKey c) past sc' then sc'.set (timeKey c) 0 else sc' else sc') := fun past =>
    choose (h.inRange_mode c _) (choose (h.inRange_time c past) (h.set _ _) h) h
  have hzero : ∀ {again again' : Scene}, Alike again again' → Alike
      (if inRange (modeKey c) (.exact 0) again then
        if inRange (timeKey c) (.exact 0) again then I.synced again else again else again)
      (if inRange (modeKey c) (.exact 0) again' then
        if inRange (timeKey c) (.exact 0) again' then I.synced again' else again' else again') :=
    fun h => choose (h.inRange_mode c _) (choose (h.inRange_time c _) h.synced h) h
  exact hzero (hagain _)

theorem stoppedOnce (c : CompiledClip) : Alike (stoppedOnce I c sc) (stoppedOnce I c sc') :=
  choose (h.inRange_mode c _) (h.stopped c) h

theorem held (c : CompiledClip) : Alike (held c sc) (held c sc') :=
  choose (h.inRange_mode c _) ((h.set _ _).untag _) h

/-- At its end an animation starts again, stops or stays, as its mode says. -/
theorem ended (c : CompiledClip) : Alike (ended I c sc) (ended I c sc') :=
  ((h.restarted c).stoppedOnce c).held c

theorem passed (c : CompiledClip) : Alike (passed I c sc) (passed I c sc') :=
  choose (h.inRange_time c _) (h.ended c) h

/-- What follows a passed tick is decided by scores that both have. -/
theorem followed (c : CompiledClip) : Alike (followed I c sc) (followed I c sc') := by
  unfold Instance.followed
  rw [h.time c]
  exact choose (congrFun h.tagged _) ((h.set _ _).dispatched c.tree) h

theorem advanced (c : CompiledClip) : Alike (advanced I c sc) (advanced I c sc') := by
  unfold Instance.advanced
  rw [h.time c]
  exact ((h.set _ _).passed c).followed c

/-- A tick of an animation. -/
theorem ticked (c : CompiledClip) : Alike (ticked I c sc) (ticked I c sc') :=
  choose (h.inRange_tween _) h (h.advanced c)

/-- The ticks of several animations, one after the other. -/
theorem clipsTicked (clips : List CompiledClip) :
    Alike (clipsTicked I clips sc) (clipsTicked I clips sc') :=
  List.foldl_rel h fun c _ _ _ h => choose (congrFun h.tagged _) (h.ticked c) h

/-- A tick of a tween leaves the same number of ticks in both. -/
theorem tweened : Alike (tweened I sc) (tweened I sc') := by
  have hshown : ∀ v v', Alike ((sc.set .tween ((sc.score .tween).getD 0 - 1)).set .interp v)
      ((sc'.set .tween ((sc.score .tween).getD 0 - 1)).set .interp v') :=
    (h.set .tween _).setInterp
  unfold Instance.tweened
  dsimp only
  rw [h.tween]
  exact (choose ((hshown _ _).inRange_tween _) ((hshown _ _).set _ _) (hshown _ _)).synced

/-- A tick leaves scenes alike. -/
theorem onTicked : Alike (onTicked I sc) (onTicked I sc') := by
  have hmoved := (h.setAge ((sc.score .lifetime).getD 0 + 1)
    ((sc'.score .lifetime).getD 0 + 1)).clipsTicked (I := I) I.clips
  exact choose (hmoved.inRange_tween _) hmoved.tweened hmoved

/-- So do ticks in a row. -/
theorem ticks (n : Nat) : Alike ((Instance.onTicked I)^[n] sc) ((Instance.onTicked I)^[n] sc') := by
  induction n generalizing sc sc' with
  | zero => exact h
  | succ n ih =>
    rw [Function.iterate_succ_apply, Function.iterate_succ_apply]
    exact ih h.onTicked

end

end Alike

/-! ### A break -/

/-- Where nothing advances, a tick only makes an instance older. -/
theorem alike_onTicked_of_rest (hidle : ∀ c ∈ I.clips, sc.tagged (playingKey c) = false)
    (hrest : inRange .tween (.atLeast 1) sc = false) : Alike sc (onTicked I sc) := by
  let aged := sc.set .lifetime ((sc.score .lifetime).getD 0 + 1)
  have hclips : clipsTicked I I.clips aged = aged := clipsTicked_none hidle
  have haged : inRange .tween (.atLeast 1) aged = false := hrest
  have hticked : onTicked I sc = aged := by
    unfold onTicked
    dsimp only
    rw [hclips, haged, if_neg Bool.false_ne_true]
  rw [hticked]
  exact .age sc _

/-- As long as no animation plays and no tween runs, ticks change the lifetime at most. -/
theorem alike_ticks_of_rest (hidle : ∀ c ∈ I.clips, sc.tagged (playingKey c) = false)
    (hrest : inRange .tween (.atLeast 1) sc = false) (m : Nat) :
    Alike sc ((onTicked I)^[m] sc) := by
  induction m with
  | zero => exact .refl sc
  | succ m ih =>
    rw [Function.iterate_succ_apply]
    exact ih.trans ((alike_onTicked_of_rest hidle hrest).ticks m)

/-- Going on right after a pause is as if there had been none. -/
theorem alike_resumed_untag (hplaying : sc.tagged (playingKey c) = true) :
    Alike sc (resumed I c (sc.untag (playingKey c))) := by
  have hsame : Alike sc ((sc.untag (playingKey c)).tag (playingKey c)) := by
    refine ⟨fun _ _ _ => rfl, funext fun t => ?_, fun _ => rfl, rfl⟩
    rw [Scene.tag_tagged, Scene.untag_tagged]
    by_cases ht : t = playingKey c
    · rw [ht, hplaying, beq_self_eq_true, Bool.true_or]
    · rw [beq_false_of_ne ht, bne_iff_ne.2 ht, Bool.true_and, Bool.false_or]
  exact (hsame.trans (.interp _ _)).trans (.sync _)

/-- So is going on after a number of ticks, if no other animation advances and no
tween is running. -/
theorem alike_of_break (h : I.IsAlone c sc) (hplaying : sc.tagged (playingKey c) = true) (m : Nat) :
    Alike sc (resumed I c ((onTicked I)^[m] (sc.untag (playingKey c)))) := by
  have hidle : ∀ c' ∈ I.clips, (sc.untag (playingKey c)).tagged (playingKey c') = false := by
    intro c' hc'
    rw [Scene.untag_tagged]
    by_cases hname : c'.clip.storageName = c.clip.storageName
    · rw [show playingKey c' = playingKey c from congrArg TagKey.playing hname, bne_self_eq_false,
        Bool.false_and]
    · rw [h.others c' hc' hname, Bool.and_false]
  exact (alike_resumed_untag hplaying).trans ((alike_ticks_of_rest hidle h.rest m).resumed c)

end Instance

end Marionette
