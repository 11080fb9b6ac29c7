import Marionette.Proofs.Ride.Playing

/-!
# Animations beside a ride

An animation that does not move the node of the passenger may be at any tick, come to its end, start
again or stop.  All this leaves the passenger, and the other animations of the root, as they are.

- `View.Beside`: only what belongs to one animation has changed.
- `Ride.Passes`: from every view, a command takes the root to a view beside it.
- One rule for each way in which the controls are put together, up to `Passes.advance`.
- `Passes.turn`: the turn of an animation that does not move the passenger.
-/

namespace Marionette

namespace View

/-- From one view to another, an animation has changed what belongs to it.  The other animations and
the passenger are where they were. -/
structure Beside (animation : String) (v v' : View) : Prop where
  place : v'.place = v.place
  tagged : ∀ t, t ≠ .playing animation → t ≠ .suppress → v'.tagged t = v.tagged t
  tween : v.score .tween = some 0 → v'.score .tween = some 0
  time : ∀ a ≠ animation, v'.score (.localTime a) = v.score (.localTime a)

namespace Beside

variable {animation : String} {v v' v'' : View}

/-- Nothing at all may have changed. -/
theorem refl (animation : String) (v : View) : v.Beside animation v :=
  ⟨rfl, fun _ _ _ => rfl, id, fun _ _ => rfl⟩

/-- One change after the other. -/
theorem trans (h : v.Beside animation v') (h' : v'.Beside animation v'') :
    v.Beside animation v'' where
  place := h'.place.trans h.place
  tagged t hplaying hsuppress :=
    (h'.tagged t hplaying hsuppress).trans (h.tagged t hplaying hsuppress)
  tween htween := h'.tween (h.tween htween)
  time a ha := (h'.time a ha).trans (h.time a ha)

/-- A tween may only be ended. -/
theorem set {k : ScoreKey} {x : Int32} (htween : k = .tween → x = 0)
    (htime : ∀ a ≠ animation, k ≠ .localTime a) : v.Beside animation (v.set k x) where
  place := rfl
  tagged _ _ _ := rfl
  tween h := by
    rw [set_score]
    split
    · next hk => rw [htween hk.symm]
    · exact h
  time a ha := by rw [set_score, if_neg (htime a ha).symm]

/-- An animation may be started, or the effects be suppressed. -/
theorem tag {t : TagKey} (ht : t = .playing animation ∨ t = .suppress) :
    v.Beside animation (v.tag t) where
  place := rfl
  tagged t' hplaying hsuppress := by
    have hne : t' ≠ t := by
      rintro rfl
      exact ht.elim hplaying hsuppress
    rw [tag_tagged, beq_false_of_ne hne, Bool.false_or]
  tween := id
  time _ _ := rfl

/-- It may be stopped, or the effects be allowed again. -/
theorem untag {t : TagKey} (ht : t = .playing animation ∨ t = .suppress) :
    v.Beside animation (v.untag t) where
  place := rfl
  tagged t' hplaying hsuppress := by
    have hne : t' ≠ t := by
      rintro rfl
      exact ht.elim hplaying hsuppress
    rw [untag_tagged, bne_iff_ne.2 hne, Bool.true_and]
  tween := id
  time _ _ := rfl

/-- Other animations stand where they stood. -/
theorem stands (h : v.Beside animation v') {a : String} (ha : a ≠ animation) {position : Option Nat}
    (hv : v.Stands a position) : v'.Stands a position where
  playing := by
    rw [h.tagged (.playing a) (by simpa using ha) nofun]
    exact hv.playing
  time tick htick := by
    rw [h.time a ha]
    exact hv.time tick htick

end Beside

end View

namespace Ride

variable (R : Ride) (animation : String)

/-- From every view, the command takes the root to a view beside it. -/
def Passes (d : Nat) (x : Command) : Prop :=
  ∀ v, ∃ v', R.Takes d x v v' ∧ v.Beside animation v'

/-- The same for commands in order. -/
def PassesAll (d : Nat) (xs : List Command) : Prop :=
  ∀ v, ∃ v', R.TakesAll d xs v v' ∧ v.Beside animation v'

variable {R animation} {d e : Nat} {x : Command} {xs ys : List Command} {rest : List Clause}
  {k s : ScoreKey} {t : TagKey} {n : Int32} {range : ScoreRange}

namespace PassesAll

theorem nil : R.PassesAll animation d [] :=
  fun v => ⟨v, .nil, .refl animation v⟩

theorem cons (hx : R.Passes animation d x) (hxs : R.PassesAll animation d xs) :
    R.PassesAll animation d (x :: xs) := by
  intro v
  obtain ⟨v', htakes, hbeside⟩ := hx v
  obtain ⟨v'', htakes', hbeside'⟩ := hxs v'
  exact ⟨v'', .cons htakes htakes', hbeside.trans hbeside'⟩

theorem single (hx : R.Passes animation d x) : R.PassesAll animation d [x] :=
  cons hx nil

end PassesAll

namespace Passes

/-- More depth does no harm. -/
theorem deeper (hde : d ≤ e) (h : R.Passes animation d x) : R.Passes animation e x := by
  intro v
  obtain ⟨v', htakes, hbeside⟩ := h v
  exact ⟨v', .deeper hde htakes, hbeside⟩

/-- A command that changes nothing. -/
theorem still (h : ∀ v, R.Takes d x v v) : R.Passes animation d x :=
  fun v => ⟨v, h v, .refl animation v⟩

/-- A call of a function of the rig whose body passes. -/
theorem call {path : FunctionPath} (hmem : (path, xs) ∈ R.stage.functions R.clips)
    (h : R.PassesAll animation d xs) : R.Passes animation (d + 1) (.function path) := by
  intro v
  obtain ⟨v', htakes, hbeside⟩ := h v
  exact ⟨v', .call hmem htakes, hbeside⟩

/-! ### Scores and tags -/

/-- Scores may be set that are neither a tween under way nor the time of another animation. -/
theorem setOwn (hk : k.IsAmong R.clips) (htween : k = .tween → n = 0)
    (htime : ∀ a ≠ animation, k ≠ .localTime a) :
    R.Passes animation d (Marionette.setOwn (R.stage.names.score k) n) :=
  fun _ => ⟨_, .setOwn hk, .set htween htime⟩

theorem addOwn (hk : k.IsAmong R.clips) (htween : k ≠ .tween)
    (htime : ∀ a ≠ animation, k ≠ .localTime a) :
    R.Passes animation d (.scoreAdd .this (R.stage.names.score k) n) :=
  fun _ => ⟨_, .addOwn hk, .set (fun h => absurd h htween) htime⟩

theorem copyOwn (hk : k.IsAmong R.clips) (hs : s.IsAmong R.clips) (htween : k ≠ .tween)
    (htime : ∀ a ≠ animation, k ≠ .localTime a) :
    R.Passes animation d (Marionette.copyOwn (R.stage.names.score k) (R.stage.names.score s)) :=
  fun _ => ⟨_, .copyOwn hk hs, .set (fun h => absurd h htween) htime⟩

theorem tagAdd (ht : t = .playing animation ∨ t = .suppress) :
    R.Passes animation d (.tagAdd .this (R.stage.names.tag t)) :=
  fun _ => ⟨_, .tagAdd, .tag ht⟩

theorem tagRemove (ht : t = .playing animation ∨ t = .suppress) :
    R.Passes animation d (.tagRemove .this (R.stage.names.tag t)) :=
  fun _ => ⟨_, .tagRemove, .untag ht⟩

/-! ### Clauses -/

/-- Without clauses the command is run. -/
theorem execute_nil (h : R.Passes animation d x) : R.Passes animation d (.execute [] x) :=
  h

/-- A test of a score, whether it passes or not. -/
theorem ifOwn (hk : k.IsAmong R.clips) (h : R.Passes animation d (.execute rest x)) :
    R.Passes animation d
      (.execute (Marionette.ifOwn (R.stage.names.score k) range :: rest) x) := by
  intro v
  cases hin : (v.score k).any range.contains with
  | false => exact ⟨v, .ifOwn_skip hk hin, .refl animation v⟩
  | true =>
    obtain ⟨v', htakes, hbeside⟩ := h v
    exact ⟨v', .ifOwn_pass hk hin htakes, hbeside⟩

/-- The test leaves the view where it is, or the command is run. -/
theorem unlessOwn (hk : k.IsAmong R.clips) (h : R.Passes animation d (.execute rest x)) :
    R.Passes animation d
      (.execute (.unlessScore .this (R.stage.names.score k) range :: rest) x) := by
  intro v
  cases hin : (v.score k).any range.contains with
  | true => exact ⟨v, .unlessOwn_skip hk hin, .refl animation v⟩
  | false =>
    obtain ⟨v', htakes, hbeside⟩ := h v
    exact ⟨v', .unlessOwn_pass hk hin htakes, hbeside⟩

/-- It is the same with a test of a tag. -/
theorem ifTagged (h : R.Passes animation d (.execute rest x)) :
    R.Passes animation d
      (.execute (.ifEntity (Selector.this.tagged (R.stage.names.tag t)) :: rest) x) := by
  intro v
  cases htag : v.tagged t with
  | false => exact ⟨v, .ifTagged_skip htag, .refl animation v⟩
  | true =>
    obtain ⟨v', htakes, hbeside⟩ := h v
    exact ⟨v', .ifTagged_pass htag htakes, hbeside⟩

/-! ### Controls -/

variable {c : CompiledClip}

/-- The score belongs to this animation, or to none. -/
theorem localTime_ne (a : String) (ha : a ≠ animation) :
    ScoreKey.localTime animation ≠ .localTime a := by
  simpa using ha.symm

/-- Whatever frame is asked for, it leaves the passenger where it is. -/
theorem dispatch (hR : ArePlayable R.clips) (hc : c ∈ R.clips) (hmoves : ¬R.Moves c) :
    R.Passes animation 36 (.function (R.paths c).dispatch) := by
  refine still fun v => ?_
  by_cases hbefore : ∀ asked, v.score .frame = some asked → asked.toInt < 0
  · exact .dispatch_skip hc (hR.isSound hc) hbefore
  · push Not at hbefore
    obtain ⟨asked, hasked, hge⟩ := hbefore
    obtain ⟨tick, htick⟩ := Int.eq_ofNat_of_zero_le hge
    have hshows := Takes.dispatch hc (hR.isSound hc) hasked htick
    rwa [hR.findFrame?_eq hc, goes_of_not_moves hR hc hmoves, View.move_self] at hshows

variable (hR : ArePlayable R.clips) (hc : c ∈ R.clips) (hmoves : ¬R.Moves c)
include hR hc hmoves

/-- Stopping goes back to the first frame, which does not move the passenger either. -/
theorem stop : R.Passes c.clip.storageName 37 (.function ((R.paths c).control "stop")) := by
  refine call (Stage.mem_functions_of_control hc (.tail _ <| .tail _ <| .tail _ <| .head _)) ?_
  exact .cons (setOwn (k := .localTime c.clip.storageName) ⟨c, hc, rfl⟩ nofun localTime_ne) <|
    .cons (setOwn (k := .tween) trivial (fun _ => rfl) fun _ _ => nofun) <|
    .cons (tagAdd (t := .suppress) (.inr rfl)) <|
    .cons (setOwn (k := .frame) trivial nofun fun _ _ => nofun) <|
    .cons (dispatch hR hc hmoves) <|
    .cons (tagRemove (t := .suppress) (.inr rfl)) <|
    .single (tagRemove (t := .playing c.clip.storageName) (.inl rfl))

omit hR hmoves in
/-- Pausing takes a tag of this animation. -/
theorem pause : R.Passes c.clip.storageName (d + 1) (.function ((R.paths c).control "pause")) :=
  call (Stage.mem_functions_of_control hc (.tail _ <| .tail _ <| .head _)) <|
    .single (tagRemove (t := .playing c.clip.storageName) (.inl rfl))

/-- At its end, an animation starts again, stops or holds. -/
theorem «end» : R.Passes c.clip.storageName 38 (.function ((R.paths c).control "end")) := by
  have htime : ScoreKey.IsAmong R.clips (.localTime c.clip.storageName) := ⟨c, hc, rfl⟩
  have hmode : ScoreKey.IsAmong R.clips (.loopMode c.clip.storageName) := ⟨c, hc, rfl⟩
  have hset : ∀ {n : Int32}, R.Passes c.clip.storageName 37
      (Marionette.setOwn (R.stage.names.score (.localTime c.clip.storageName)) n) :=
    setOwn htime nofun localTime_ne
  refine call (Stage.mem_functions_of_control hc (.tail _ <| .tail _ <| .tail _ <| .tail _ <|
    .tail _ <| .tail _ <| .tail _ <| .tail _ <| .head _)) ?_
  exact .cons (ifOwn (k := .loopMode c.clip.storageName) hmode <|
      ifOwn (k := .localTime c.clip.storageName) htime <| execute_nil hset) <|
    .cons (ifOwn (k := .loopMode c.clip.storageName) hmode <|
      ifOwn (k := .localTime c.clip.storageName) htime <| execute_nil (still fun _ => .sync)) <|
    .cons (ifOwn (k := .loopMode c.clip.storageName) hmode <| execute_nil (stop hR hc hmoves)) <|
    .cons (ifOwn (k := .loopMode c.clip.storageName) hmode <| execute_nil hset) <|
    .single (ifOwn (k := .loopMode c.clip.storageName) hmode <| execute_nil (pause hc))

theorem advance : R.Passes c.clip.storageName 39 (.function ((R.paths c).control "advance")) := by
  have htime : ScoreKey.IsAmong R.clips (.localTime c.clip.storageName) := ⟨c, hc, rfl⟩
  have hlater : R.Passes c.clip.storageName 38
      (.scoreAdd .this (R.stage.names.score (.localTime c.clip.storageName)) 1) :=
    addOwn htime nofun localTime_ne
  have hcopy : R.Passes c.clip.storageName 38 (Marionette.copyOwn (R.stage.names.score .frame)
      (R.stage.names.score (.localTime c.clip.storageName))) :=
    copyOwn trivial htime nofun fun _ _ => nofun
  have hshow : R.Passes c.clip.storageName 38 (.function (R.paths c).dispatch) :=
    deeper (by decide) (dispatch hR hc hmoves)
  refine call (Stage.mem_functions_of_control hc (.tail _ <| .tail _ <| .tail _ <| .tail _ <|
    .tail _ <| .tail _ <| .tail _ <| .head _)) ?_
  exact .cons hlater <|
    .cons (ifOwn (k := .localTime c.clip.storageName) htime <|
      execute_nil («end» hR hc hmoves)) <|
    .cons (ifTagged (t := .playing c.clip.storageName) <| execute_nil hcopy) <|
    .single (ifTagged (t := .playing c.clip.storageName) <| execute_nil hshow)

/-- The turn of an animation that does not move the passenger. -/
theorem turn : R.Passes c.clip.storageName 40 (R.turn c) := by
  refine ifTagged (execute_nil (call (Stage.mem_functions_of_control hc (.tail _ <| .tail _ <|
    .tail _ <| .tail _ <| .tail _ <| .tail _ <| .head _)) (.single ?_)))
  exact unlessOwn (k := .tween) trivial (execute_nil (advance hR hc hmoves))

end Passes

end Ride

end Marionette
