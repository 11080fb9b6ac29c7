import Marionette.Proofs.Ride.Beside

/-!
# Ticks of a root with a ride

In a tick of the root, its animations have their turns one after the other.  Only those that move
the node of the passenger have to be followed.

- `Schedule`: at which ticks animations are; `Ride.Follows`: those that move the node follow one.
- `Ride.Turned`, `Takes.exists_turned`: what the turn of an animation does.
- `Ride.AllTurned`, `TakesAll.exists_allTurned`: what the turns of several animations do.
- `Takes.onTick`: a tick of the root shows the next frame of each animation that advances.
-/

namespace Marionette

/-- The tick of each animation that advances, by the names of the animations. -/
abbrev Schedule := String → Option Nat

namespace Schedule

/-- No animation advances. -/
def idle : Schedule :=
  fun _ => none

/-- An animation is at a tick. -/
def start (σ : Schedule) (animation : String) (tick : Nat) : Schedule :=
  fun a => if a = animation then some tick else σ a

/-- All that advance are a tick later. -/
def next (σ : Schedule) : Schedule :=
  fun a => (σ a).map (· + 1)

/-- One that advances alone goes on alone. -/
theorem next_start (animation : String) (tick : Nat) :
    (idle.start animation tick).next = idle.start animation (tick + 1) := by
  funext a
  unfold next start
  split <;> rfl

end Schedule

namespace Ride

/-- The animations that move the node of the passenger follow a schedule, with no tween. -/
structure Follows (R : Ride) (σ : Schedule) (v : View) : Prop where
  root : v.tagged .root = true
  tween : v.score .tween = some 0
  stands : ∀ c ∈ R.clips, R.Moves c → v.Stands c.clip.storageName (σ c.clip.storageName)

/-- No animation that moves the node of the passenger comes to its end at the next tick. -/
def IsBeforeEnd (R : Ride) (σ : Schedule) : Prop :=
  ∀ c ∈ R.clips, R.Moves c → ∀ tick ∈ σ c.clip.storageName, tick + 1 < c.clip.duration

/-- What the turn of an animation does. -/
structure Turned (R : Ride) (σ : Schedule) (c : CompiledClip) (v v' : View) : Prop where
  root : v'.tagged .root = v.tagged .root
  tween : v'.score .tween = some 0
  stands : R.Moves c → v'.Stands c.clip.storageName (σ.next c.clip.storageName)
  others : ∀ a ≠ c.clip.storageName, ∀ position, v.Stands a position → v'.Stands a position
  place : v'.place = R.goes ((σ.next c.clip.storageName).bind c.clip.frameAt?) v.place

/-- What the turns of animations do, one after the other. -/
structure AllTurned (R : Ride) (σ : Schedule) (clips : List CompiledClip) (v v' : View) : Prop where
  root : v'.tagged .root = v.tagged .root
  tween : v'.score .tween = some 0
  stands : ∀ c ∈ clips, R.Moves c → v'.Stands c.clip.storageName (σ.next c.clip.storageName)
  others : ∀ a, (∀ c ∈ clips, a ≠ c.clip.storageName) → ∀ position, v.Stands a position →
    v'.Stands a position
  place : v'.place = clips.foldl
    (fun place c => R.goes ((σ.next c.clip.storageName).bind c.clip.frameAt?) place) v.place

variable {R : Ride} {c : CompiledClip} {v v' : View} {σ : Schedule}

/-! ### Starting an animation -/

/-- The animation starts; the others go on where they are. -/
theorem follows_played (hroot : v.tagged .root = true)
    (hothers : ∀ c' ∈ R.clips, R.Moves c' → c'.clip.storageName ≠ c.clip.storageName →
      v.Stands c'.clip.storageName (σ c'.clip.storageName)) :
    R.Follows (σ.start c.clip.storageName 0) (R.played c v) where
  root := by simpa [played] using hroot
  tween := by simp [played]
  stands c' hc' hmoves := by
    by_cases hname : c'.clip.storageName = c.clip.storageName
    · constructor <;> simp [Schedule.start, played, hname]
    · obtain ⟨hplaying, htime⟩ := hothers c' hc' hmoves hname
      constructor
      · rw [Schedule.start, if_neg hname, ← hplaying]
        simp [played, hname]
      · simpa [Schedule.start, played, hname] using htime

/-! ### Turns -/

/-- The turn of an animation that is followed shows its next frame. -/
theorem turned_ticked (htween : v.score .tween = some 0)
    (hv : v.Stands c.clip.storageName (σ c.clip.storageName)) :
    R.Turned σ c v (R.ticked c (σ c.clip.storageName) v) := by
  have hnext : σ.next c.clip.storageName = (σ c.clip.storageName).map (· + 1) := rfl
  unfold ticked
  cases hposition : σ c.clip.storageName with
  | none =>
    rw [hposition] at hv hnext
    refine ⟨rfl, htween, fun _ => ?_, fun _ _ _ h => h, ?_⟩
    · rw [hnext]
      exact ⟨hv.playing, nofun⟩
    · rw [hnext]
      rfl
  | some tick =>
    rw [hposition] at hv hnext
    refine ⟨rfl, htween, fun _ => ?_, fun a ha position h => ?_, ?_⟩
    · rw [hnext]
      exact ⟨hv.playing, by simp [advanced]⟩
    · exact ⟨h.playing, fun tick htick => by simpa [advanced, ha] using h.time tick htick⟩
    · rw [hnext]
      rfl

/-- The turn of an animation that does not move the node shows nothing. -/
theorem turned_of_beside (hR : ArePlayable R.clips) (hc : c ∈ R.clips) (hmoves : ¬R.Moves c)
    (htween : v.score .tween = some 0) (h : v.Beside c.clip.storageName v') :
    R.Turned σ c v v' where
  root := h.tagged .root nofun nofun
  tween := h.tween htween
  stands h := absurd h hmoves
  others a ha position hv := h.stands ha hv
  place := by
    rw [h.place]
    cases σ.next c.clip.storageName with
    | none => rfl
    | some tick => exact (goes_of_not_moves hR hc hmoves v.place).symm

/-- Every animation has its turn, whether it moves the node or not. -/
theorem Takes.exists_turned (hR : ArePlayable R.clips) (hc : c ∈ R.clips)
    (htween : v.score .tween = some 0)
    (hv : R.Moves c → v.Stands c.clip.storageName (σ c.clip.storageName))
    (hend : R.IsBeforeEnd σ) : ∃ v', R.Takes 40 (R.turn c) v v' ∧ R.Turned σ c v v' := by
  by_cases hmoves : R.Moves c
  · have hv := hv hmoves
    exact ⟨_, .turn hR hc htween hv (hend c hc hmoves), turned_ticked htween hv⟩
  · obtain ⟨v', htakes, hbeside⟩ := Passes.turn hR hc hmoves v
    exact ⟨v', htakes, turned_of_beside hR hc hmoves htween hbeside⟩

/-- So do several animations.  Each stands a tick later in the end, as only its own
turn moves it. -/
theorem TakesAll.exists_allTurned (hR : ArePlayable R.clips) {clips : List CompiledClip}
    (hclips : ∀ c ∈ clips, c ∈ R.clips) (hnames : (clips.map (·.clip.storageName)).Nodup)
    (htween : v.score .tween = some 0)
    (hv : ∀ c ∈ clips, R.Moves c → v.Stands c.clip.storageName (σ c.clip.storageName))
    (hend : R.IsBeforeEnd σ) :
    ∃ v', R.TakesAll 40 (clips.map R.turn) v v' ∧ R.AllTurned σ clips v v' := by
  induction clips generalizing v with
  | nil => exact ⟨v, .nil, rfl, htween, nofun, fun _ _ _ h => h, rfl⟩
  | cons c rest ih =>
    obtain ⟨hc, hrest⟩ := List.forall_mem_cons.1 hclips
    obtain ⟨hfirst, hdistinct⟩ := List.nodup_cons.1 hnames
    obtain ⟨hv₁, hv₂⟩ := List.forall_mem_cons.1 hv
    have hne : ∀ c' ∈ rest, c'.clip.storageName ≠ c.clip.storageName := fun c' hc' heq =>
      hfirst (List.mem_map.2 ⟨c', hc', heq⟩)
    obtain ⟨v₁, htakes₁, hturned⟩ := Takes.exists_turned hR hc htween hv₁ hend
    obtain ⟨v₂, htakes₂, hall⟩ := ih hrest hdistinct hturned.tween
      fun c' hc' hmoves => hturned.others _ (hne c' hc') _ (hv₂ c' hc' hmoves)
    refine ⟨v₂, .cons htakes₁ htakes₂, hall.root.trans hturned.root, hall.tween, ?_, ?_, ?_⟩
    · refine List.forall_mem_cons.2 ⟨fun hmoves => ?_, hall.stands⟩
      -- the turn of the first animation is over, and the others leave it alone
      exact hall.others _ (fun c' hc' => (hne c' hc').symm) _ (hturned.stands hmoves)
    · intro a ha position hstands
      obtain ⟨hfirst, hothers⟩ := List.forall_mem_cons.1 ha
      exact hall.others a hothers position (hturned.others a hfirst position hstands)
    · rw [hall.place, hturned.place, List.foldl_cons]

/-! ### Ticks of the root -/

/-- A tick of the root shows the next frame of each animation that advances. -/
theorem Takes.onTick (hR : ArePlayable R.clips) (hv : R.Follows σ v) (hend : R.IsBeforeEnd σ) :
    ∃ v', R.Takes 41 (.function (R.stage.function "on_tick")) v v' ∧ R.Follows σ.next v' ∧
      v'.place = R.clips.foldl
        (fun place c => R.goes ((σ.next c.clip.storageName).bind c.clip.frameAt?) place)
          v.place := by
  have hmem : (R.stage.function "on_tick", R.stage.onTickBody (R.clips.map (·.clip))) ∈
      R.stage.functions R.clips :=
    Stage.mem_functions_of_tick (.tail _ <| .tail _ <| .head _)
  let older : View := v.set .lifetime ((v.score .lifetime).getD 0 + 1)
  have htween : older.score .tween = some 0 := by
    rw [View.set_score, if_neg nofun, hv.tween]
  have hstands : ∀ c ∈ R.clips, R.Moves c →
      older.Stands c.clip.storageName (σ c.clip.storageName) := by
    intro c hc hmoves
    obtain ⟨hplaying, htime⟩ := hv.stands c hc hmoves
    exact ⟨hplaying, fun tick htick => by simpa [older] using htime tick htick⟩
  obtain ⟨v', htakes, hall⟩ := TakesAll.exists_allTurned hR (fun _ hc => hc)
    hR.areCompiled.nodup_storageNames htween hstands hend
  have hstill : (v'.score .tween).any (ScoreRange.atLeast 1).contains = false := by
    rw [hall.tween]
    decide
  refine ⟨v', Takes.call hmem (TakesAll.append
    (TakesAll.cons (Takes.addOwn (k := .lifetime) (n := 1) trivial) ?_)
    (TakesAll.single (Takes.ifOwn_skip (k := .tween) trivial hstill))),
    ⟨hall.root.trans hv.root, hall.tween, hall.stands⟩, hall.place⟩
  rw [List.map_map]
  exact htakes

end Ride

end Marionette
