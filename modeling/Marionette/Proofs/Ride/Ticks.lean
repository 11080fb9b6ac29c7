import Marionette.Proofs.Functions.Home
import Marionette.Proofs.Ride.Reach
import Marionette.Proofs.Ride.Turns

/-!
# Ticks of a world with a ride

A tick of the world is a tick of every root in it.  Those of other roots keep to their own
households, so they leave a ride as it is.

- `RunsOnly.narrow`, `RunsOnly.onTick`: most functions keep to the household of the root for which
  they run, and so does its tick.
- `Shows.keepsTo`: what happens in another household leaves the view as it is.
- `Shows.otherTick`: so does the tick of another root.
- `Shows.run`, `Shows.tick`: a control of the root, or a tick of the world, leads to the view after
  it.
- `Shows.play_ticks`: after playing and any number of ticks before the end, the passenger is where
  its latest entry brings it.
- `Shows.seek`: after a seek, it is where the latest frame brings it.
-/

namespace Marionette

namespace Stage

variable {s : Stage} {clips : List CompiledClip} {w : World} {root : Nat}

/-- Run as a root, every function but four ends without an error and keeps to the household of the
root. -/
theorem RunsOnly.narrow (h : s.RunsOnly clips w) {path : FunctionPath} {body : List Command}
    (hmem : (path, body) ∈ s.functions clips) (hpath : ¬s.IsWide path) (hx : w.Knows (some root)) :
    World.Does 43 (.function path) (some root) w fun w' =>
      World.Changes w w' ∧ World.KeepsTo root w w' := by
  have hhome : ∀ path body, w.functions[path]? = some body → ¬s.IsWide path →
      ∀ c ∈ body, s.KeepsHome false c := fun path body hbody hpath =>
    keepsHome_functions _ (h.only path body hbody) hpath
  have hsure := h.hosts.sure_functions h.depth_le _ hmem
  exact (hsure.does h.serves hx).leaving fun n =>
    World.leaves_callFunction hhome hpath n ⟨h.tied.numbered, rfl⟩

/-- So does the tick of a root. -/
theorem RunsOnly.onTick (h : s.RunsOnly clips w) (hx : w.Knows (some root)) :
    World.Does 43 (.function (s.function "on_tick")) (some root) w fun w' =>
      World.Changes w w' ∧ World.KeepsTo root w w' :=
  h.narrow (mem_functions_of_tick (.tail _ <| .tail _ <| .head _))
    (not_isWide_function (by decide)) hx

end Stage

namespace Ride

open World (Does DoesAll KeepsTo Changes Knows)

variable {R : Ride} {d id : Nat} {c : CompiledClip} {w w' : World} {v v' : View}
  {path : FunctionPath}

/-! ### Other roots -/

/-- What happens in the household of another root leaves the view as it is. -/
theorem Shows.keepsTo (hw : R.Shows w v) (hroot : id ≠ R.root) (hrider : id ≠ R.rider)
    (hkeeps : KeepsTo id w w') (hc : Changes w w') : R.Shows w' v := by
  have hbare : ∀ {i : Nat} {e : Entity}, i ≠ id → w.entity? i = some e →
      ∃ e', w'.entity? i = some e' ∧ e'.bare = e.bare := by
    intro i e hi he
    have hi := hkeeps.bare i hi
    rw [he] at hi
    exact Option.map_eq_some_iff.1 hi
  -- nothing rides two roots
  have hcarried : ¬w.Carries id R.rider := fun hcarries =>
    hroot (hw.body.rides.unique hcarries hw.runs.tied)
  have hsame : w'.entity? R.rider = w.entity? R.rider :=
    hkeeps.entity? R.rider hrider.symm hcarried
  obtain ⟨e, he, hisRoot⟩ := hw.root
  obtain ⟨e', he', hrootBare⟩ := hbare hroot.symm he
  constructor
  case runs => exact hw.runs.changes hc
  case root =>
    refine ⟨e', he', ?_, ?_, ?_⟩
    · exact (congrArg Entity.id hrootBare :).trans hisRoot.id
    · exact (congrArg Entity.alive hrootBare :).trans hisRoot.alive
    · exact (congrArg Entity.entityType hrootBare :).trans hisRoot.entityType
  case body =>
    obtain ⟨hrides, hasTag, hnotRoot⟩ := hw.body
    refine ⟨hkeeps.carries hrides, fun other hother => ?_, ?_⟩
    · rw [World.hasTag, hsame]
      exact hasTag other hother
    · rw [World.hasTag, hsame]
      exact hnotRoot
  case hasTag =>
    intro k
    have htags : e'.tags = e.tags := (congrArg Entity.tags hrootBare :)
    rw [← hw.hasTag k, World.hasTag, World.hasTag, he, he', Option.any_some, Option.any_some,
      Entity.hasTag, Entity.hasTag, htags]
  case score =>
    intro k
    rw [← hw.score k]
    exact hkeeps.score _ _ (fun heq => hroot (Owner.entity.inj heq).symm) (by simp)
  case place =>
    rw [World.place?, hsame]
    exact hw.place

/-- The tick of another root leaves the view as it is. -/
theorem Shows.otherTick (hw : R.Shows w v) (hx : w.Knows (some id)) (hroot : id ≠ R.root)
    (hrider : id ≠ R.rider) :
    Does 43 (.function (R.stage.function "on_tick")) (some id) w fun w' => R.Shows w' v :=
  (hw.runs.onTick hx).imp fun _ hw' => hw.keepsTo hroot hrider hw'.2 hw'.1

/-! ### Runs -/

/-- Running a function as the root leads to the view after it. -/
theorem Shows.run (hw : R.Shows w v) (h : R.Takes d (.function path) v v')
    (hd : d ≤ defaultMaxDepth) :
    ∃ w', Run.on (World.run path (some R.root)) w = (.ok (), w') ∧ R.Shows w' v' := by
  have hdepth : d ≤ w.maxDepth := by
    rw [hw.runs.hosts.maxDepth]
    exact hd
  obtain ⟨-, w', hrun, hshows⟩ := World.Leads.run_on (h w hw) hdepth
  exact ⟨w', hrun, hshows⟩

/-- The passenger is none of the roots that a tick picks. -/
theorem Shows.not_mem_select_roots (hw : R.Shows w v) : R.rider ∉ w.select R.stage.roots none := by
  intro hmem
  have htag := ((Stage.mem_select_roots hw.runs.tied).1 hmem).hasTag
  rw [hw.body.notRoot] at htag
  cases htag

/-! ### Ticks -/

/-- A tick of the world is a tick of the root: those of all others do not show. -/
theorem Shows.tick (hw : R.Shows w v) (hroot : v.tagged .root = true)
    (hown : R.Takes 41 (.function (R.stage.function "on_tick")) v v') :
    ∃ w', Run.on World.tick w = (.ok (), w') ∧ R.Shows w' v' := by
  -- the turns that are left: if the own one is among them the view is still the old one
  let Inv (ids : List Nat) (w' : World) : Prop :=
    ids.Nodup ∧ R.rider ∉ ids ∧ (∀ id ∈ ids, w'.Knows (some id)) ∧
      R.Shows w' (if R.root ∈ ids then v else v')
  have hstep : ∀ id ids w', Inv (id :: ids) w' →
      Does 43 (.function (R.stage.function "on_tick")) (some id) w' (Inv ids) := by
    rintro id ids w' ⟨hnodup, hrider, hknown, hshows⟩
    obtain ⟨hid, hrest⟩ := List.nodup_cons.1 hnodup
    obtain ⟨hx, hknown⟩ := List.forall_mem_cons.1 hknown
    rw [List.mem_cons, not_or] at hrider
    have hlater : ∀ {u} {w'' : World}, R.Shows w'' u ∧ Changes w' w'' →
        u = (if R.root ∈ ids then v else v') → Inv ids w'' := by
      rintro u w'' ⟨hshows', hchanges⟩ rfl
      exact ⟨hrest, hrider.2, fun i hi => (hknown i hi).changes hshows.runs.tied hchanges, hshows'⟩
    by_cases hself : id = R.root
    -- the own turn
    · subst hself
      rw [if_pos List.mem_cons_self] at hshows
      have hturn := (Takes.deeper (e := 43) (by decide) hown) w' hshows
      exact Does.imp (hturn.and hturn.changes) fun _ hw'' => hlater hw'' (if_neg hid).symm
    -- the turn of another root, which leaves the view as it is
    · have hother := hshows.otherTick hx hself fun heq => hrider.1 heq.symm
      refine Does.imp (hother.and hother.changes) fun _ hw'' => hlater hw'' ?_
      simp only [List.mem_cons, or_iff_right (Ne.symm hself)]
  obtain ⟨w', htick, -, -, -, hshows⟩ := hw.runs.tick_of_turns (by decide) hstep
    fun next hnext hruns => by
      have hshows : R.Shows next v := by
        rw [hnext] at hruns ⊢
        obtain ⟨hrides, hbody, hnotRoot⟩ := hw.body
        exact ⟨hruns, hw.root, ⟨hrides, hbody, hnotRoot⟩, hw.hasTag, hw.score, hw.place⟩
      refine ⟨Stage.nodup_select_roots hruns.tied, hshows.not_mem_select_roots,
        fun id hid i hi => ?_, ?_⟩
      · obtain rfl := Option.some.inj hi
        exact hruns.serves.lt_of_mem_select hid
      · rwa [if_pos ((Stage.mem_select_roots hruns.tied).2 (hshows.isRoot hroot))]
  rw [if_neg List.not_mem_nil] at hshows
  exact ⟨w', htick, hshows⟩

/-! ### Playing up to the end -/

/-- An entry of the next tick makes up for all entries before it. -/
theorem brings_latestAt?_succ (tick : Nat) (place : Place) :
    R.brings (c.clip.latestAt? R.slot.node.uuid (tick + 1)) place =
      R.goes (c.clip.frameAt? (tick + 1))
        (R.brings (c.clip.latestAt? R.slot.node.uuid tick) place) :=
  brings_or _ _ place

/-- Where one animation advances alone, a tick shows its next frame. -/
theorem foldl_goes_start (hR : ArePlayable R.clips) (hc : c ∈ R.clips) (tick : Nat)
    (place : Place) :
    R.clips.foldl (fun place c' => R.goes (((Schedule.idle.start c.clip.storageName tick)
      c'.clip.storageName).bind c'.clip.frameAt?) place) place =
      R.goes (c.clip.frameAt? tick) place := by
  have hnames := hR.areCompiled.nodup_storageNames
  obtain ⟨before, after, hclips⟩ := List.append_of_mem hc
  rw [hclips, List.map_append, List.map_cons, List.nodup_middle, List.nodup_cons,
    List.mem_append, not_or] at hnames
  obtain ⟨⟨hbefore, hafter⟩, -⟩ := hnames
  -- the others advance to no frame
  have hstays : ∀ {clips : List CompiledClip} {place : Place},
      c.clip.storageName ∉ clips.map (·.clip.storageName) →
      clips.foldl (fun place c' => R.goes (((Schedule.idle.start c.clip.storageName tick)
        c'.clip.storageName).bind c'.clip.frameAt?) place) place = place := by
    intro clips place hnot
    refine foldl_same id fun c' hc' place => ?_
    have hname : c'.clip.storageName ≠ c.clip.storageName := fun heq =>
      hnot (List.mem_map.2 ⟨c', hc', heq⟩)
    rw [Schedule.start, if_neg hname]
    rfl
  rw [hclips, List.foldl_append, List.foldl_cons, hstays hbefore, hstays hafter, Schedule.start,
    if_pos rfl]
  rfl

/-- After playing and some ticks before the end, the passenger is where its latest
entry brings it. -/
theorem Shows.play_ticks (hR : ArePlayable R.clips) (hc : c ∈ R.clips) (hw : R.Shows w v)
    (hroot : v.tagged .root = true)
    (halone : ∀ c' ∈ R.clips, R.Moves c' → c'.clip.storageName ≠ c.clip.storageName →
      v.tagged (.playing c'.clip.storageName) = false) :
    ∃ w₁, Run.on (World.run ((R.paths c).control "play") (some R.root)) w = (.ok (), w₁) ∧
      ∀ tick < c.clip.duration, ∃ w₂ v₂, Run.on (World.ticks tick) w₁ = (.ok (), w₂) ∧
        R.Shows w₂ v₂ ∧ R.Follows (Schedule.idle.start c.clip.storageName tick) v₂ ∧
        v₂.place = R.brings (c.clip.latestAt? R.slot.node.uuid tick) v.place := by
  obtain ⟨w₁, hplay, hw₁⟩ := hw.run (Takes.play hR hc) (by decide)
  refine ⟨w₁, hplay, fun tick htick => ?_⟩
  induction tick with
  -- playing shows the frame of tick 0 at once
  | zero =>
    refine ⟨w₁, _, rfl, hw₁, follows_played hroot fun c' hc' hmoves hname => ?_, rfl⟩
    exact ⟨halone c' hc' hmoves hname, nofun⟩
  | succ tick ih =>
    obtain ⟨w₂, v₂, hticks, hw₂, hfollows, hplace⟩ := ih (by omega)
    -- the only animation that moves the passenger is not at its end
    have hend : R.IsBeforeEnd (Schedule.idle.start c.clip.storageName tick) := by
      intro c' hc' _ n hn
      by_cases hname : c'.clip.storageName = c.clip.storageName
      · obtain rfl := List.inj_on_of_nodup_map hR.areCompiled.nodup_storageNames hc' hc hname
        rw [Schedule.start, if_pos rfl] at hn
        obtain rfl := Option.some.inj hn
        exact htick
      · rw [Schedule.start, if_neg hname] at hn
        cases hn
    obtain ⟨v₃, hown, hfollows₃, hplace₃⟩ := Takes.onTick hR hfollows hend
    obtain ⟨w₃, htick, hw₃⟩ := hw₂.tick hfollows.root hown
    rw [Schedule.next_start] at hfollows₃ hplace₃
    refine ⟨w₃, v₃, ?_, hw₃, hfollows₃, ?_⟩
    · rw [World.on_ticks_succ, Run.on_bind_ok hticks, htick]
    · rw [hplace₃, foldl_goes_start hR hc, hplace, brings_latestAt?_succ]

/-- After a seek, the passenger is where the latest frame brings it. -/
theorem Shows.seek (hR : ArePlayable R.clips) (hc : c ∈ R.clips) (hw : R.Shows w v) {tick : Nat}
    (htick : tick < c.clip.duration) :
    ∃ w' v', Run.on (do
        World.setScore R.root (R.stage.names.localTime c.clip.storageName) (Int32.ofNat tick)
        World.run ((R.paths c).control "set_frame") (some R.root)) w = (.ok (), w') ∧
      R.Shows w' v' ∧ v'.place = R.goes (c.clip.latestFrame? tick) v.place := by
  have hobjective : w.hasObjective (R.stage.names.localTime c.clip.storageName) = true :=
    hw.runs.hasObjective (k := .localTime c.clip.storageName) ⟨c, hc, rfl⟩
  have hset := hw.setScore (.localTime c.clip.storageName) (Int32.ofNat tick)
  obtain ⟨v', htakes, hplace⟩ := Takes.setFrame
    (v := v.set (.localTime c.clip.storageName) (Int32.ofNat tick)) hR hc (by simp) htick
  obtain ⟨w', hrun, hw'⟩ := hset.run htakes (by decide)
  have hscore : Run.on (World.setScore R.root (R.stage.names.localTime c.clip.storageName)
      (Int32.ofNat tick)) w = (.ok (), w.setOwnerScore (.entity R.root)
        (R.stage.names.localTime c.clip.storageName) (Int32.ofNat tick)) :=
    Run.on_bind_ok (World.on_requireObjective hobjective)
  exact ⟨w', v', (Run.on_bind_ok hscore).trans hrun, hw', hplace⟩

end Ride

end Marionette
