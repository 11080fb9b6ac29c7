import Marionette.Proofs.Ride.View

/-!
# Commands on a ride

- `Ride.Takes`, `Ride.TakesAll`: a command of the root, or commands in order, take one view to
  another.
- `Ride.Stays`: a command of any passenger leaves the view as it is.
- One rule for each way in which the generated functions are put together: `Takes.call`,
  `Takes.setOwn`, `Takes.ifTagged_pass`, `Takes.onPassengers` and others.
- `Takes.changeNode`: changing the entities of a node brings the passenger somewhere if it is one of
  them.
- `Takes.sync`: the passengers take the interpolation duration over where they are.
-/

namespace Marionette

namespace Ride

open World (Does DoesAll OnlyLooks Changes Change)

variable (R : Ride)

/-- With at least `d` levels of calls left, the command of the root takes one view to another. -/
def Takes (d : Nat) (c : Command) (v v' : View) : Prop :=
  ∀ w, R.Shows w v → Does d c (some R.root) w fun w' => R.Shows w' v'

/-- The same for commands in order. -/
def TakesAll (d : Nat) (cs : List Command) (v v' : View) : Prop :=
  ∀ w, R.Shows w v → DoesAll d cs (some R.root) w fun w' => R.Shows w' v'

/-- Run as an entity that is alive, the command changes nothing but looks, and it leaves the view as
it is. -/
def Stays (d : Nat) (x : Nat) (c : Command) : Prop :=
  ∀ w v, R.Shows w v → w.IsLiving x → Does d c (some x) w fun w' => OnlyLooks w w' ∧ R.Shows w' v

variable {R} {d e x : Nat} {c : Command} {cs : List Command} {rest : List Clause} {v v' v'' : View}
  {k : ScoreKey} {t : TagKey}

namespace TakesAll

theorem nil : R.TakesAll d [] v v :=
  fun _ hw => DoesAll.nil hw

theorem cons (h : R.Takes d c v v') (h' : R.TakesAll d cs v' v'') : R.TakesAll d (c :: cs) v v'' :=
  fun w hw => DoesAll.cons (Does.imp (h w hw) h')

theorem append {bs : List Command} (h : R.TakesAll d cs v v') (h' : R.TakesAll d bs v' v'') :
    R.TakesAll d (cs ++ bs) v v'' :=
  fun w hw => DoesAll.append (DoesAll.imp (h w hw) h')

theorem single (h : R.Takes d c v v') : R.TakesAll d [c] v v' :=
  cons h nil

/-- Commands each of which leaves the view as it is. -/
theorem all (h : ∀ c ∈ cs, R.Takes d c v v) : R.TakesAll d cs v v := by
  induction cs with
  | nil => exact nil
  | cons c rest ih =>
    obtain ⟨hc, hrest⟩ := List.forall_mem_cons.1 h
    exact cons hc (ih hrest)

end TakesAll

namespace Takes

/-- More depth does no harm. -/
theorem deeper (hde : d ≤ e) (h : R.Takes d c v v') : R.Takes e c v v' :=
  fun w hw => Does.deeper hde (h w hw)

/-- A call of a function of the rig. -/
theorem call {path : FunctionPath} {body : List Command}
    (hmem : (path, body) ∈ R.stage.functions R.clips) (h : R.TakesAll d body v v') :
    R.Takes (d + 1) (.function path) v v' :=
  fun w hw => Does.call hw.runs.hosts.installs hmem (h w hw)

/-- A comment changes nothing. -/
theorem comment {text : String} : R.Takes d (.comment text) v v :=
  fun _ hw => Does.comment hw

/-- Nor do the author's commands. -/
theorem raw {text : String} : R.Takes d (.raw text) v v :=
  fun _ hw => Does.raw (hw.say _)

/-! ### Scores and tags of the root -/

/-- Setting a score of the root. -/
theorem setOwn {n : Int32} (hk : k.IsAmong R.clips) :
    R.Takes d (Marionette.setOwn (R.stage.names.score k) n) v (v.set k n) :=
  fun _ hw => Does.scoreSet_this hw.isLiving_root (hw.runs.hasObjective hk) (hw.setScore k n)

/-- Adding to one, which counts from 0 where there is none. -/
theorem addOwn {n : Int32} (hk : k.IsAmong R.clips) :
    R.Takes d (.scoreAdd .this (R.stage.names.score k) n) v (v.set k ((v.score k).getD 0 + n)) :=
  fun _ hw => Does.scoreAdd_this hw.isLiving_root (hw.runs.hasObjective hk)
    (hw.score k ▸ hw.setScore k _)

/-- Copying one to another. -/
theorem copyOwn {s : ScoreKey} (hk : k.IsAmong R.clips) (hs : s.IsAmong R.clips) :
    R.Takes d (Marionette.copyOwn (R.stage.names.score k) (R.stage.names.score s)) v
      (v.set k ((v.score s).getD 0)) :=
  fun _ hw => Does.copyScore_this hw.isLiving_root (hw.runs.hasObjective hk)
    (hw.runs.hasObjective hs) (World.owners_this hw.isLiving_root) (hw.score s ▸ hw.setScore k _)

/-- Giving the root a tag. -/
theorem tagAdd : R.Takes d (.tagAdd .this (R.stage.names.tag t)) v (v.tag t) := by
  intro w hw
  refine Does.tagAdd_this hw.isLiving_root ?_
  rw [hw.hasTag]
  cases ht : v.tagged t with
  | false => exact hw.addTag t
  | true => exact (View.tag_eq_self ht).symm ▸ hw

/-- Taking a tag from it. -/
theorem tagRemove : R.Takes d (.tagRemove .this (R.stage.names.tag t)) v (v.untag t) := by
  intro w hw
  refine Does.tagRemove_this hw.isLiving_root ?_
  rw [hw.hasTag]
  cases ht : v.tagged t with
  | true => exact hw.removeTag t
  | false => exact (View.untag_eq_self ht).symm ▸ hw

/-! ### Clauses -/

/-- Without clauses the command is run. -/
theorem execute_nil (h : R.Takes d c v v') : R.Takes d (.execute [] c) v v' :=
  h

/-- A test of a score of the root that passes. -/
theorem ifOwn_pass {range : ScoreRange} (hk : k.IsAmong R.clips)
    (hin : (v.score k).any range.contains = true) (h : R.Takes d (.execute rest c) v v') :
    R.Takes d (.execute (Marionette.ifOwn (R.stage.names.score k) range :: rest) c) v v' := by
  intro w hw
  refine Does.execute_score (hw.runs.hasObjective hk) ?_
  rw [World.firstScore?_this hw.isLiving_root, hw.score, hin]
  exact h w hw

/-- A test that no score of the root passes. -/
theorem ifOwn_skip {range : ScoreRange} (hk : k.IsAmong R.clips)
    (h : (v.score k).any range.contains = false) :
    R.Takes d (.execute (Marionette.ifOwn (R.stage.names.score k) range :: rest) c) v v := by
  intro w hw
  refine Does.execute_score (hw.runs.hasObjective hk) ?_
  rw [World.firstScore?_this hw.isLiving_root, hw.score, h]
  exact hw

/-- A test that a score of the root lies outside a range, which it does. -/
theorem unlessOwn_pass {range : ScoreRange} (hk : k.IsAmong R.clips)
    (hout : (v.score k).any range.contains = false) (h : R.Takes d (.execute rest c) v v') :
    R.Takes d (.execute (.unlessScore .this (R.stage.names.score k) range :: rest) c) v v' := by
  intro w hw
  refine Does.execute_score (hw.runs.hasObjective hk) ?_
  rw [World.firstScore?_this hw.isLiving_root, hw.score, hout]
  exact h w hw

/-- A test that a score of the root lies outside a range in which it lies. -/
theorem unlessOwn_skip {range : ScoreRange} (hk : k.IsAmong R.clips)
    (hin : (v.score k).any range.contains = true) :
    R.Takes d (.execute (.unlessScore .this (R.stage.names.score k) range :: rest) c) v v := by
  intro w hw
  refine Does.execute_score (hw.runs.hasObjective hk) ?_
  rw [World.firstScore?_this hw.isLiving_root, hw.score, hin]
  exact hw

/-- A test of a tag that the root carries. -/
theorem ifTagged_pass (ht : v.tagged t = true) (h : R.Takes d (.execute rest c) v v') :
    R.Takes d (.execute (.ifEntity (Selector.this.tagged (R.stage.names.tag t)) :: rest) c)
      v v' := by
  intro w hw
  refine Does.ifTagged hw.isLiving_root ?_
  rw [hw.hasTag, ht]
  exact h w hw

/-- A test of a tag that the root does not carry. -/
theorem ifTagged_skip (ht : v.tagged t = false) :
    R.Takes d (.execute (.ifEntity (Selector.this.tagged (R.stage.names.tag t)) :: rest) c)
      v v := by
  intro w hw
  refine Does.ifTagged hw.isLiving_root ?_
  rw [hw.hasTag, ht]
  exact hw

/-- A test that leaves the view as it is whether it goes on or not. -/
theorem unlessTagged (h : R.Takes d (.execute rest c) v v) :
    R.Takes d (.execute (.unlessEntity (Selector.this.tagged (R.stage.names.tag t)) :: rest) c)
      v v := by
  intro w hw
  refine Does.unlessTagged hw.isLiving_root ?_
  split
  · exact hw
  · exact h w hw

/-- Conditions of the author, behind which the view stays as it is. -/
theorem ifRaws {conditions : List String} (h : R.Takes d c v v) :
    R.Takes d (.execute (conditions.map .raw) c) v v := by
  induction conditions with
  | nil => exact execute_nil h
  | cons condition rest ih =>
    intro w hw
    refine Does.execute_raw ?_
    split
    · exact ih w hw
    · exact hw

end Takes

/-! ### The passengers -/

namespace Stays

/-- The author's commands leave the passenger alone. -/
theorem raw {text : String} : R.Stays d x (.raw text) :=
  fun _ _ hw _ => Does.raw ⟨⟨rfl, rfl, rfl, rfl⟩, hw.say _⟩

theorem execute_nil (h : R.Stays d x c) : R.Stays d x (.execute [] c) :=
  h

theorem execute_atEach {selector : Selector} (h : R.Stays d x (.execute rest c)) :
    R.Stays d x (.execute (.atEach selector :: rest) c) :=
  h

/-- Behind conditions of the author the command is run or not; either way the view stays. -/
theorem ifRaws {conditions : List String} (h : R.Stays d x c) :
    R.Stays d x (.execute (conditions.map .raw) c) := by
  induction conditions with
  | nil => exact execute_nil h
  | cons condition rest ih =>
    intro w v hw hx
    refine Does.execute_raw ?_
    split
    · exact ih w v hw hx
    · exact ⟨.refl w, hw⟩

/-- It is the same with a test of a tag. -/
theorem ifTagged {tag : String} (h : R.Stays d x (.execute rest c)) :
    R.Stays d x (.execute (.ifEntity (Selector.this.tagged tag) :: rest) c) := by
  intro w v hw hx
  refine Does.ifTagged hx ?_
  split
  · exact h w v hw hx
  · exact ⟨.refl w, hw⟩

end Stays

namespace Takes

/-- Goes on as each passenger.  What happens to the passenger itself happens once, and the others
leave it alone. -/
theorem onPassengers
    (hrider : ∀ w, R.Shows w v → Does d (.execute rest c) (some R.rider) w fun w' =>
      OnlyLooks w w' ∧ R.Shows w' v')
    (hothers : ∀ x, x ≠ R.rider → R.Stays d x (.execute rest c)) :
    R.Takes d (.execute (.onPassengers :: rest) c) v v' := by
  intro w hw
  have ht := hw.runs.tied
  obtain ⟨carrier, hcarrier, hmem⟩ := hw.body.rides
  -- the view changes when the turn of the passenger comes
  let Inv (ids : List Nat) (w' : World) : Prop :=
    OnlyLooks w w' ∧ ids.Nodup ∧ (∀ x ∈ ids, w.IsLiving x) ∧
      R.Shows w' (if R.rider ∈ ids then v else v')
  have hstep : ∀ x ids w', Inv (x :: ids) w' →
      Does d (.execute rest c) (some x) w' (Inv ids) := by
    rintro x ids w' ⟨hlooks, hnodup, hliving, hshows⟩
    obtain ⟨hx, hrest⟩ := List.nodup_cons.1 hnodup
    obtain ⟨hlive, hlives⟩ := List.forall_mem_cons.1 hliving
    by_cases hid : x = R.rider
    · subst hid
      rw [if_pos List.mem_cons_self] at hshows
      refine Does.imp (hrider w' hshows) ?_
      rintro w'' ⟨hlooks', hshows'⟩
      refine ⟨hlooks.trans hlooks', hrest, hlives, ?_⟩
      rwa [if_neg hx]
    · refine Does.imp (hothers x hid w' _ hshows (hlooks.isLiving hlive)) ?_
      rintro w'' ⟨hlooks', hshows'⟩
      refine ⟨hlooks.trans hlooks', hrest, hlives, ?_⟩
      have hiff : R.rider ∈ x :: ids ↔ R.rider ∈ ids := by
        rw [List.mem_cons, or_iff_right fun h => hid h.symm]
      simpa only [hiff] using hshows'
  have hstart : Inv ((w.passengers R.root).map (·.id)) w := by
    rw [World.passengers_eq ht hcarrier]
    refine ⟨.refl w, World.nodup_passengers ht hcarrier, fun x hx => ?_, ?_⟩
    · exact World.Carries.isLiving ⟨carrier, hcarrier, hx⟩ ht
    · rwa [if_pos hmem]
  refine Does.imp (Does.execute_onPassengers hstep hstart) ?_
  rintro w' ⟨-, -, -, hshows⟩
  rwa [if_neg List.not_mem_nil] at hshows

/-- Goes on as each passenger, where all of them leave the view as it is. -/
theorem onPassengers_stays (h : ∀ x, R.Stays d x (.execute rest c)) :
    R.Takes d (.execute (.onPassengers :: rest) c) v v :=
  onPassengers (fun w hw => h R.rider w v hw hw.isLiving_rider) fun x _ => h x

/-- Changing what the entities of a node look like: the passenger goes where the change brings it if
it is one of them. -/
theorem changeNode {slot : Slot} (hslot : slot ∈ R.stage.rig.slots.toList) {f : Entity → Entity}
    {g : Place → Place} (hbare : ∀ e, (f e).bare = e.bare)
    (hplace : ∀ e, (f e).look.place = g e.look.place)
    (hc : ∀ (x : Nat) (w : World) (Q : World → Prop), w.IsLiving x → Q (w.modifyEntity x f) →
      Does d c (some x) w Q) :
    R.Takes d (.execute (R.stage.onNode slot.storageName) c) v
      (if slot.storageName = R.slot.storageName then v.move (g v.place) else v) := by
  refine onPassengers ?_ fun x hx => ?_
  · intro w hw
    refine Does.ifTagged hw.isLiving_rider ?_
    rw [hw.rider_hasTag hslot]
    by_cases hname : slot.storageName = R.slot.storageName
    · rw [if_pos hname, if_pos (decide_eq_true hname)]
      refine Does.execute_nil (hc _ _ _ hw.isLiving_rider ⟨OnlyLooks.modifyEntity w _ hbare, ?_⟩)
      refine hw.relook hbare fun e he => ?_
      rw [if_pos rfl, hplace, he]
    · rw [if_neg hname, if_neg (by simpa using hname)]
      exact ⟨.refl w, hw⟩
  · refine Stays.ifTagged (Stays.execute_nil fun w v hw hlive => ?_)
    have hshows : R.Shows (w.modifyEntity x f) (v.move v.place) := by
      refine hw.relook hbare fun e he => ?_
      rw [if_neg fun h => hx h.symm, he]
    exact hc _ _ _ hlive ⟨OnlyLooks.modifyEntity w _ hbare, hshows⟩

/-- The passengers take the interpolation duration over, and stay where they are. -/
theorem sync : R.Takes (d + 1) R.stage.sync v v := by
  intro w hw
  have hmem : (R.stage.function "sync_interpolation", R.stage.syncBody) ∈
      R.stage.functions R.clips :=
    Stage.mem_functions_of_instance (List.mem_append_left _ (by simp))
  have hinterp : w.hasObjective R.stage.names.interp = true :=
    hw.runs.hasObjective (k := .interp) trivial
  refine Does.call hw.runs.hosts.installs hmem (DoesAll.cons ?_)
  refine Does.copyScore_this hw.isLiving_root hinterp hinterp rfl (DoesAll.cons ?_)
  have hcarried := hw.setCarried R.stage.names.interp
    ((w.score? R.root R.stage.names.interp).getD 0)
  refine Does.imp (onPassengers_stays ?_ _ hcarried) fun _ hw => DoesAll.nil hw
  intro x w v hw hx
  have hinterp : w.hasObjective R.stage.names.interp = true :=
    hw.runs.hasObjective (k := .interp) trivial
  -- the duration is not a part of where an entity is
  let duration : Datum := .int ((w.fakeScore? "#interp" R.stage.names.interp).getD 0)
  let timed (e : Entity) : Entity :=
    { e with data := e.data.insert "interpolation_duration" duration }
  have hshows : R.Shows (w.modifyEntity x timed) (v.move v.place) := by
    refine hw.relook (f := timed) (fun _ => rfl) fun e he => ?_
    split
    · exact (e.look.place_timed _).trans he
    · exact he
  exact Does.storeScore_this hx hinterp ⟨OnlyLooks.modifyEntity w x fun _ => rfl, hshows⟩

end Takes

end Ride

end Marionette
