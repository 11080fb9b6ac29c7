import Marionette.Proofs.Instance.Changes

/-!
# What commands do to an instance

A generated command takes one scene of an instance to another and changes nothing else in the world.

- `Instance.Takes`, `Instance.TakesAll`: a command, or commands in order, take one scene to another.
- One rule for each way in which the generated functions are put together: `Takes.call`,
  `Takes.ifOwn`, `Takes.ifTagged`, `Takes.onNode` and others.
- `Takes.sync`: the passengers take the interpolation duration over.
-/

namespace Marionette

namespace World

/-- Keeping the score of a name in the data of the executing entity. -/
theorem Does.storeScore_this {d : Nat} {w : World} {id : Nat} {name objective path : String}
    {Q : World → Prop} (hl : w.IsLiving id) (ho : w.hasObjective objective = true)
    (h : Q (w.modifyEntity id fun e => { e with
      data := e.data.insert path (.int ((w.fakeScore? name objective).getD 0)) })) :
    Does d (.execute [.storeResultEntity path] (.scoreGet (.fake name) objective))
      (some id) w Q := by
  obtain ⟨e, he, -⟩ := hl
  have hget : Run.on (World.runCommand (World.callFunction 0) (.scoreGet (.fake name) objective)
      (some id)) w = (.ok (w.fakeScore? name objective), w) := by
    show Run.on (Bind.bind (requireObjective objective) _) w = _
    rw [Run.on_bind_ok (on_requireObjective ho), Run.on_bind_ok (Run.on_get w)]
    rfl
  have hstore : Run.on (storeInEntity (some id) path ((w.fakeScore? name objective).getD 0)) w =
      (.ok (), w.modifyEntity id fun e => { e with
        data := e.data.insert path (.int ((w.fakeScore? name objective).getD 0)) }) := by
    show Run.on (Bind.bind (get : Run World) _) w = _
    rw [Run.on_bind_ok (Run.on_get w), he]
    rfl
  exact Leads.bind_on hget (Leads.bind_on hstore (Leads.pure h))

end World

namespace Instance

variable (I : Instance)

/-- With at least `d` levels of calls left, the command takes one scene of the instance to another
and changes nothing else. -/
def Takes (d : Nat) (executor : Option Nat) (c : Command) (sc sc' : Scene) : Prop :=
  ∀ w, I.Shows w sc → World.Does d c executor w (I.Reaches w sc')

/-- The same for commands in order. -/
def TakesAll (d : Nat) (executor : Option Nat) (cs : List Command) (sc sc' : Scene) : Prop :=
  ∀ w, I.Shows w sc → World.DoesAll d cs executor w (I.Reaches w sc')

variable {I} {d e : Nat} {executor : Option Nat} {c : Command} {cs : List Command}
  {rest : List Clause} {sc sc' sc'' : Scene} {k : ScoreKey} {t : TagKey} {v : Int32}

namespace TakesAll

theorem nil : I.TakesAll d executor [] sc sc :=
  fun _ hw => World.DoesAll.nil (.refl hw)

theorem cons (h : I.Takes d executor c sc sc') (h' : I.TakesAll d executor cs sc' sc'') :
    I.TakesAll d executor (c :: cs) sc sc'' := fun w hw =>
  World.DoesAll.cons (World.Does.imp (h w hw) fun w' hw' =>
    World.DoesAll.imp (h' w' hw'.1) fun _ => hw'.trans)

theorem append {bs : List Command} (h : I.TakesAll d executor cs sc sc')
    (h' : I.TakesAll d executor bs sc' sc'') : I.TakesAll d executor (cs ++ bs) sc sc'' :=
  fun w hw =>
  World.DoesAll.append (World.DoesAll.imp (h w hw) fun w' hw' =>
    World.DoesAll.imp (h' w' hw'.1) fun _ => hw'.trans)

theorem single (h : I.Takes d executor c sc sc') : I.TakesAll d executor [c] sc sc' :=
  cons h nil

end TakesAll

namespace Takes

/-- More depth does no harm. -/
theorem deeper (hde : d ≤ e) (h : I.Takes d executor c sc sc') : I.Takes e executor c sc sc' :=
  fun w hw => World.Does.deeper hde (h w hw)

/-- A comment changes nothing. -/
theorem comment {text : String} : I.Takes d executor (.comment text) sc sc :=
  fun _ hw => World.Does.comment (.refl hw)

/-- A call of a function of the rig. -/
theorem call {path : FunctionPath} {body : List Command}
    (hmem : (path, body) ∈ I.stage.functions I.clips) (h : I.TakesAll d executor body sc sc') :
    I.Takes (d + 1) executor (.function path) sc sc' := fun w hw =>
  World.Does.call hw.installs hmem (h w hw)

/-- A recorded command. -/
theorem raw {id : Nat} {text : String} :
    I.Takes d (some id) (.raw text) sc (sc.say id text) :=
  fun _ hw => World.Does.raw (.say hw id text)

/-! ### Scores and tags of the root -/

/-- Setting a score of the root. -/
theorem setOwn (hk : I.Has k) :
    I.Takes d (some I.root) (Marionette.setOwn (I.stage.names.score k) v) sc (sc.set k v) :=
  fun _ hw => World.Does.scoreSet_this hw.isLiving_root (hw.hasObjective hk) (.setScore hw k v)

/-- Adding to one, which counts from 0 where there is none. -/
theorem addOwn (hk : I.Has k) :
    I.Takes d (some I.root) (.scoreAdd .this (I.stage.names.score k) v) sc
      (sc.set k ((sc.score k).getD 0 + v)) := fun _ hw =>
  World.Does.scoreAdd_this hw.isLiving_root (hw.hasObjective hk) (hw.score k ▸ .setScore hw k _)

/-- Subtracting from one. -/
theorem removeOwn (hk : I.Has k) :
    I.Takes d (some I.root) (.scoreRemove .this (I.stage.names.score k) v) sc
      (sc.set k ((sc.score k).getD 0 - v)) := fun _ hw =>
  World.Does.scoreRemove_this hw.isLiving_root (hw.hasObjective hk) (hw.score k ▸ .setScore hw k _)

/-- Copying one to another. -/
theorem copyOwn {s : ScoreKey} (hk : I.Has k) (hs : I.Has s) :
    I.Takes d (some I.root)
      (Marionette.copyOwn (I.stage.names.score k) (I.stage.names.score s)) sc
      (sc.set k ((sc.score s).getD 0)) := fun _ hw =>
  World.Does.copyScore_this hw.isLiving_root (hw.hasObjective hk) (hw.hasObjective hs)
    (World.owners_this hw.isLiving_root) (hw.score s ▸ .setScore hw k _)

/-- Giving the root a tag. -/
theorem tagAdd : I.Takes d (some I.root) (.tagAdd .this (I.stage.names.tag t)) sc (sc.tag t) := by
  intro w hw
  refine World.Does.tagAdd_this hw.isLiving_root ?_
  cases ht : w.hasTag I.root (I.stage.names.tag t) with
  | false => exact Reaches.addTag hw t
  | true =>
    have hsame : sc.tag t = sc := by
      have htagged : ∀ k, (k == t || sc.tagged k) = sc.tagged k := by
        intro k
        by_cases hk : k = t
        · rw [hk, ← hw.hasTag t, ht, Bool.or_true]
        · rw [beq_false_of_ne hk, Bool.false_or]
      exact congrArg (fun tagged => { sc with tagged := tagged }) (funext htagged)
    rw [hsame]
    exact .refl hw

/-- Taking a tag from it. -/
theorem tagRemove :
    I.Takes d (some I.root) (.tagRemove .this (I.stage.names.tag t)) sc (sc.untag t) := by
  intro w hw
  refine World.Does.tagRemove_this hw.isLiving_root ?_
  cases ht : w.hasTag I.root (I.stage.names.tag t) with
  | true => exact Reaches.removeTag hw t
  | false =>
    have hsame : sc.untag t = sc := by
      have htagged : ∀ k, (k != t && sc.tagged k) = sc.tagged k := by
        intro k
        by_cases hk : k = t
        · rw [hk, ← hw.hasTag t, ht, Bool.and_false]
        · rw [bne_iff_ne.2 hk, Bool.true_and]
      exact congrArg (fun tagged => { sc with tagged := tagged }) (funext htagged)
    rw [hsame]
    exact .refl hw

/-! ### Clauses -/

theorem execute_nil (h : I.Takes d executor c sc sc') :
    I.Takes d executor (.execute [] c) sc sc' := h

/-- Where a command is run, and which way it faces, does not matter to a scene. -/
theorem execute_atEach {selector : Selector} (h : I.Takes d executor (.execute rest c) sc sc') :
    I.Takes d executor (.execute (.atEach selector :: rest) c) sc sc' := h

theorem execute_positionedLocal {offset : Vec3}
    (h : I.Takes d executor (.execute rest c) sc sc') :
    I.Takes d executor (.execute (.positionedLocal offset :: rest) c) sc sc' := h

theorem execute_rotatedRelative {yaw pitch : Float}
    (h : I.Takes d executor (.execute rest c) sc sc') :
    I.Takes d executor (.execute (.rotatedRelative yaw pitch :: rest) c) sc sc' := h

/-- A condition of the author. -/
theorem ifRaw {condition : String}
    (h : if I.home.conditions.getD condition true then I.Takes d executor (.execute rest c) sc sc'
      else sc' = sc) :
    I.Takes d executor (.execute (.raw condition :: rest) c) sc sc' := by
  intro w hw
  refine World.Does.execute_raw ?_
  rw [World.conditions_eq_of_setting hw.setting]
  split <;> rename_i hcondition
  · rw [if_pos hcondition] at h
    exact h w hw
  · rw [if_neg hcondition] at h
    exact h ▸ .refl hw

/-- A test of a score of the root. -/
theorem ifOwn {b : ScoreRange} (hk : I.Has k)
    (h : (sc.score k).any b.contains = true → I.Takes d (some I.root) (.execute rest c) sc sc') :
    I.Takes d (some I.root)
      (.execute (Marionette.ifOwn (I.stage.names.score k) b :: rest) c) sc
      (if (sc.score k).any b.contains then sc' else sc) := by
  intro w hw
  refine World.Does.execute_score (hw.hasObjective hk) ?_
  rw [World.firstScore?_this hw.isLiving_root, hw.score, Bool.bne_false]
  split
  · rename_i hrange
    exact h hrange w hw
  · exact .refl hw

/-- A test that a score of the root lies outside a range. -/
theorem unlessOwn {range : ScoreRange} (hk : I.Has k)
    (h : (sc.score k).any range.contains = false →
      I.Takes d (some I.root) (.execute rest c) sc sc') :
    I.Takes d (some I.root)
      (.execute (.unlessScore .this (I.stage.names.score k) range :: rest) c) sc
      (if (sc.score k).any range.contains then sc else sc') := by
  intro w hw
  refine World.Does.execute_score (hw.hasObjective hk) ?_
  rw [World.firstScore?_this hw.isLiving_root, hw.score]
  cases hrange : (sc.score k).any range.contains with
  | false => exact h hrange w hw
  | true => exact .refl hw

/-- A test of a tag of the root. -/
theorem ifTagged (h : sc.tagged t = true → I.Takes d (some I.root) (.execute rest c) sc sc') :
    I.Takes d (some I.root)
      (.execute (.ifEntity (Selector.this.tagged (I.stage.names.tag t)) :: rest) c) sc
      (if sc.tagged t then sc' else sc) := by
  intro w hw
  refine World.Does.ifTagged hw.isLiving_root ?_
  rw [hw.hasTag]
  cases ht : sc.tagged t with
  | false => exact .refl hw
  | true => exact h ht w hw

/-- A test that the root lacks a tag. -/
theorem unlessTagged (h : sc.tagged t = false → I.Takes d (some I.root) (.execute rest c) sc sc') :
    I.Takes d (some I.root)
      (.execute (.unlessEntity (Selector.this.tagged (I.stage.names.tag t)) :: rest) c) sc
      (if sc.tagged t then sc else sc') := by
  intro w hw
  refine World.Does.unlessTagged hw.isLiving_root ?_
  rw [hw.hasTag]
  cases ht : sc.tagged t with
  | false => exact h ht w hw
  | true => exact .refl hw

end Takes

/-! ### The passengers -/

/-- Goes on as each passenger; `step` says what this does to the scene, and `P` holds all the
time. -/
theorem does_onPassengers {step : Scene → Nat → Scene} {P : World → Prop} {w : World}
    (h : ∀ r ∈ I.riders, ∀ sc w, I.Shows w sc → P w →
      World.Does d (.execute rest c) (some r) w fun w' => I.Reaches w (step sc r) w' ∧ P w')
    (hw : I.Shows w sc) (hP : P w) :
    World.Does d (.execute (.onPassengers :: rest) c) (some I.root) w
      fun w' => I.Reaches w (I.riders.foldl step sc) w' ∧ P w' := by
  -- while some passengers are still to come, the scene is on its way to the last one
  let Inv (rs : List Nat) (w' : World) : Prop := ∃ now : Scene,
    (∀ r ∈ rs, r ∈ I.riders) ∧ (I.Reaches w now w' ∧ P w') ∧
      rs.foldl step now = I.riders.foldl step sc
  have hstep : ∀ r rs w', Inv (r :: rs) w' →
      World.Does d (.execute rest c) (some r) w' (Inv rs) := by
    rintro r rs w' ⟨now, hrs, ⟨hreach, hP⟩, hfold⟩
    refine World.Does.imp (h r (hrs r List.mem_cons_self) now w' hreach.1 hP) fun w'' hw'' => ?_
    exact ⟨step now r, fun r hr => hrs r (List.mem_cons_of_mem _ hr),
      ⟨hreach.trans hw''.1, hw''.2⟩, hfold⟩
  have hstart : Inv ((w.passengers I.root).map (·.id)) w := by
    rw [hw.passengers]
    exact ⟨sc, fun _ hr => hr, ⟨.refl hw, hP⟩, rfl⟩
  refine World.Does.imp (World.Does.execute_onPassengers hstep hstart) ?_
  rintro w' ⟨now, -, hnow, hfold⟩
  exact hfold ▸ hnow

/-- Goes on as each passenger; `step` says what this does to the scene. -/
theorem Takes.onPassengers {step : Scene → Nat → Scene}
    (h : ∀ r ∈ I.riders, ∀ sc, I.Takes d (some r) (.execute rest c) sc (step sc r)) :
    I.Takes d (some I.root) (.execute (.onPassengers :: rest) c) sc (I.riders.foldl step sc) := by
  intro w hw
  refine World.Does.imp (does_onPassengers (P := fun _ => True) ?_ hw trivial) fun _ => And.left
  exact fun r hr sc w hw _ => World.Does.imp (h r hr sc w hw) fun _ hw' => ⟨hw', trivial⟩

/-- What the entities of a node do to a scene. -/
def atNode (I : Instance) (name : String) (step : Nat → Scene → Scene) (sc : Scene) : Scene :=
  I.riders.foldl (fun sc r => if I.isNode r name then step r sc else sc) sc

/-- Goes on as the entity of a node. -/
theorem Takes.onNode {name : String} {step : Nat → Scene → Scene}
    (h : ∀ r ∈ I.riders, ∀ sc, I.Takes d (some r) (.execute rest c) sc (step r sc)) :
    I.Takes d (some I.root) (.execute (I.stage.onNode name ++ rest) c) sc
      (I.atNode name step sc) := by
  refine Takes.onPassengers fun r hr sc w hw => ?_
  refine World.Does.ifTagged (hw.isLiving_rider hr) ?_
  rw [hw.rider_hasTag hr]
  show if I.isNode r name then _ else _
  split
  · exact h r hr sc w hw
  · exact .refl hw

/-- Merging data into a passenger. -/
theorem Takes.dataMerge {r : Nat} (hr : r ∈ I.riders) {data : Compound} :
    I.Takes d (some r) (.dataMerge .this data) sc (sc.relook r (·.merged data)) := fun _ hw =>
  World.Does.dataMerge_this (hw.isLiving_rider hr)
    (Reaches.relook hw hr (fun _ => rfl) (fun _ => rfl))

/-- Moving a passenger. -/
theorem Takes.teleport {r : Nat} (hr : r ∈ I.riders) {offset : Vec3} {yaw pitch : Float} :
    I.Takes d (some r) (.teleport .this offset yaw pitch) sc
      (sc.relook r (·.moved offset yaw pitch)) := fun _ hw =>
  World.Does.teleport_this (hw.isLiving_rider hr)
    (Reaches.relook hw hr (fun _ => rfl) (fun _ => rfl))

/-- All passengers have taken the interpolation duration over. -/
def synced (I : Instance) (sc : Scene) : Scene :=
  I.riders.foldl (fun now r => now.relook r (·.timed ((sc.score .interp).getD 0))) sc

/-- The passengers take the interpolation duration over. -/
theorem Takes.sync (hk : I.Has .interp) :
    I.Takes (d + 1) (some I.root) I.stage.sync sc (I.synced sc) := by
  intro w hw
  have hmem : (I.stage.function "sync_interpolation", I.stage.syncBody) ∈
      I.stage.functions I.clips :=
    Stage.mem_functions_of_instance (List.mem_append_left _ (by simp))
  refine World.Does.call hw.installs hmem (World.DoesAll.cons ?_)
  have hcarried := Reaches.setCarried hw ((sc.score .interp).getD 0)
  refine World.Does.copyScore_this hw.isLiving_root (hw.hasObjective hk) (hw.hasObjective hk) rfl ?_
  rw [show w.score? I.root I.stage.names.interp = sc.score .interp from hw.score .interp]
  refine World.DoesAll.cons (World.Does.imp (does_onPassengers
    (P := fun w => w.fakeScore? "#interp" I.stage.names.interp =
      some ((sc.score .interp).getD 0)) ?_ hcarried.1 ?_)
    fun w' hw' => World.DoesAll.nil (hcarried.trans hw'.1))
  · intro r hr now w' hw' hscore
    refine World.Does.storeScore_this (hw'.isLiving_rider hr) (hw'.hasObjective hk) ⟨?_, hscore⟩
    rw [hscore]
    exact Reaches.relook hw' hr (fun _ => rfl) (fun _ => rfl)
  · exact (World.ownerScore?_setOwnerScore ..).trans (if_pos rfl)

end Instance

end Marionette
