import Marionette.Proofs.World.Commands

/-!
# Changes of looks

Frames change only what entities look like: their data and the place to which they were moved.  They
change no score, tag or life, so nothing that a generated function tests.

- `World.setting`: what no control changes: functions, objectives and answers to conditions.
- `OnlyLooks`: two worlds that differ in looks and in recorded commands only.
- `Cosmetic`: commands that change looks only, with the functions that they call.
- `Cosmetic.does`: such a command ends without an error, and only looks differ afterwards.
-/

namespace Marionette

/-- An entity without its data and without the place to which it was moved. -/
def Entity.bare (e : Entity) : Entity :=
  { e with data := [], teleport := none }

/-- A clause that tests no score and keeps no result. -/
def Clause.isPlain : Clause → Bool
  | .score .. | .storeResultEntity _ | .storeResultScore .. => false
  | _ => true

namespace World

/-- A world without its entities, scores, recorded commands and clock. -/
def setting (w : World) : World :=
  { w with entities := #[], scores := {}, output := #[], gameTime := 0 }

section Setting

variable {w w' : World}

/-- What is part of the setting is the same where the setting is. -/
theorem functions_eq_of_setting (h : w'.setting = w.setting) : w'.functions = w.functions := by
  simpa only [setting] using congrArg World.functions h

theorem objectives_eq_of_setting (h : w'.setting = w.setting) : w'.objectives = w.objectives := by
  simpa only [setting] using congrArg World.objectives h

theorem conditions_eq_of_setting (h : w'.setting = w.setting) : w'.conditions = w.conditions := by
  simpa only [setting] using congrArg World.conditions h

theorem maxDepth_eq_of_setting (h : w'.setting = w.setting) : w'.maxDepth = w.maxDepth := by
  simpa only [setting] using congrArg World.maxDepth h

theorem tickFunctions_eq_of_setting (h : w'.setting = w.setting) :
    w'.tickFunctions = w.tickFunctions := by
  simpa only [setting] using congrArg World.tickFunctions h

end Setting

/-- The worlds differ in looks and in recorded commands only. -/
structure OnlyLooks (w w' : World) : Prop where
  setting : w'.setting = w.setting
  gameTime : w'.gameTime = w.gameTime
  scores : w'.scores = w.scores
  entities : w'.entities.map Entity.bare = w.entities.map Entity.bare

namespace OnlyLooks

variable {w w' w'' : World}

theorem refl (w : World) : OnlyLooks w w :=
  ⟨rfl, rfl, rfl, rfl⟩

theorem trans (h : OnlyLooks w w') (h' : OnlyLooks w' w'') : OnlyLooks w w'' :=
  ⟨h'.setting.trans h.setting, h'.gameTime.trans h.gameTime, h'.scores.trans h.scores,
    h'.entities.trans h.entities⟩

/-- What an entity is apart from its looks is the same. -/
theorem bare_entity? (h : OnlyLooks w w') (i : Nat) :
    (w'.entity? i).map Entity.bare = (w.entity? i).map Entity.bare := by
  have hi := congrArg (fun es : Array Entity => es[i]?) h.entities
  simpa only [Array.getElem?_map, World.entity?] using hi

/-- Scores are no part of looks. -/
theorem score? (h : OnlyLooks w w') (i : Nat) (objective : String) :
    w'.score? i objective = w.score? i objective := by
  unfold World.score? ownerScore?
  rw [h.scores]

theorem hasObjective (h : OnlyLooks w w') (objective : String) :
    w'.hasObjective objective = w.hasObjective objective := by
  unfold World.hasObjective
  rw [objectives_eq_of_setting h.setting]

/-- Neither is life. -/
theorem isLiving {i : Nat} (h : OnlyLooks w w') (hl : w.IsLiving i) : w'.IsLiving i := by
  obtain ⟨e, he, hid, halive⟩ := hl
  have hb := h.bare_entity? i
  rw [he] at hb
  obtain ⟨e', he', hee⟩ := Option.map_eq_some_iff.1 hb
  exact ⟨e', he', (congrArg Entity.id hee).trans hid, (congrArg Entity.alive hee).trans halive⟩

/-- A change of an entity that leaves everything but its looks. -/
theorem modifyEntity (w : World) (i : Nat) {f : Entity → Entity} (hf : ∀ e, (f e).bare = e.bare) :
    OnlyLooks w (w.modifyEntity i f) := by
  refine ⟨rfl, rfl, rfl, ?_⟩
  apply Array.ext
  · simp [World.modifyEntity]
  · intro j h₁ h₂
    simp only [World.modifyEntity, Array.getElem_map, Array.getElem_modify]
    split
    · exact hf _
    · rfl

/-- Changing the looks of several entities. -/
theorem foldl_modifyEntity (ids : List Nat) {f : Entity → Entity}
    (hf : ∀ e, (f e).bare = e.bare) (w : World) :
    OnlyLooks w (ids.foldl (fun w id => w.modifyEntity id f) w) := by
  induction ids generalizing w with
  | nil => exact refl w
  | cons id ids ih => exact (modifyEntity w id hf).trans (ih _)

end OnlyLooks

/-- Commands that change looks only, where `functions` says what functions do; calls go at most `d`
levels down. -/
inductive Cosmetic (functions : Std.HashMap FunctionPath (List Command)) :
    Nat → Command → Prop where
  | dataMerge {d : Nat} (target : Selector) (data : Compound) :
    Cosmetic functions d (.dataMerge target data)
  | teleport {d : Nat} (target : Selector) (offset : Vec3) (yaw pitch : Float) :
    Cosmetic functions d (.teleport target offset yaw pitch)
  | raw {d : Nat} (text : String) : Cosmetic functions d (.raw text)
  | comment {d : Nat} (text : String) : Cosmetic functions d (.comment text)
  | execute {d : Nat} {clauses : List Clause} {run : Command}
    (plain : ∀ c ∈ clauses, c.isPlain = true) (cosmetic : Cosmetic functions d run) :
    Cosmetic functions d (.execute clauses run)
  | function {d : Nat} {path : FunctionPath} {body : List Command}
    (known : functions[path]? = some body) (cosmetic : ∀ c ∈ body, Cosmetic functions d c) :
    Cosmetic functions (d + 1) (.function path)

namespace Cosmetic

variable {functions : Std.HashMap FunctionPath (List Command)} {d : Nat} {executor : Option Nat}
  {w : World}

/-- Commands one after the other change looks only if each of them does. -/
theorem doesAll_of_does {cs : List Command}
    (hstep : ∀ c ∈ cs, ∀ w : World, w.functions = functions → Does d c executor w (OnlyLooks w))
    (hw : w.functions = functions) : DoesAll d cs executor w (OnlyLooks w) := by
  induction cs generalizing w with
  | nil => exact DoesAll.nil (OnlyLooks.refl w)
  | cons c cs ih =>
    refine DoesAll.cons ((hstep c List.mem_cons_self w hw).imp fun w' hw' => ?_)
    have hf : w'.functions = functions := (functions_eq_of_setting hw'.setting).trans hw
    exact (ih (fun c hc => hstep c (List.mem_cons_of_mem _ hc)) hf).imp fun _ => hw'.trans

/-- Plain clauses change nothing themselves. -/
theorem execute_does {clauses : List Clause} {run : Command}
    (plain : ∀ c ∈ clauses, c.isPlain = true)
    (hrun : ∀ executor (w : World), w.functions = functions → Does d run executor w (OnlyLooks w))
    (hw : w.functions = functions) : Does d (.execute clauses run) executor w (OnlyLooks w) := by
  induction clauses generalizing w executor with
  | nil => exact hrun executor w hw
  | cons c rest ih =>
    have hrest : ∀ executor (w : World), w.functions = functions →
        Does d (.execute rest run) executor w (OnlyLooks w) := fun executor w hw =>
      ih (fun c hc => plain c (List.mem_cons_of_mem _ hc)) hw
    -- what holds while some entities are still to come: so far only looks have changed
    have hstep : ∀ id (ids : List Nat) (w' : World), OnlyLooks w w' →
        Does d (.execute rest run) (some id) w' (OnlyLooks w) := fun id _ w' hw' =>
      (hrest _ w' ((functions_eq_of_setting hw'.setting).trans hw)).imp fun _ => hw'.trans
    have hc := plain c List.mem_cons_self
    cases c with
    | score | storeResultEntity | storeResultScore => cases hc
    | entity negate selector =>
      refine Does.execute_entity ?_
      split
      · exact hrest executor w hw
      · exact OnlyLooks.refl w
    | raw condition =>
      refine Does.execute_raw ?_
      split
      · exact hrest executor w hw
      · exact OnlyLooks.refl w
    | asEach selector =>
      exact Does.execute_asEach (I := fun _ => OnlyLooks w) hstep (OnlyLooks.refl w)
    | onPassengers =>
      cases executor with
      | none => exact Leads.bind_on (Run.on_get w) (Leads.pure (OnlyLooks.refl w))
      | some id =>
        exact Does.execute_onPassengers (I := fun _ => OnlyLooks w) hstep (OnlyLooks.refl w)
    | atEach | positionedLocal | rotatedRelative => exact hrest executor w hw

/-- A cosmetic command ends without an error, and afterwards only looks differ. -/
theorem does {c : Command} (h : Cosmetic functions d c) (hw : w.functions = functions) :
    Does d c executor w (OnlyLooks w) := by
  induction h generalizing w executor with
  | dataMerge target data =>
    exact Leads.bind_on (Run.on_get w)
      (Leads.of_on rfl (OnlyLooks.foldl_modifyEntity
        (f := fun e => { e with data := Compound.merge e.data data }) _ (fun _ => rfl) w))
  | teleport target offset yaw pitch =>
    exact Leads.bind_on (Run.on_get w)
      (Leads.of_on rfl (OnlyLooks.foldl_modifyEntity
        (f := fun e => { e with teleport := some (offset, yaw, pitch) }) _ (fun _ => rfl) w))
  | raw text => exact Does.raw ⟨rfl, rfl, rfl, rfl⟩
  | comment text => exact Does.comment (OnlyLooks.refl w)
  | execute plain _ ih => exact execute_does plain (fun _ _ hw => ih hw) hw
  | function known _ ih =>
    exact Does.function (hw ▸ known) (doesAll_of_does (fun c hc w hw => ih c hc hw) hw)

/-- What is cosmetic within some levels of calls is so within more. -/
theorem deeper {c : Command} {e : Nat} (h : Cosmetic functions d c) (hde : d ≤ e) :
    Cosmetic functions e c := by
  induction h generalizing e with
  | dataMerge target data => exact .dataMerge target data
  | teleport target offset yaw pitch => exact .teleport target offset yaw pitch
  | raw text => exact .raw text
  | comment text => exact .comment text
  | execute plain _ ih => exact .execute plain (ih hde)
  | function known _ ih =>
    obtain ⟨n, rfl⟩ : ∃ n, e = n + 1 := ⟨e - 1, by omega⟩
    exact .function known fun c hc => ih c hc (by omega)

end Cosmetic

end World

end Marionette
