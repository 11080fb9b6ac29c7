import Marionette.Proofs.World.Runs

/-!
# What single commands do

Rules for the clauses of `execute` commands and for the commands that generated functions use, run
as an entity that is alive.

- `World.IsLiving`: an entity that is alive and stands at the place of its number.
- `entity?_modifyEntity`, `ownerScore?_setOwnerScore`: what a single change leaves.
- `select_this`, `select_this_tagged`: what `@s` picks.
- `Does.execute_score`, `Does.execute_entity`, …: one rule for each clause.
- `Does.scoreSet_this`, `Does.tagAdd_this`, …: one rule for each command.
-/

namespace Marionette

namespace World

/-- The entity is alive and stands at the place of its number. -/
def IsLiving (w : World) (id : Nat) : Prop :=
  ∃ e, w.entity? id = some e ∧ e.id = id ∧ e.alive = true

variable {d : Nat} {w : World} {executor : Option Nat} {id : Nat} {c : Command}
  {rest : List Clause} {Q : World → Prop}

/-! ### What a change leaves -/

/-- Changing an entity changes what is found at its number only. -/
theorem entity?_modifyEntity (w : World) (id i : Nat) (f : Entity → Entity) :
    (w.modifyEntity id f).entity? i = if i = id then (w.entity? i).map f else w.entity? i := by
  unfold modifyEntity entity?
  rw [Array.getElem?_modify]
  by_cases h : id = i
  · rw [if_pos h, if_pos h.symm]
  · rw [if_neg h, if_neg fun h' => h h'.symm]

/-- What a change of an entity leaves as it is, it leaves as it is in every entity. -/
theorem map_entity?_modifyEntity {β : Type} (w : World) (id i : Nat) {f : Entity → Entity}
    {g : Entity → β} (h : ∀ e, g (f e) = g e) :
    ((w.modifyEntity id f).entity? i).map g = (w.entity? i).map g := by
  rw [entity?_modifyEntity]
  split
  · rw [Option.map_map]
    exact congrArg (fun k => (w.entity? i).map k) (funext h)
  · rfl

/-- Setting a score changes what is found for one owner and one objective. -/
theorem ownerScore?_setOwnerScore (w : World) (owner o : Owner) (objective b : String) (v : Int32) :
    (w.setOwnerScore owner objective v).ownerScore? o b =
      if (o, b) = (owner, objective) then some v else w.ownerScore? o b := by
  unfold setOwnerScore ownerScore?
  rw [Std.HashMap.getElem?_insert]
  by_cases h : (owner, objective) = (o, b)
  · rw [if_pos (by simpa using h), if_pos h.symm]
  · rw [if_neg (by simpa using h), if_neg fun h' => h h'.symm]

/-! ### What a selector picks -/

/-- A living executor selects itself. -/
theorem select_this (h : w.IsLiving id) : w.select .this (some id) = [id] := by
  obtain ⟨e, he, hid, halive⟩ := h
  simp [select, Selector.this, he, Entity.matches, halive, hid]

/-- With a tag in the selector, it selects itself just if it has the tag. -/
theorem select_this_tagged (h : w.IsLiving id) (tag : String) :
    w.select (Selector.this.tagged tag) (some id) = if w.hasTag id tag then [id] else [] := by
  obtain ⟨e, he, hid, halive⟩ := h
  have hmatch : e.matches (Selector.this.tagged tag) = e.hasTag tag := by
    simp [Entity.matches, Selector.this, Selector.tagged, halive]
  have hselect : w.select (Selector.this.tagged tag) (some id) =
      ([e].filter fun e => e.matches (Selector.this.tagged tag)).map (·.id) := by
    show (((some id).bind w.entity?).toList.filter _).map _ = _
    simp [he]
  have htag : w.hasTag id tag = e.hasTag tag := by simp [hasTag, he]
  rw [hselect, htag, List.filter_cons, hmatch]
  cases e.hasTag tag <;> simp [hid]

theorem owners_this (h : w.IsLiving id) : w.owners .this (some id) = [.entity id] := by
  simp [owners, Holder.this, select_this h]

theorem firstScore?_this (h : w.IsLiving id) (objective : String) :
    w.firstScore? .this (some id) objective = w.score? id objective := by
  simp [firstScore?, owners_this h, score?]

/-! ### Clauses -/

namespace Does

theorem imp {P : World → Prop} (h : Does d c executor w P) (hpq : ∀ w', P w' → Q w') :
    Does d c executor w Q :=
  Leads.imp h fun _ w' => hpq w'

theorem and {P : World → Prop} (h : Does d c executor w P) (h' : Does d c executor w Q) :
    Does d c executor w fun w' => P w' ∧ Q w' :=
  Leads.and h h'

theorem deeper {e : Nat} (hde : d ≤ e) (h : Does d c executor w Q) : Does e c executor w Q :=
  Leads.deeper hde h

theorem execute_nil (h : Does d c executor w Q) : Does d (.execute [] c) executor w Q :=
  h

/-- A test of a score: behind it the rest runs, or nothing at all. -/
theorem execute_score {negate : Bool} {holder : Holder} {objective : String} {range : ScoreRange}
    (ho : w.hasObjective objective = true)
    (h : if ((w.firstScore? holder executor objective).any range.contains) != negate then
      Does d (.execute rest c) executor w Q else Q w) :
    Does d (.execute (.score negate holder objective range :: rest) c) executor w Q := by
  exact Leads.bind_on (on_requireObjective ho) (Leads.bind_on (Run.on_get w) (Leads.guard h))

/-- A test for entities. -/
theorem execute_entity {negate : Bool} {selector : Selector}
    (h : if (!(w.select selector executor).isEmpty) != negate then
      Does d (.execute rest c) executor w Q else Q w) :
    Does d (.execute (.entity negate selector :: rest) c) executor w Q := by
  exact Leads.bind_on (Run.on_get w) (Leads.guard h)

/-- A condition of the author counts as true where there is no answer to it. -/
theorem execute_raw {condition : String}
    (h : if w.conditions.getD condition true then Does d (.execute rest c) executor w Q else Q w) :
    Does d (.execute (.raw condition :: rest) c) executor w Q := by
  exact Leads.bind_on (Run.on_get w) (Leads.guard h)

theorem execute_atEach {selector : Selector} (h : Does d (.execute rest c) executor w Q) :
    Does d (.execute (.atEach selector :: rest) c) executor w Q :=
  h

/-- Goes on as each picked entity; `I` says what holds while some of them are still to come. -/
theorem execute_asEach {selector : Selector} {I : List Nat → World → Prop}
    (hstep : ∀ id ids w, I (id :: ids) w → Does d (.execute rest c) (some id) w (I ids))
    (h : I (w.select selector executor) w) :
    Does d (.execute (.asEach selector :: rest) c) executor w (I []) :=
  Leads.bind_on (Run.on_get w) (Leads.fork hstep h 0)

/-- Goes on as the only picked entity. -/
theorem execute_asEach_single {selector : Selector} (hselect : w.select selector executor = [id])
    (h : Does d (.execute rest c) (some id) w Q) :
    Does d (.execute (.asEach selector :: rest) c) executor w Q := by
  -- while the entity is still to come nothing has happened, and afterwards all of it has
  refine imp (execute_asEach (I := fun ids w' => ids = [id] ∧ w' = w ∨ ids = [] ∧ Q w') ?_
    (.inl ⟨hselect, rfl⟩)) ?_
  · rintro id' ids w' (⟨hids, rfl⟩ | ⟨hids, -⟩)
    · obtain ⟨rfl, rfl⟩ := List.cons.inj hids
      exact h.imp fun w'' hw'' => .inr ⟨rfl, hw''⟩
    · cases hids
  · rintro w' (⟨hids, -⟩ | ⟨-, hw'⟩)
    · cases hids
    · exact hw'

/-- Goes on as each passenger; `I` says what holds while some of them are still to come. -/
theorem execute_onPassengers {I : List Nat → World → Prop}
    (hstep : ∀ p ids w, I (p :: ids) w → Does d (.execute rest c) (some p) w (I ids))
    (h : I ((w.passengers id).map (·.id)) w) :
    Does d (.execute (.onPassengers :: rest) c) (some id) w (I []) := by
  refine Leads.bind_on (Run.on_get w) (Leads.fork hstep ?_ 0)
  simpa using h

/-! ### Commands -/

/-- A call of a function runs its body one level deeper. -/
theorem function {path : FunctionPath} {body : List Command} (hf : w.functions[path]? = some body)
    (h : DoesAll d body executor w Q) : Does (d + 1) (.function path) executor w Q :=
  Leads.callFunction hf h

theorem comment {text : String} (h : Q w) : Does d (.comment text) executor w Q :=
  Leads.pure h

theorem raw {text : String} (h : Q { w with output := w.output.push ⟨executor, text⟩ }) :
    Does d (.raw text) executor w Q :=
  Leads.of_on rfl h

/-- Changing a score of the own entity from its old value. -/
theorem updateScores_this {objective : String} {f : Option Int32 → Int32} (hl : w.IsLiving id)
    (ho : w.hasObjective objective = true) :
    Run.on (updateScores .this objective (some id) f) w =
      (.ok (some (f (w.score? id objective))),
        w.setOwnerScore (.entity id) objective (f (w.score? id objective))) := by
  show Run.on (Bind.bind (requireObjective objective) _) w = _
  rw [Run.on_bind_ok (on_requireObjective ho), Run.on_bind_ok (Run.on_get w), owners_this hl]
  rfl

/-- On a living executor, commands on scores write to its own. -/
theorem scoreSet_this {objective : String} {value : Int32} (hl : w.IsLiving id)
    (ho : w.hasObjective objective = true) (h : Q (w.setOwnerScore (.entity id) objective value)) :
    Does d (.scoreSet .this objective value) (some id) w Q :=
  Leads.of_on (updateScores_this hl ho) h

theorem scoreAdd_this {objective : String} {value : Int32} (hl : w.IsLiving id)
    (ho : w.hasObjective objective = true)
    (h : Q (w.setOwnerScore (.entity id) objective ((w.score? id objective).getD 0 + value))) :
    Does d (.scoreAdd .this objective value) (some id) w Q :=
  Leads.of_on (updateScores_this hl ho) h

theorem scoreRemove_this {objective : String} {value : Int32} (hl : w.IsLiving id)
    (ho : w.hasObjective objective = true)
    (h : Q (w.setOwnerScore (.entity id) objective ((w.score? id objective).getD 0 - value))) :
    Does d (.scoreRemove .this objective value) (some id) w Q :=
  Leads.of_on (updateScores_this hl ho) h

/-- Copying a score of the own entity to the only score that a holder stands for. -/
theorem copyScore_this {holder : Holder} {owner : Owner} {target source : String}
    (hl : w.IsLiving id) (ht : w.hasObjective target = true) (hs : w.hasObjective source = true)
    (hh : w.owners holder (some id) = [owner])
    (h : Q (w.setOwnerScore owner target ((w.score? id source).getD 0))) :
    Does d (.copyScore holder target .this source) (some id) w Q := by
  refine Leads.bind_on (on_requireObjective ht) (Leads.bind_on (on_requireObjective hs)
    (Leads.bind_on (Run.on_get w) ?_))
  rw [owners_this hl, hh]
  exact Leads.of_on rfl h

theorem tagAdd_this {tag : String} (hl : w.IsLiving id)
    (h : Q (if w.hasTag id tag then w
      else w.modifyEntity id fun e => { e with tags := insertTag tag e.tags })) :
    Does d (.tagAdd .this tag) (some id) w Q := by
  refine Leads.bind_on (Run.on_get w) ?_
  rw [select_this hl]
  refine Leads.of_on rfl (show Q (w.addTags [id] tag).1 from ?_)
  cases ht : w.hasTag id tag <;> simpa [addTags, ht] using h

theorem tagRemove_this {tag : String} (hl : w.IsLiving id)
    (h : Q (if w.hasTag id tag then
      w.modifyEntity id fun e => { e with tags := e.tags.filter (· != tag) } else w)) :
    Does d (.tagRemove .this tag) (some id) w Q := by
  refine Leads.bind_on (Run.on_get w) ?_
  rw [select_this hl]
  refine Leads.of_on rfl (show Q (w.removeTags [id] tag).1 from ?_)
  cases ht : w.hasTag id tag <;> simpa [removeTags, ht] using h

theorem dataMerge_this {data : Compound} (hl : w.IsLiving id)
    (h : Q (w.modifyEntity id fun e => { e with data := Compound.merge e.data data })) :
    Does d (.dataMerge .this data) (some id) w Q := by
  refine Leads.bind_on (Run.on_get w) ?_
  rw [select_this hl]
  exact Leads.of_on rfl h

theorem teleport_this {offset : Vec3} {yaw pitch : Float} (hl : w.IsLiving id)
    (h : Q (w.modifyEntity id fun e => { e with teleport := some (offset, yaw, pitch) })) :
    Does d (.teleport .this offset yaw pitch) (some id) w Q := by
  refine Leads.bind_on (Run.on_get w) ?_
  rw [select_this hl]
  exact Leads.of_on rfl h

end Does

namespace DoesAll

theorem nil (h : Q w) : DoesAll d [] executor w Q :=
  Leads.runAll_nil h

theorem cons {cs : List Command}
    (h : Does d c executor w fun w' => DoesAll d cs executor w' Q) :
    DoesAll d (c :: cs) executor w Q :=
  Leads.runAll_cons h

theorem imp {cs : List Command} {P : World → Prop} (h : DoesAll d cs executor w P)
    (hpq : ∀ w', P w' → Q w') : DoesAll d cs executor w Q :=
  Leads.imp h fun _ w' => hpq w'

theorem append {as bs : List Command}
    (h : DoesAll d as executor w fun w' => DoesAll d bs executor w' Q) :
    DoesAll d (as ++ bs) executor w Q :=
  Leads.congr (fun _ => Run.on_runAll_append _ as bs w) (Leads.bind h)

end DoesAll

end World

end Marionette
