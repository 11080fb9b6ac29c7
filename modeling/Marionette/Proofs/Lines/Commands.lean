import Marionette.Functions.Basic
import Marionette.Proofs.Lines.Texts

/-!
# Commands that stay on one line

- `Command.IsOneLine`: every name in a command stays on a line, and no text in its data holds a
  carriage return.
- `Command.Fits`: it is not an empty line either.
- `Command.IsFinite`: its data has a text.
- `Command.Fits.exists_text`: such a command is written as one line that is not empty.
- `PackFile.exists_lines`: a function with such commands is written with one line for each.
-/

namespace Marionette

/-- The names of a selector stay on a line. -/
def Selector.IsOneLine (s : Selector) : Prop :=
  (∀ t ∈ s.entityType, IsLine t) ∧ ∀ t ∈ s.tags, IsLine t.1

/-- The names of a holder stay on a line. -/
def Holder.IsOneLine : Holder → Prop
  | entity selector => selector.IsOneLine
  | fake name => IsLine name

/-- The names of a clause stay on a line. -/
def Clause.IsOneLine : Clause → Prop
  | score _ holder objective _ => holder.IsOneLine ∧ IsLine objective
  | entity _ selector | asEach selector | atEach selector => selector.IsOneLine
  | onPassengers | positionedLocal _ | rotatedRelative _ _ => True
  | storeResultEntity path => IsLine path
  | storeResultScore holder objective => holder.IsOneLine ∧ IsLine objective
  | raw text => IsLine text

/-- No text in the data holds a carriage return. -/
def Compound.HasNoReturn (data : Compound) : Prop := (Datum.compound data).HasNoReturn

/-- Keys and values count alike. -/
theorem Compound.hasNoReturn_iff {data : Compound} :
    data.HasNoReturn ↔ ∀ e ∈ data, Marionette.HasNoReturn e.1 ∧ e.2.HasNoReturn := by
  rw [HasNoReturn, Datum.HasNoReturn, Datum.entriesWithoutReturn_iff]

namespace Command

/-- The names and the data of a command stay on a line. -/
@[simp] def IsOneLine : Command → Prop
  | objectiveAdd name => IsLine name
  | scoreSet holder objective _ | scoreAdd holder objective _ | scoreRemove holder objective _
  | scoreGet holder objective => holder.IsOneLine ∧ IsLine objective
  | scoreOperation target targetObjective _ source sourceObjective =>
    (target.IsOneLine ∧ IsLine targetObjective) ∧ source.IsOneLine ∧ IsLine sourceObjective
  | scoreReset holder objective => holder.IsOneLine ∧ ∀ o ∈ objective, IsLine o
  | tagAdd target tag | tagRemove target tag => target.IsOneLine ∧ IsLine tag
  | function path => IsLine path.namespaceName ∧ IsLine path.path
  | execute clauses run => (∀ c ∈ clauses, c.IsOneLine) ∧ run.IsOneLine
  | dataMerge target data => target.IsOneLine ∧ data.HasNoReturn
  | teleport target _ _ _ => target.IsOneLine
  | summon entity data => IsLine entity ∧ data.HasNoReturn
  | kill selector => selector.IsOneLine
  | raw text | comment text => IsLine text

/-- A command stays on a line, and there is something on it. -/
def Fits (c : Command) : Prop := c.IsOneLine ∧ c ≠ raw ""

@[simp] theorem fits_iff {c : Command} (h : c ≠ raw "") : c.Fits ↔ c.IsOneLine :=
  and_iff_left h

/-- No float in the data of a command is infinite or not a number. -/
def IsFinite : Command → Prop
  | execute _ run => run.IsFinite
  | dataMerge _ data | summon _ data => ∀ e ∈ data, e.2.IsFinite
  | _ => True

end Command

/-! ### Parts of commands -/

/-- Selectors are written with the entity type and the tags in brackets. -/
theorem Selector.IsOneLine.isLine_text {s : Selector} (h : s.IsOneLine) : IsLine s.text := by
  have hfilters : ∀ f ∈ s.filters, IsLine f := by
    intro f hf
    rcases List.mem_append.1 hf with hf | hf
    · obtain ⟨t, ht, rfl⟩ := List.mem_map.1 hf
      exact isLine_append.2 ⟨by decide, h.1 t (Option.mem_toList.1 ht)⟩
    · obtain ⟨t, ht, rfl⟩ := List.mem_map.1 hf
      rw [isLine_append, isLine_append]
      refine ⟨⟨by decide, ?_⟩, h.2 t ht⟩
      split <;> decide
  unfold text
  dsimp only
  split
  · cases s.base <;> decide
  · simp only [isLine_append]
    refine ⟨⟨⟨?_, by decide⟩, isLine_intercalate (by decide) hfilters⟩, by decide⟩
    cases s.base <;> decide

/-- Score holders are selectors or plain names. -/
theorem Holder.IsOneLine.isLine_text {h : Holder} (hh : h.IsOneLine) : IsLine h.text := by
  cases h with
  | entity selector => exact Selector.IsOneLine.isLine_text hh
  | fake name => exact hh

theorem ScoreRange.isLine_text (r : ScoreRange) : IsLine r.text := by
  unfold text
  dsimp only
  split
  · split
    · exact isLine_int _
    · exact .append (.append (isLine_int _) (by decide)) (isLine_int _)
  · exact .append (isLine_int _) (by decide)
  · exact .append (by decide) (isLine_int _)
  · decide

theorem isLine_coordinate (v : Float) : IsLine (coordinate v) := isLine_doubleText _

/-- Offsets are three numbers behind carets. -/
theorem isLine_localText (v : Vec3) : IsLine (localText v) := by
  simp only [localText, isLine_append, and_assoc]
  exact ⟨by decide, isLine_coordinate v.x, by decide, isLine_coordinate v.y, by decide,
    isLine_coordinate v.z⟩

theorem isLine_turnText (yaw pitch : Float) : IsLine (turnText yaw pitch) := by
  simp only [turnText, isLine_append, and_assoc]
  exact ⟨by decide, isLine_coordinate yaw, by decide, isLine_coordinate pitch⟩

theorem Clause.isLine_testWord (negate : Bool) : IsLine (testWord negate) := by
  cases negate <;> decide

/-- Every clause is written as a word and its arguments. -/
theorem Clause.IsOneLine.isLine_text {c : Clause} (h : c.IsOneLine) : IsLine c.text := by
  cases c with
  | score negate holder objective range =>
    show IsLine s!"{testWord negate} score {holder.text} {objective} matches {range.text}"
    simp only [isLine_append, and_assoc]
    exact ⟨isLine_testWord negate, by decide, h.1.isLine_text, by decide, h.2, by decide,
      range.isLine_text⟩
  | entity negate selector =>
    show IsLine s!"{testWord negate} entity {selector.text}"
    simp only [isLine_append, and_assoc]
    exact ⟨isLine_testWord negate, by decide, Selector.IsOneLine.isLine_text h⟩
  | asEach selector => exact .append (by decide) (Selector.IsOneLine.isLine_text h)
  | atEach selector => exact .append (by decide) (Selector.IsOneLine.isLine_text h)
  | onPassengers => exact show IsLine "on passengers" by decide
  | positionedLocal offset => exact .append (by decide) (isLine_localText offset)
  | rotatedRelative yaw pitch => exact .append (by decide) (isLine_turnText yaw pitch)
  | storeResultEntity path =>
    show IsLine s!"store result entity @s {path} int 1"
    simp only [isLine_append, and_assoc]
    exact ⟨by decide, h, by decide⟩
  | storeResultScore holder objective =>
    show IsLine s!"store result score {holder.text} {objective}"
    simp only [isLine_append, and_assoc]
    exact ⟨by decide, h.1.isLine_text, by decide, h.2⟩
  | raw text => exact h

/-- A function is written as its name space, a colon and its path. -/
theorem FunctionPath.isLine_text {path : FunctionPath} (hns : IsLine path.namespaceName)
    (hpath : IsLine path.path) : IsLine path.text := by
  simp only [text, isLine_append]
  exact ⟨⟨hns, by decide⟩, hpath⟩

/-! ### Commands -/

theorem ScoreOp.isLine_sign (op : ScoreOp) : IsLine op.sign := by
  cases op <;> decide

namespace Command

/-- A command whose names and data stay on a line is written on one line. -/
theorem IsOneLine.isLine_text {c : Command} (h : c.IsOneLine) {t : String} (ht : c.text = .ok t) :
    IsLine t := by
  induction c generalizing t with
  -- the clauses are lines by what was said of them, the command behind them by induction
  | execute clauses run ih =>
    obtain ⟨tail, htail, ht⟩ := exists_of_bind_ok ht
    cases ht
    simp only [isLine_append, and_assoc]
    refine ⟨by decide, isLine_join fun x hx => ?_, by decide, ih h.2 htail⟩
    obtain ⟨clause, hclause, rfl⟩ := List.mem_map.1 hx
    exact .append (by decide) (h.1 clause hclause).isLine_text
  -- data is written in the compact layout, which breaks no line by itself
  | dataMerge target data =>
    obtain ⟨written, hwritten, ht⟩ := exists_of_bind_ok ht
    cases ht
    simp only [isLine_append, and_assoc]
    exact ⟨by decide, h.1.isLine_text, by decide, Datum.isLine_renderAt 0 _ h.2 hwritten⟩
  | summon entity data =>
    obtain ⟨written, hwritten, ht⟩ := exists_of_bind_ok ht
    cases ht
    simp only [isLine_append, and_assoc]
    exact ⟨by decide, h.1, by decide, Datum.isLine_renderAt 0 _ h.2 hwritten⟩
  -- the other commands are words and the texts of their arguments
  | objectiveAdd name =>
    cases ht
    simp only [isLine_append, and_assoc]
    exact ⟨by decide, h, by decide⟩
  | scoreSet holder objective value | scoreAdd holder objective value
  | scoreRemove holder objective value =>
    cases ht
    simp only [isLine_append, and_assoc]
    exact ⟨by decide, h.1.isLine_text, by decide, h.2, by decide, isLine_int _⟩
  | scoreOperation target targetObjective op source sourceObjective =>
    cases ht
    simp only [isLine_append, and_assoc]
    exact ⟨by decide, .append (.append h.1.1.isLine_text (by decide)) h.1.2, by decide,
      op.isLine_sign, by decide, h.2.1.isLine_text, by decide, h.2.2⟩
  | scoreGet holder objective =>
    cases ht
    simp only [isLine_append, and_assoc]
    exact ⟨by decide, h.1.isLine_text, by decide, h.2⟩
  | scoreReset holder objective =>
    cases objective with
    | none =>
      cases ht
      exact .append (by decide) h.1.isLine_text
    | some objective =>
      cases ht
      simp only [isLine_append, and_assoc]
      exact ⟨by decide, h.1.isLine_text, by decide, h.2 objective rfl⟩
  | tagAdd target tag | tagRemove target tag =>
    cases ht
    simp only [isLine_append, and_assoc]
    exact ⟨by decide, h.1.isLine_text, by decide, h.2⟩
  | function path =>
    cases ht
    exact .append (by decide) (FunctionPath.isLine_text h.1 h.2)
  | teleport target offset yaw pitch =>
    cases ht
    simp only [isLine_append, and_assoc]
    exact ⟨by decide, Selector.IsOneLine.isLine_text h, by decide, isLine_localText offset,
      by decide, isLine_turnText yaw pitch⟩
  | kill selector =>
    cases ht
    exact .append (by decide) (Selector.IsOneLine.isLine_text h)
  | raw text =>
    cases ht
    exact h
  | comment text =>
    cases ht
    exact .append (by decide) h

/-- A command is written as nothing only where the author wrote nothing. -/
theorem text_ne_empty {c : Command} (hc : c ≠ raw "") {t : String} (ht : c.text = .ok t) :
    t ≠ "" := by
  cases c with
  | raw text =>
    -- raw text is all that there is, every other command begins with a word of its own
    cases ht
    exact fun hempty => hc (congrArg raw hempty)
  | execute clauses run =>
    obtain ⟨tail, htail, ht⟩ := exists_of_bind_ok ht
    cases ht
    simp [toString]
  | dataMerge target data =>
    obtain ⟨written, hwritten, ht⟩ := exists_of_bind_ok ht
    cases ht
    simp [toString]
  | summon entity data =>
    obtain ⟨written, hwritten, ht⟩ := exists_of_bind_ok ht
    cases ht
    simp [toString]
  | scoreReset holder objective =>
    cases objective <;>
    · cases ht
      simp [toString]
  | _ =>
    cases ht
    simp [toString]

/-- A command has a text as long as the floats in its data have one. -/
theorem IsFinite.exists_text {c : Command} (h : c.IsFinite) : ∃ t, c.text = .ok t := by
  induction c with
  | execute clauses run ih =>
    obtain ⟨tail, htail⟩ := ih h
    exact ⟨_, by rw [text, htail]; rfl⟩
  | dataMerge target data =>
    obtain ⟨written, hwritten⟩ := (Compound.exists_render_iff .compact).2 h
    exact ⟨_, by rw [text, hwritten]; rfl⟩
  | summon entity data =>
    obtain ⟨written, hwritten⟩ := (Compound.exists_render_iff .compact).2 h
    exact ⟨_, by rw [text, hwritten]; rfl⟩
  | scoreReset holder objective => cases objective <;> exact ⟨_, rfl⟩
  | _ => exact ⟨_, rfl⟩

/-- A command that fits is written as one line that is not empty. -/
theorem Fits.exists_text {c : Command} (h : c.Fits) (hfinite : c.IsFinite) :
    ∃ t, c.text = .ok t ∧ t ≠ "" ∧ IsLine t := by
  obtain ⟨t, ht⟩ := hfinite.exists_text
  exact ⟨t, ht, text_ne_empty h.2 ht, h.1.isLine_text ht⟩

end Command

/-- A function whose commands fit is written with one line for each command. -/
theorem PackFile.exists_lines (path : FunctionPath) {commands : List Command}
    (hfits : ∀ c ∈ commands, c.Fits) (hfinite : ∀ c ∈ commands, c.IsFinite) :
    ∃ lines : List String,
      (PackFile.function path commands).contents =
        .ok (String.join (lines.map fun line => line ++ "\n")) ∧
      List.Forall₂ (fun c line => c.text = .ok line ∧ line ≠ "" ∧ IsLine line) commands lines := by
  obtain ⟨lines, hlines, hfit⟩ : ∃ lines : List String, commands.mapM Command.text = .ok lines ∧
      List.Forall₂ (fun c line => c.text = .ok line ∧ line ≠ "" ∧ IsLine line) commands lines := by
    induction commands with
    | nil => exact ⟨[], rfl, .nil⟩
    | cons c rest ih =>
      obtain ⟨hc, hrest⟩ := List.forall_mem_cons.1 hfits
      obtain ⟨hcfinite, hrestfinite⟩ := List.forall_mem_cons.1 hfinite
      obtain ⟨line, hline, hfit⟩ := hc.exists_text hcfinite
      obtain ⟨lines, hlines, hall⟩ := ih hrest hrestfinite
      refine ⟨line :: lines, ?_, .cons ⟨hline, hfit⟩ hall⟩
      rw [List.mapM_cons, hline, hlines]
      rfl
  refine ⟨lines, ?_, hfit⟩
  rw [contents, hlines]
  rfl

end Marionette
