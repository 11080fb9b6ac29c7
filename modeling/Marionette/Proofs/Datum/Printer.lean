import Marionette.Datum.Printer
import Marionette.Proofs.Results

/-!
# Data that can be written

The only values without a text are floats that are not finite.

- `Datum.renderAt_list`, `Datum.renderAt_compound`: a container has a text exactly where its parts
  have one, and which; `Datum.renderItems_cons`, `Datum.renderEntries_cons`: so has a row of parts.
- `Datum.IsFinite`: no float within a value is infinite or not a number.
- `Datum.exists_renderAt`: such a value has a text in every layout.
- `Datum.isFinite_of_renderAt`: no other value has one.
- `Compound.exists_render_iff`: the same for the entries of a compound.
-/

namespace Marionette

namespace Datum

/-! ### Texts of containers

One step of the printer each, in any layout: what a text says about the texts of the parts. -/

/-- A list has a text where its items have one, which is put between brackets. -/
theorem renderAt_list {layout : Layout} {level : Nat} {items : List Datum} {text : String} :
    renderAt layout level (list items) = .ok text ↔
      ∃ body, renderItems layout (isBroken layout items) (level + 1) true items = .ok body ∧
        text = "[" ++ body ++ breakIf (isBroken layout items) level ++ "]" := by
  rw [renderAt]
  constructor
  · intro h
    obtain ⟨body, hbody, h⟩ := exists_of_bind_ok h
    exact ⟨body, hbody, (Except.ok.inj h).symm⟩
  · rintro ⟨body, hbody, rfl⟩
    rw [hbody]
    rfl

/-- A compound with entries has a text where these have one, which is put between braces. -/
theorem renderAt_compound {layout : Layout} {level : Nat} {e : String × Datum}
    {entries : List (String × Datum)} {text : String} :
    renderAt layout level (compound (e :: entries)) = .ok text ↔
      ∃ body, renderEntries layout (level + 1) true (e :: entries) = .ok body ∧
        text = "\x7b" ++ body ++ breakIf (layout = .indented) level ++ "\x7d" := by
  rw [renderAt]
  constructor
  · intro h
    obtain ⟨body, hbody, h⟩ := exists_of_bind_ok h
    exact ⟨body, hbody, (Except.ok.inj h).symm⟩
  · rintro ⟨body, hbody, rfl⟩
    rw [hbody]
    rfl

/-- The first item has a text of its own, and so have the others, behind a comma. -/
theorem renderItems_cons {layout : Layout} {broken : Bool} {level : Nat} {first : Bool}
    {item : Datum} {items : List Datum} {text : String} :
    renderItems layout broken level first (item :: items) = .ok text ↔
      ∃ own rest, renderAt layout level item = .ok own ∧
        renderItems layout broken level false items = .ok rest ∧
        text = (if first then "" else ",") ++ breakIf broken level ++ own ++ rest := by
  rw [renderItems]
  constructor
  · intro h
    obtain ⟨own, hown, h⟩ := exists_of_bind_ok h
    obtain ⟨rest, hrest, h⟩ := exists_of_bind_ok h
    exact ⟨own, rest, hown, hrest, (Except.ok.inj h).symm⟩
  · rintro ⟨own, rest, hown, hrest, rfl⟩
    rw [hown, hrest]
    rfl

/-- The value of the first entry has a text, which comes behind the key, and so have the others. -/
theorem renderEntries_cons {layout : Layout} {level : Nat} {first : Bool} {key : String}
    {value : Datum} {entries : List (String × Datum)} {text : String} :
    renderEntries layout level first ((key, value) :: entries) = .ok text ↔
      ∃ own rest, renderAt layout level value = .ok own ∧
        renderEntries layout level false entries = .ok rest ∧
        text = (if first then "" else ",") ++ breakIf (layout = .indented) level ++ keyText key ++
          (if layout = .indented then ": " else ":") ++ own ++ rest := by
  rw [renderEntries]
  constructor
  · intro h
    obtain ⟨own, hown, h⟩ := exists_of_bind_ok h
    obtain ⟨rest, hrest, h⟩ := exists_of_bind_ok h
    exact ⟨own, rest, hown, hrest, (Except.ok.inj h).symm⟩
  · rintro ⟨own, rest, hown, hrest, rfl⟩
    rw [hown, hrest]
    rfl

/-! ### Values without infinite floats -/

mutual

/-- No float within a value is infinite or not a number. -/
def IsFinite : Datum → Prop
  | float v => v.isFinite = true
  | double v => v.isFinite = true
  | list items => AllFinite items
  | compound entries => EntriesFinite entries
  | _ => True

/-- The same for the items of a list. -/
def AllFinite : List Datum → Prop
  | [] => True
  | item :: items => item.IsFinite ∧ AllFinite items

/-- The same for the entries of a compound. -/
def EntriesFinite : List (String × Datum) → Prop
  | [] => True
  | (_, value) :: entries => value.IsFinite ∧ EntriesFinite entries

end

theorem allFinite_iff {items : List Datum} : AllFinite items ↔ ∀ d ∈ items, d.IsFinite := by
  induction items with
  | nil => simp [AllFinite]
  | cons item items ih => simp [AllFinite, ih]

theorem entriesFinite_iff {entries : List (String × Datum)} :
    EntriesFinite entries ↔ ∀ e ∈ entries, e.2.IsFinite := by
  induction entries with
  | nil => simp [EntriesFinite]
  | cons e entries ih =>
    obtain ⟨key, value⟩ := e
    simp [EntriesFinite, ih]

mutual

/-- A value without such floats has a text. -/
theorem exists_renderAt (layout : Layout) (level : Nat) (d : Datum) (h : d.IsFinite) :
    ∃ text, renderAt layout level d = .ok text := by
  match d, h with
  | byte v, _ | short v, _ | int v, _ | long v, _ | string s, _ | byteArray items, _
  | intArray items, _ => exact ⟨_, rfl⟩
  | float v, h =>
    refine ⟨Decimal.singleText (if v == 0 then 0 else v) ++ "f", ?_⟩
    rw [IsFinite] at h
    rw [renderAt, floatText, h]
    rfl
  | double v, h =>
    refine ⟨Decimal.doubleText (if v == 0 then 0 else v) ++ "d", ?_⟩
    rw [IsFinite] at h
    rw [renderAt, doubleText, h]
    rfl
  | list items, h =>
    rw [IsFinite] at h
    obtain ⟨body, hbody⟩ :=
      exists_renderItems layout (isBroken layout items) (level + 1) true items h
    exact ⟨_, renderAt_list.2 ⟨body, hbody, rfl⟩⟩
  | compound [], _ => exact ⟨_, rfl⟩
  | compound (e :: entries), h =>
    rw [IsFinite] at h
    obtain ⟨body, hbody⟩ := exists_renderEntries layout (level + 1) true (e :: entries) h
    exact ⟨_, renderAt_compound.2 ⟨body, hbody, rfl⟩⟩

theorem exists_renderItems (layout : Layout) (broken : Bool) (level : Nat) (first : Bool)
    (items : List Datum) (h : AllFinite items) :
    ∃ text, renderItems layout broken level first items = .ok text := by
  match items, h with
  | [], _ => exact ⟨_, rfl⟩
  | item :: items, h =>
    rw [AllFinite] at h
    obtain ⟨text, htext⟩ := exists_renderAt layout level item h.1
    obtain ⟨rest, hrest⟩ := exists_renderItems layout broken level false items h.2
    exact ⟨_, renderItems_cons.2 ⟨text, rest, htext, hrest, rfl⟩⟩

theorem exists_renderEntries (layout : Layout) (level : Nat) (first : Bool)
    (entries : List (String × Datum)) (h : EntriesFinite entries) :
    ∃ text, renderEntries layout level first entries = .ok text := by
  match entries, h with
  | [], _ => exact ⟨_, rfl⟩
  | (key, value) :: entries, h =>
    rw [EntriesFinite] at h
    obtain ⟨text, htext⟩ := exists_renderAt layout level value h.1
    obtain ⟨rest, hrest⟩ := exists_renderEntries layout level false entries h.2
    exact ⟨_, renderEntries_cons.2 ⟨text, rest, htext, hrest, rfl⟩⟩

end

mutual

/-- A value with a text has no such floats. -/
theorem isFinite_of_renderAt (layout : Layout) (level : Nat) (d : Datum) {text : String}
    (h : renderAt layout level d = .ok text) : d.IsFinite := by
  match d, h with
  | byte v, _ | short v, _ | int v, _ | long v, _ | string s, _ | byteArray items, _
  | intArray items, _ => simp [IsFinite]
  | float v, h =>
    rw [IsFinite]
    rw [renderAt, floatText] at h
    cases hv : v.isFinite with
    | true => rfl
    | false =>
      rw [hv] at h
      cases h
  | double v, h =>
    rw [IsFinite]
    rw [renderAt, doubleText] at h
    cases hv : v.isFinite with
    | true => rfl
    | false =>
      rw [hv] at h
      cases h
  | list items, h =>
    -- a list could only be written if all its items could
    obtain ⟨body, hbody, -⟩ := renderAt_list.1 h
    rw [IsFinite]
    exact allFinite_of_renderItems layout _ _ _ items hbody
  | compound [], _ => simp [IsFinite, EntriesFinite]
  | compound (e :: entries), h =>
    obtain ⟨body, hbody, -⟩ := renderAt_compound.1 h
    rw [IsFinite]
    exact entriesFinite_of_renderEntries layout _ _ (e :: entries) hbody

theorem allFinite_of_renderItems (layout : Layout) (broken : Bool) (level : Nat) (first : Bool)
    (items : List Datum) {text : String}
    (h : renderItems layout broken level first items = .ok text) :
    AllFinite items := by
  match items, h with
  | [], _ => simp [AllFinite]
  | item :: items, h =>
    obtain ⟨own, rest, hown, hrest, -⟩ := renderItems_cons.1 h
    rw [AllFinite]
    constructor
    · exact isFinite_of_renderAt layout _ item hown
    · exact allFinite_of_renderItems layout _ _ _ items hrest

theorem entriesFinite_of_renderEntries (layout : Layout) (level : Nat) (first : Bool)
    (entries : List (String × Datum)) {text : String}
    (h : renderEntries layout level first entries = .ok text) : EntriesFinite entries := by
  match entries, h with
  | [], _ => simp [EntriesFinite]
  | (key, value) :: entries, h =>
    obtain ⟨own, rest, hown, hrest, -⟩ := renderEntries_cons.1 h
    rw [EntriesFinite]
    constructor
    · exact isFinite_of_renderAt layout _ value hown
    · exact entriesFinite_of_renderEntries layout _ _ entries hrest

end

end Datum

/-- A compound has a text if and only if no float in its entries is infinite or not a number. -/
theorem Compound.exists_render_iff (layout : Datum.Layout) {c : Compound} :
    (∃ text, Compound.render layout c = .ok text) ↔ ∀ e ∈ c, e.2.IsFinite := by
  have hentries : (Datum.compound c).IsFinite ↔ ∀ e ∈ c, e.2.IsFinite := by
    rw [Datum.IsFinite, Datum.entriesFinite_iff]
  rw [← hentries]
  constructor
  · rintro ⟨text, htext⟩
    exact Datum.isFinite_of_renderAt layout 0 (.compound c) htext
  · exact Datum.exists_renderAt layout 0 (.compound c)

end Marionette
