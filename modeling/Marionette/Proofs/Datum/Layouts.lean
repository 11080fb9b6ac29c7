import Marionette.Proofs.Datum.Unambiguous

/-!
# Both layouts say the same

The indented text of a value is its compact text with blanks between its parts: take away every
space and line feed that stands outside of quotes, and the compact text is left.  A text is read
from its start, keeping track of whether the place is within quotes and behind a backslash.

- `Quoting`, `dropBlanks`, `withoutBlanks`: a text without the blanks outside of quotes.
- `Shrinks`: what is left of a part that starts and ends outside of quotes, whatever follows it.
- `Datum.shrinks_escapedText`, `Datum.shrinks_keyText`, `Datum.shrinks_lineBreak`: the parts of
  texts.
- `Datum.shrinks_renderAt`: the indented text of a value shrinks to its compact text at every depth.
- `Datum.withoutBlanks_render`: so do the whole texts of values, compounds and lists.
-/

namespace Marionette

/-! ### Blanks outside of quotes -/

/-- Where a place of a text stands. -/
inductive Quoting where
  /-- Outside of quotes. -/
  | outside
  /-- Between quotes. -/
  | inside
  /-- Between quotes, behind a backslash. -/
  | escaped
deriving DecidableEq, Repr

/-- Where the place behind a character stands. -/
def Quoting.next : Quoting → Char → Quoting
  | outside, c => if c = '"' then inside else outside
  | inside, c => if c = '"' then outside else if c = '\\' then escaped else inside
  | escaped, _ => inside

/-- A space or a line feed. -/
def isBlank (c : Char) : Bool := c == ' ' || c == '\n'

/-- The characters from a place on, without the blanks outside of quotes. -/
def dropBlanks : Quoting → List Char → List Char
  | _, [] => []
  | q, c :: cs =>
    if q = .outside ∧ isBlank c then dropBlanks q cs else c :: dropBlanks (q.next c) cs

/-- A text without the spaces and line feeds outside of quotes. -/
def withoutBlanks (text : String) : String :=
  .ofList (dropBlanks .outside text.toList)

example : withoutBlanks "\x7b\n  \"a \\\" b\": [1, 2]\n\x7d" = "\x7b\"a \\\" b\":[1,2]\x7d" := by
  decide

/-- A part of a text that starts and ends outside of quotes, and what is left of it. -/
def Shrinks (part left : List Char) : Prop :=
  ∀ rest, dropBlanks .outside (part ++ rest) = left ++ dropBlanks .outside rest

theorem withoutBlanks_of_shrinks {part left : String} (h : Shrinks part.toList left.toList) :
    withoutBlanks part = left := by
  have hleft := h []
  rw [List.append_nil, dropBlanks, List.append_nil] at hleft
  rw [withoutBlanks, hleft, String.ofList_toList]

namespace Shrinks

variable {part left part' left' : List Char} {c : Char}

theorem nil : Shrinks [] [] := fun _ => rfl

theorem append (h : Shrinks part left) (h' : Shrinks part' left') :
    Shrinks (part ++ part') (left ++ left') := by
  intro rest
  rw [List.append_assoc, h, h', List.append_assoc]

/-- A blank is left out. -/
theorem blank (hc : isBlank c = true) : Shrinks [c] [] := fun _ => if_pos ⟨rfl, hc⟩

/-- A character that is no blank and no quote stays. -/
theorem plain (hc : isBlank c = false) (hquote : c ≠ '"') : Shrinks [c] [c] := by
  intro rest
  have hstays : ¬ (Quoting.outside = .outside ∧ isBlank c = true) := by simp [hc]
  have hnext : Quoting.outside.next c = .outside := if_neg hquote
  rw [List.singleton_append, dropBlanks, if_neg hstays, hnext]
  rfl

theorem cons (hc : isBlank c = false) (hquote : c ≠ '"') (h : Shrinks part left) :
    Shrinks (c :: part) (c :: left) :=
  (plain hc hquote).append h

/-- So does a part of such characters. -/
theorem of_forall (h : ∀ c ∈ part, isBlank c = false ∧ c ≠ '"') : Shrinks part part := by
  induction part with
  | nil => exact nil
  | cons c part ih =>
    obtain ⟨hc, hpart⟩ := List.forall_mem_cons.1 h
    exact cons hc.1 hc.2 (ih hpart)

/-- What is left out altogether may stand in front. -/
theorem skip (h : Shrinks part []) (h' : Shrinks part' left') : Shrinks (part ++ part') left' :=
  h.append h'

/-- A part of blanks is left out. -/
theorem of_blanks (h : ∀ c ∈ part, isBlank c = true) : Shrinks part [] := by
  induction part with
  | nil => exact nil
  | cons c part ih =>
    obtain ⟨hc, hpart⟩ := List.forall_mem_cons.1 h
    exact (blank hc).skip (ih hpart)

end Shrinks

namespace Datum

open Decimal (isNumeric IsNumeral)

/-! ### Parts of texts -/

/-- An escaped character stays, and the place behind it is between quotes again. -/
theorem dropBlanks_escapedChar (c : Char) (rest : List Char) :
    dropBlanks .inside (escapedChar c ++ rest) = escapedChar c ++ dropBlanks .inside rest := by
  have hkept (q : Quoting) (hq : q ≠ .outside) (a : Char) (cs : List Char) :
      dropBlanks q (a :: cs) = a :: dropBlanks (q.next a) cs := if_neg fun h => hq h.1
  unfold escapedChar
  split
  · exact (hkept .inside nofun _ _).trans (congrArg _ (hkept .escaped nofun _ _))
  · split
    · exact (hkept .inside nofun _ _).trans (congrArg _ (hkept .escaped nofun _ _))
    · split
      · exact (hkept .inside nofun _ _).trans (congrArg _ (hkept .escaped nofun _ _))
      · rename_i hslash hquote hfeed
        have hnext : Quoting.inside.next c = .inside := by
          rw [Quoting.next, if_neg hquote, if_neg hslash]
        rw [List.singleton_append, hkept .inside nofun, hnext]
        rfl

/-- A quoted text stays as it is, whatever it says. -/
theorem shrinks_escapedText (s : String) :
    Shrinks (escapedText s).toList (escapedText s).toList := by
  have hbody (cs rest : List Char) :
      dropBlanks .inside (cs.flatMap escapedChar ++ '"' :: rest) =
        cs.flatMap escapedChar ++ '"' :: dropBlanks .outside rest := by
    induction cs with
    | nil => rfl
    | cons c cs ih =>
      rw [List.flatMap_cons, List.append_assoc, dropBlanks_escapedChar, ih, List.append_assoc]
  intro rest
  rw [toList_escapedText, List.cons_append, List.append_assoc, List.singleton_append,
    List.cons_append, List.append_assoc, List.singleton_append, ← hbody]
  rfl

/-- A key stays as it is, with quotes or without. -/
theorem shrinks_keyText (key : String) : Shrinks (keyText key).toList (keyText key).toList := by
  by_cases hbare : isBareKey key = true
  · rw [keyText_of_isBareKey hbare]
    refine .of_forall fun c hc => ?_
    have hc := (exists_cons_of_isBareKey hbare).2 c hc
    constructor
    · rw [isBlank, Bool.or_eq_false_iff, beq_eq_false_iff_ne, beq_eq_false_iff_ne]
      constructor <;> (rintro rfl; exact absurd hc (by decide))
    · rintro rfl
      exact absurd hc (by decide)
  · rw [keyText_of_not_isBareKey hbare]
    exact shrinks_escapedText key

/-- No numeral has a blank or a quote in it. -/
theorem plain_of_isNumeric {c : Char} (h : isNumeric c = true) : isBlank c = false ∧ c ≠ '"' := by
  constructor
  · rw [isBlank, Bool.or_eq_false_iff, beq_eq_false_iff_ne, beq_eq_false_iff_ne]
    constructor <;> (rintro rfl; exact absurd h (by decide))
  · rintro rfl
    exact absurd h (by decide)

theorem plain_of_mem_suffix {k : Kind} {c : Char} (h : c ∈ suffix k) :
    isBlank c = false ∧ c ≠ '"' := by
  cases k <;> simp only [suffix, List.mem_singleton, List.not_mem_nil] at h <;> subst h <;> decide

/-- The items of a packed list have no blanks or quotes between them or in them. -/
theorem plain_of_mem_intercalate {xs : List (List Char)}
    (hxs : ∀ x ∈ xs, ∀ c ∈ x, isBlank c = false ∧ c ≠ '"') :
    ∀ c ∈ [','].intercalate xs, isBlank c = false ∧ c ≠ '"' := by
  intro c hc
  induction xs with
  | nil => cases hc
  | cons x xs ih =>
    obtain ⟨hx, hrest⟩ := List.forall_mem_cons.1 hxs
    cases xs with
    | nil =>
      rw [List.intercalate_singleton] at hc
      exact hx c hc
    | cons y ys =>
      rw [List.intercalate_cons_cons, List.append_assoc, List.mem_append, List.mem_append,
        List.mem_singleton] at hc
      obtain hc | rfl | hc := hc
      · exact hx c hc
      · decide
      · exact ih hrest hc

theorem shrinks_lineBreak (level : Nat) : Shrinks (lineBreak level).toList [] := by
  rw [lineBreak, String.toList_ofList]
  refine .of_blanks (List.forall_mem_cons.2 ⟨rfl, fun c hc => ?_⟩)
  rw [List.eq_of_mem_replicate hc]
  rfl

theorem shrinks_breakIf (broken : Bool) (level : Nat) :
    Shrinks (breakIf broken level).toList [] := by
  cases broken with
  | false => exact .nil
  | true => exact shrinks_lineBreak level

theorem shrinks_separator (first : Bool) : Shrinks (separator first) (separator first) := by
  cases first with
  | false => exact .plain (by decide) (by decide)
  | true => exact .nil

/-! ### Indented texts of containers -/

/-- The indented text of a list has the break of its level before the bracket, or none. -/
theorem exists_items_indented {items : List Datum} {level : Nat} {t : String}
    (h : renderAt .indented level (list items) = .ok t) :
    ∃ body, renderItems .indented (isBroken .indented items) (level + 1) true items = .ok body ∧
      t.toList =
        '[' :: (body.toList ++ ((breakIf (isBroken .indented items) level).toList ++ [']'])) := by
  obtain ⟨body, hbody, rfl⟩ := renderAt_list.1 h
  refine ⟨body, hbody, ?_⟩
  simp [String.toList_append]

/-- The indented text of a compound with entries has such a break before the brace. -/
theorem exists_entries_indented {e : String × Datum} {entries : List (String × Datum)} {level : Nat}
    {t : String} (h : renderAt .indented level (compound (e :: entries)) = .ok t) :
    ∃ body, renderEntries .indented (level + 1) true (e :: entries) = .ok body ∧
      t.toList = '\x7b' :: (body.toList ++ ((lineBreak level).toList ++ ['\x7d'])) := by
  obtain ⟨body, hbody, rfl⟩ := renderAt_compound.1 h
  refine ⟨body, hbody, ?_⟩
  simp [String.toList_append, breakIf]

/-- The text of the first item stands behind its break, before those of the others. -/
theorem exists_item_indented {item : Datum} {items : List Datum} {broken : Bool} {level : Nat}
    {first : Bool} {t : String}
    (h : renderItems .indented broken level first (item :: items) = .ok t) :
    ∃ own rest, renderAt .indented level item = .ok own ∧
      renderItems .indented broken level false items = .ok rest ∧
      t.toList = separator first ++
        ((breakIf broken level).toList ++ (own.toList ++ rest.toList)) := by
  obtain ⟨own, rest, hown, hrest, rfl⟩ := renderItems_cons.1 h
  refine ⟨own, rest, hown, hrest, ?_⟩
  cases first <;> simp [String.toList_append, separator]

/-- The first entry stands on its line, with a space behind the colon. -/
theorem exists_entry_indented {key : String} {value : Datum} {entries : List (String × Datum)}
    {level : Nat} {first : Bool} {t : String}
    (h : renderEntries .indented level first ((key, value) :: entries) = .ok t) :
    ∃ own rest, renderAt .indented level value = .ok own ∧
      renderEntries .indented level false entries = .ok rest ∧
      t.toList = separator first ++ ((lineBreak level).toList ++
        ((keyText key).toList ++ ':' :: ([' '] ++ (own.toList ++ rest.toList)))) := by
  obtain ⟨own, rest, hown, hrest, rfl⟩ := renderEntries_cons.1 h
  refine ⟨own, rest, hown, hrest, ?_⟩
  cases first <;> simp [String.toList_append, breakIf, separator]

/-! ### Values -/

/-- A number looks the same in both layouts, and none of it is left out. -/
theorem shrinks_number {d : Datum} {level level' : Nat} {t u body : String}
    (hbody : numeral? d = some body) (h : renderAt .indented level d = .ok t)
    (h' : renderAt .compact level' d = .ok u) : Shrinks t.toList u.toList := by
  obtain ⟨ht, -, hnumeric⟩ := renderAt_number hbody h
  rw [(renderAt_number hbody h').1, ht]
  refine .of_forall (List.forall_mem_append.2 ⟨fun c hc => ?_, fun c hc => ?_⟩)
  · exact plain_of_isNumeric (hnumeric c hc)
  · exact plain_of_mem_suffix hc

/-- So does a packed list. -/
theorem shrinks_packed {mark : Char} {xs : List (List Char)} {t : List Char}
    (hmark : isBlank mark = false ∧ mark ≠ '"')
    (hxs : ∀ x ∈ xs, ∀ c ∈ x, isBlank c = false ∧ c ≠ '"')
    (ht : t = '[' :: mark :: ';' :: ([','].intercalate xs ++ [']'])) : Shrinks t t := by
  refine .of_forall ?_
  rw [ht]
  refine List.forall_mem_cons.2 ⟨by decide, List.forall_mem_cons.2 ⟨hmark, ?_⟩⟩
  refine List.forall_mem_cons.2 ⟨by decide, List.forall_mem_append.2 ⟨?_, ?_⟩⟩
  · exact plain_of_mem_intercalate hxs
  · exact List.forall_mem_singleton.2 (by decide)

theorem plain_of_mem_int {n : Int} {c : Char} (hc : c ∈ (toString n).toList) :
    isBlank c = false ∧ c ≠ '"' :=
  plain_of_isNumeric ((Decimal.isNumeral_int n).2 c hc)

mutual

/-- At every depth the indented text of a value shrinks to its compact text. -/
theorem shrinks_renderAt (d : Datum) {level level' : Nat} {t u : String}
    (h : renderAt .indented level d = .ok t) (h' : renderAt .compact level' d = .ok u) :
    Shrinks t.toList u.toList := by
  -- numbers and packed lists have the same text in both layouts; the others shrink part by part
  match d, h, h' with
  | byte v, h, h' | short v, h, h' | int v, h, h' | long v, h, h' | float v, h, h'
  | double v, h, h' => exact shrinks_number rfl h h'
  | string s, h, h' =>
    cases h
    cases h'
    exact shrinks_escapedText s
  | list items, h, h' =>
    obtain ⟨body, hbody, ht⟩ := exists_items_indented h
    obtain ⟨body', hbody', hu⟩ := exists_items h'
    rw [ht, hu]
    -- the brackets are no blanks, and what is between them shrinks
    refine .cons (by decide) (by decide) ?_
    refine (shrinks_renderItems items hbody hbody').append ?_
    exact (shrinks_breakIf _ level).append (.plain (by decide) (by decide))
  | compound [], h, h' =>
    cases h
    cases h'
    exact .cons (by decide) (by decide) (.plain (by decide) (by decide))
  | compound (e :: entries), h, h' =>
    obtain ⟨body, hbody, ht⟩ := exists_entries_indented h
    obtain ⟨body', hbody', hu⟩ := exists_entries h'
    rw [ht, hu]
    refine .cons (by decide) (by decide) ?_
    refine (shrinks_renderEntries (e :: entries) hbody hbody').append ?_
    exact (shrinks_lineBreak level).append (.plain (by decide) (by decide))
  | byteArray items, h, h' =>
    obtain rfl : t = u := Except.ok.inj (h.symm.trans h')
    have hmark : isBlank 'B' = false ∧ 'B' ≠ '"' := by decide
    refine shrinks_packed hmark (List.forall_mem_map.2 fun v _ => ?_) (toList_byteArray h')
    exact List.forall_mem_append.2
      ⟨fun c hc => plain_of_mem_int hc, List.forall_mem_singleton.2 (by decide)⟩
  | intArray items, h, h' =>
    obtain rfl : t = u := Except.ok.inj (h.symm.trans h')
    have hmark : isBlank 'I' = false ∧ 'I' ≠ '"' := by decide
    exact shrinks_packed hmark (List.forall_mem_map.2 fun v _ c hc => plain_of_mem_int hc)
      (toList_intArray h')

/-- The items of a list do, on lines of their own or not. -/
theorem shrinks_renderItems (items : List Datum) {broken first : Bool} {level level' : Nat}
    {t u : String} (h : renderItems .indented broken level first items = .ok t)
    (h' : renderItems .compact false level' first items = .ok u) : Shrinks t.toList u.toList := by
  match items, h, h' with
  | [], h, h' =>
    cases h
    cases h'
    exact .nil
  | item :: items, h, h' =>
    obtain ⟨own, rest, hown, hrest, ht⟩ := exists_item_indented h
    obtain ⟨own', rest', hown', hrest', hu⟩ := exists_item h'
    rw [ht, hu]
    refine (shrinks_separator first).append ?_
    refine (shrinks_breakIf broken level).skip ?_
    exact (shrinks_renderAt item hown hown').append (shrinks_renderItems items hrest hrest')

/-- So do the entries of a compound. -/
theorem shrinks_renderEntries (entries : List (String × Datum)) {first : Bool} {level level' : Nat}
    {t u : String} (h : renderEntries .indented level first entries = .ok t)
    (h' : renderEntries .compact level' first entries = .ok u) : Shrinks t.toList u.toList := by
  match entries, h, h' with
  | [], h, h' =>
    cases h
    cases h'
    exact .nil
  | (key, value) :: entries, h, h' =>
    obtain ⟨own, rest, hown, hrest, ht⟩ := exists_entry_indented h
    obtain ⟨own', rest', hown', hrest', hu⟩ := exists_entry h'
    rw [ht, hu]
    refine (shrinks_separator first).append ?_
    refine (shrinks_lineBreak level).skip ((shrinks_keyText key).append ?_)
    refine .cons (by decide) (by decide) ((Shrinks.blank (by decide)).skip ?_)
    exact (shrinks_renderAt value hown hown').append (shrinks_renderEntries entries hrest hrest')

end

/-! ### Whole texts -/

/-- Something has a text in both layouts, and the indented one without the blanks outside of quotes
is the compact one. -/
def SaysSame (text : Layout → Except Fault String) : Prop :=
  ∃ indented compact, text .indented = .ok indented ∧ text .compact = .ok compact ∧
    withoutBlanks indented = compact

theorem saysSame_render {d : Datum} (h : d.IsFinite) : SaysSame fun layout => d.render layout := by
  obtain ⟨indented, hindented⟩ := exists_renderAt .indented 0 d h
  obtain ⟨compact, hcompact⟩ := exists_renderAt .compact 0 d h
  exact ⟨indented, compact, hindented, hcompact,
    withoutBlanks_of_shrinks (shrinks_renderAt d hindented hcompact)⟩

/-- Values, compounds and lists without infinite floats say the same in both layouts. -/
theorem withoutBlanks_render {d : Datum} {entries : Compound} {items : List Datum}
    (hd : d.IsFinite) (hentries : ∀ e ∈ entries, e.2.IsFinite)
    (hitems : ∀ item ∈ items, item.IsFinite) : (SaysSame fun layout => d.render layout) ∧
      (SaysSame fun layout => Compound.render layout entries) ∧
      SaysSame fun layout => (list items).render layout := by
  refine ⟨saysSame_render hd, saysSame_render (d := compound entries) ?_, saysSame_render ?_⟩
  · rw [IsFinite, entriesFinite_iff]
    exact hentries
  · rw [IsFinite, allFinite_iff]
    exact hitems

/-- Blanks, quotes, backslashes and line feeds within texts and keys do not get in the way. -/
theorem withoutBlanks_render_sign :
    (SaysSame fun layout =>
        (compound [("a b", string "say \"hi\" \\ o"),
          ("rows", list [list [int 1], list []])]).render
          layout) ∧
      (SaysSame fun layout => Compound.render layout [("text", string " \n "), ("x", double 0.5)]) ∧
      SaysSame fun layout => (list [compound [("", byte 1)], compound []]).render layout := by
  refine withoutBlanks_render ?_ ?_ ?_
  · simp [IsFinite, EntriesFinite, AllFinite]
  · simp only [List.forall_mem_cons, IsFinite]
    exact ⟨trivial, by decide, List.forall_mem_nil _⟩
  · simp [IsFinite, EntriesFinite]

end Datum

end Marionette
