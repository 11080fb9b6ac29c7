import Marionette.Command.Basic
import Marionette.Proofs.Datum.Printer
import Marionette.Proofs.Names

/-!
# Texts that stay on one line

A line of a file ends at a line feed, and readers may take a carriage return for one.

- `IsLine`: a text without either of them; `lineEnds`: those that a text has.
- Numbers are written on one line: `isLine_int`, `isLine_doubleText`, `isLine_singleText`.
- `Datum.texts`: the texts and keys within a value.
- `Datum.lineEnds_renderAt`: the line ends of the compact form are the carriage returns of the texts
  and keys, since line feeds are escaped.
- `Datum.HasNoReturn`: no text within a value holds a carriage return; `Datum.isLine_renderAt`: the
  compact form of such a value stays on one line.
-/

namespace Marionette

/-- A character that ends no line. -/
def IsInline (c : Char) : Prop := c ≠ '\n' ∧ c ≠ '\r'

instance : DecidablePred IsInline := fun c => inferInstanceAs (Decidable (c ≠ '\n' ∧ c ≠ '\r'))

/-- A text without line feeds and carriage returns. -/
def IsLine (s : String) : Prop := ∀ c ∈ s.toList, IsInline c

instance : DecidablePred IsLine := fun s => List.decidableBAll IsInline s.toList

/-- Two texts make a line together just if both are lines. -/
theorem isLine_append {a b : String} : IsLine (a ++ b) ↔ IsLine a ∧ IsLine b := by
  simp only [IsLine, String.toList_append, List.forall_mem_append]

theorem IsLine.append {a b : String} (ha : IsLine a) (hb : IsLine b) : IsLine (a ++ b) :=
  isLine_append.2 ⟨ha, hb⟩

theorem isLine_ofList {cs : List Char} :
    IsLine (String.ofList cs) ↔ ∀ c ∈ cs, IsInline c := by
  rw [IsLine, String.toList_ofList]

/-- Texts on lines can be put together to one line. -/
theorem isLine_join {xs : List String} (h : ∀ x ∈ xs, IsLine x) : IsLine (String.join xs) := by
  induction xs with
  | nil => decide
  | cons x xs ih =>
    rw [String.join_cons, isLine_append]
    exact ⟨h x List.mem_cons_self, ih fun y hy => h y (List.mem_cons_of_mem _ hy)⟩

/-- So they can with something in between that is on a line itself. -/
theorem isLine_intercalate {between : String} {xs : List String} (hb : IsLine between)
    (h : ∀ x ∈ xs, IsLine x) : IsLine (String.intercalate between xs) := by
  induction xs with
  | nil => exact fun c hc => nomatch hc
  | cons x rest ih =>
    obtain ⟨hx, hrest⟩ := List.forall_mem_cons.1 h
    cases rest with
    | nil => rwa [String.intercalate_singleton]
    | cons y rest =>
      rw [String.intercalate_cons_cons, isLine_append, isLine_append]
      exact ⟨⟨hx, hb⟩, ih hrest⟩

/-- Names that are reduced to a small alphabet stay on one line. -/
theorem IsStorageName.isLine {name : String} (h : IsStorageName name) : IsLine name := by
  intro c hc
  have hchar := h.isStorageChar c hc
  constructor <;> (rintro rfl; exact absurd hchar (by decide))

/-- The characters at which a line may end. -/
def lineEnds (cs : List Char) : List Char :=
  cs.filter fun c => ¬IsInline c

/-- Line ends are filtered out of a text, so they distribute over its parts. -/
theorem lineEnds_append (as bs : List Char) : lineEnds (as ++ bs) = lineEnds as ++ lineEnds bs :=
  List.filter_append as bs

theorem lineEnds_eq_nil_iff {cs : List Char} : lineEnds cs = [] ↔ ∀ c ∈ cs, IsInline c := by
  simp [lineEnds]

theorem IsLine.lineEnds_eq {s : String} (h : IsLine s) : lineEnds s.toList = [] :=
  lineEnds_eq_nil_iff.2 h

/-! ### Numbers -/

/-- Digits are neither of the two line ends. -/
theorem isInline_of_isDigit {c : Char} (h : c.isDigit = true) : IsInline c := by
  constructor <;> (rintro rfl; exact absurd h (by decide))

theorem isLine_repr (n : Nat) : IsLine n.repr :=
  fun _ hc => isInline_of_isDigit (isDigit_of_mem_repr hc)

theorem isLine_int (n : Int) : IsLine (toString n) := by
  cases n with
  | ofNat n => exact isLine_repr n
  | negSucc n => exact isLine_append.2 ⟨by decide, isLine_repr (n + 1)⟩

theorem isInline_of_mem_digitText {n : Nat} {c : Char} (h : c ∈ Decimal.digitText n) : IsInline c :=
  isInline_of_isDigit (Nat.isDigit_of_mem_toDigits (by decide) (by decide) h)

/-- The positional form has digits, zeros and a point only. -/
theorem isInline_of_mem_plain {d : Decimal} {c : Char} (h : c ∈ d.plain) : IsInline c := by
  have hzeros : ∀ {n}, c ∈ List.replicate n '0' → IsInline c := fun h => by
    rw [List.eq_of_mem_replicate h]
    decide
  unfold Decimal.plain at h
  dsimp only at h
  split at h
  · rcases List.mem_append.1 h with h | h
    · exact isInline_of_mem_digitText h
    · exact hzeros h
  -- a point in the middle of the digits, or zeros between the point and the digits
  · split at h
    · simp only [List.mem_append, List.mem_singleton] at h
      rcases h with (h | rfl) | h
      · exact isInline_of_mem_digitText (List.mem_of_mem_take h)
      · decide
      · exact isInline_of_mem_digitText (List.mem_of_mem_drop h)
    · simp only [List.mem_append, List.mem_cons, List.not_mem_nil, or_false] at h
      rcases h with ((rfl | rfl) | h) | h
      · decide
      · decide
      · exact hzeros h
      · exact isInline_of_mem_digitText h

/-- A size is a word, or digits with a sign. -/
theorem isLine_sizeText (negative : Bool) (size : Decimal.Size) :
    IsLine (Decimal.sizeText negative size) := by
  have hsigned : ∀ cs : List Char, (∀ c ∈ cs, IsInline c) →
      IsLine (String.ofList (if negative then '-' :: cs else cs)) := by
    intro cs hcs
    rw [isLine_ofList]
    split
    · exact List.forall_mem_cons.2 ⟨by decide, hcs⟩
    · exact hcs
  unfold Decimal.sizeText
  cases size with
  | nan => exact isLine_ofList.2 (by simp [IsInline])
  | infinite => exact hsigned _ (by simp [IsInline])
  | zero => exact hsigned _ (by simp [IsInline])
  | positive b => exact hsigned _ fun c hc => isInline_of_mem_plain hc

theorem isLine_doubleText (x : Float) : IsLine (Decimal.doubleText x) :=
  isLine_sizeText _ _

theorem isLine_singleText (x : Float32) : IsLine (Decimal.singleText x) :=
  isLine_sizeText _ _

/-! ### Structured data -/

/-- A text without carriage returns; where line feeds are escaped, it stays on one line. -/
def HasNoReturn (s : String) : Prop := '\r' ∉ s.toList

instance : DecidablePred HasNoReturn := fun s => inferInstanceAs (Decidable ('\r' ∉ s.toList))

/-- Of the two line ends, a text on a line lacks the carriage return in particular. -/
theorem IsLine.hasNoReturn {s : String} (h : IsLine s) : HasNoReturn s :=
  fun hmem => (h _ hmem).2 rfl

/-- The carriage returns of a text. -/
def returns (s : String) : List Char :=
  s.toList.filter (· = '\r')

theorem returns_eq_nil_iff {s : String} : returns s = [] ↔ HasNoReturn s := by
  rw [returns, List.filter_eq_nil_iff]
  simp only [decide_eq_true_eq]
  exact ⟨fun h hmem => h _ hmem rfl, fun h c hc heq => h (heq ▸ hc)⟩

namespace Datum

/-! ### Texts and keys -/

/-- Of an escaped character only a carriage return can end a line. -/
theorem lineEnds_escapedChar (c : Char) :
    lineEnds (escapedChar c) = if c = '\r' then [c] else [] := by
  unfold escapedChar
  split
  · rename_i h
    subst h
    rfl
  · split
    · rename_i h
      subst h
      rfl
    · split
      · rename_i h
        subst h
        rfl
      · rename_i hfeed
        by_cases hreturn : c = '\r'
        · subst hreturn
          rfl
        · rw [if_neg hreturn, lineEnds_eq_nil_iff]
          exact List.forall_mem_singleton.2 ⟨hfeed, hreturn⟩

/-- Line feeds are escaped, so carriage returns are the only line ends that are left in a quoted
text. -/
theorem lineEnds_escapedText (s : String) : lineEnds (escapedText s).toList = returns s := by
  have hbody (cs : List Char) : lineEnds (cs.flatMap escapedChar) = cs.filter (· = '\r') := by
    induction cs with
    | nil => rfl
    | cons c cs ih =>
      rw [List.flatMap_cons, lineEnds_append, ih, lineEnds_escapedChar]
      by_cases hreturn : c = '\r' <;> simp [hreturn]
  rw [escapedText, String.toList_ofList, lineEnds_append, lineEnds_append, hbody]
  exact List.append_nil _

/-- A key that needs no quotes holds nothing that ends a line, and any other one is escaped. -/
theorem lineEnds_keyText (key : String) : lineEnds (keyText key).toList = returns key := by
  unfold keyText
  split
  · rename_i hbare
    have hline : IsLine key := by
      intro c hc
      have hchar := List.all_eq_true.1 (Bool.and_eq_true_iff.1 hbare).2 c hc
      constructor <;> (rintro rfl; exact absurd hchar (by decide))
    rw [hline.lineEnds_eq, returns_eq_nil_iff.2 hline.hasNoReturn]
  · exact lineEnds_escapedText key

mutual

/-- The texts within a value, in the order in which they are written: texts and keys. -/
def texts : Datum → List String
  | string s => [s]
  | list items => itemTexts items
  | compound entries => entryTexts entries
  | _ => []

/-- The texts within the items of a list. -/
def itemTexts : List Datum → List String
  | [] => []
  | item :: items => item.texts ++ itemTexts items

/-- The keys of a compound, and the texts within its values. -/
def entryTexts : List (String × Datum) → List String
  | [] => []
  | (key, value) :: entries => key :: (value.texts ++ entryTexts entries)

end

/-! ### Compact forms -/

/-- The compact form breaks no line. -/
theorem lineEnds_breakIf (level : Nat) : lineEnds (breakIf false level).toList = [] := rfl

/-- Neither does what stands between the items of a list or the entries of a compound. -/
theorem lineEnds_separator (first : Bool) : lineEnds (if first then "" else ",").toList = [] := by
  cases first <;> rfl

mutual

/-- At every depth, the line ends of the compact form are the carriage returns of the texts. -/
theorem lineEnds_renderAt (level : Nat) (d : Datum) {text : String}
    (h : renderAt .compact level d = .ok text) :
    lineEnds text.toList = d.texts.flatMap returns := by
  match d, h with
  -- numbers with a suffix have no line ends
  | byte v, h | short v, h | long v, h =>
    cases h
    exact ((isLine_int _).append (by decide)).lineEnds_eq
  | int v, h =>
    cases h
    exact (isLine_int _).lineEnds_eq
  | float v, h =>
    rw [renderAt, floatText] at h
    split at h
    · cases h
    · cases h
      exact ((isLine_singleText _).append (by decide)).lineEnds_eq
  | double v, h =>
    rw [renderAt, doubleText] at h
    split at h
    · cases h
    · cases h
      exact ((isLine_doubleText _).append (by decide)).lineEnds_eq
  -- arrays are numbers with commas between them
  | byteArray items, h =>
    cases h
    have hitems : ∀ x ∈ items.map fun v => toString v.toInt ++ "b", IsLine x := by
      intro x hx
      obtain ⟨v, -, rfl⟩ := List.mem_map.1 hx
      exact (isLine_int _).append (by decide)
    have hcomma : IsLine "," := by decide
    have hbody := isLine_intercalate hcomma hitems
    exact ((IsLine.append (by decide) hbody).append (by decide)).lineEnds_eq
  | intArray items, h =>
    cases h
    have hitems : ∀ x ∈ items.map fun v => toString v.toInt, IsLine x := by
      intro x hx
      obtain ⟨v, -, rfl⟩ := List.mem_map.1 hx
      exact isLine_int _
    have hcomma : IsLine "," := by decide
    have hbody := isLine_intercalate hcomma hitems
    exact ((IsLine.append (by decide) hbody).append (by decide)).lineEnds_eq
  | string s, h =>
    cases h
    rw [lineEnds_escapedText, texts, List.flatMap_singleton]
  -- brackets and commas add no line ends to those of the parts
  | list items, h =>
    obtain ⟨body, hbody, rfl⟩ := renderAt_list.1 h
    simp only [String.toList_append, lineEnds_append]
    rw [lineEnds_renderItems (level + 1) true items hbody, texts]
    exact (List.append_nil _).trans (List.append_nil _)
  | compound [], h =>
    cases h
    rfl
  | compound (e :: entries), h =>
    obtain ⟨body, hbody, rfl⟩ := renderAt_compound.1 h
    simp only [String.toList_append, lineEnds_append]
    rw [lineEnds_renderEntries (level + 1) true (e :: entries) hbody, texts]
    exact (List.append_nil _).trans (List.append_nil _)

/-- The items of a list, with the commas between them. -/
theorem lineEnds_renderItems (level : Nat) (first : Bool) (items : List Datum) {text : String}
    (h : renderItems .compact false level first items = .ok text) :
    lineEnds text.toList = (itemTexts items).flatMap returns := by
  match items, h with
  | [], h =>
    cases h
    rfl
  | item :: items, h =>
    obtain ⟨own, rest, hown, hrest, rfl⟩ := renderItems_cons.1 h
    simp only [String.toList_append, lineEnds_append]
    rw [lineEnds_separator, lineEnds_breakIf, lineEnds_renderAt level item hown,
      lineEnds_renderItems level false items hrest, itemTexts, List.flatMap_append]
    rfl

/-- The entries of a compound: the line ends of a key are those of its quoted form, and then come
those of the value. -/
theorem lineEnds_renderEntries (level : Nat) (first : Bool) (entries : List (String × Datum))
    {text : String} (h : renderEntries .compact level first entries = .ok text) :
    lineEnds text.toList = (entryTexts entries).flatMap returns := by
  match entries, h with
  | [], h =>
    cases h
    rfl
  | (key, value) :: entries, h =>
    obtain ⟨own, rest, hown, hrest, rfl⟩ := renderEntries_cons.1 h
    have hcolon : lineEnds (if Layout.compact = .indented then ": " else ":").toList = [] := rfl
    simp only [String.toList_append, lineEnds_append]
    rw [lineEnds_separator, hcolon, lineEnds_keyText, lineEnds_renderAt level value hown,
      lineEnds_renderEntries level false entries hrest, List.append_nil, entryTexts,
      List.flatMap_cons, List.flatMap_append, ← List.append_assoc]
    rfl

end

/-! ### Values without carriage returns -/

mutual

/-- No text within a value holds a carriage return. -/
def HasNoReturn : Datum → Prop
  | string s => Marionette.HasNoReturn s
  | list items => AllWithoutReturn items
  | compound entries => EntriesWithoutReturn entries
  | _ => True

/-- The same for the items of a list. -/
def AllWithoutReturn : List Datum → Prop
  | [] => True
  | item :: items => item.HasNoReturn ∧ AllWithoutReturn items

/-- The same for the keys and the values of a compound. -/
def EntriesWithoutReturn : List (String × Datum) → Prop
  | [] => True
  | (key, value) :: entries =>
    Marionette.HasNoReturn key ∧ value.HasNoReturn ∧ EntriesWithoutReturn entries

end

/-- The items of a list one by one. -/
theorem allWithoutReturn_iff {items : List Datum} :
    AllWithoutReturn items ↔ ∀ d ∈ items, d.HasNoReturn := by
  induction items with
  | nil => simp [AllWithoutReturn]
  | cons item items ih => simp [AllWithoutReturn, ih]

/-- The entries of a compound one by one. -/
theorem entriesWithoutReturn_iff {entries : List (String × Datum)} :
    EntriesWithoutReturn entries ↔
      ∀ e ∈ entries, Marionette.HasNoReturn e.1 ∧ e.2.HasNoReturn := by
  induction entries with
  | nil => simp [EntriesWithoutReturn]
  | cons e entries ih =>
    obtain ⟨key, value⟩ := e
    simp [EntriesWithoutReturn, ih, and_assoc]

mutual

/-- Without carriage returns in the data there are none in its texts. -/
theorem HasNoReturn.of_mem_texts {d : Datum} (hd : d.HasNoReturn) :
    ∀ s ∈ d.texts, Marionette.HasNoReturn s := by
  match d, hd with
  | byte v, _ | short v, _ | int v, _ | long v, _ | float v, _ | double v, _ | byteArray items, _
  | intArray items, _ => exact List.forall_mem_nil _
  | string s, hd =>
    rw [HasNoReturn] at hd
    exact List.forall_mem_singleton.2 hd
  | list items, hd =>
    rw [HasNoReturn] at hd
    exact hasNoReturn_of_mem_itemTexts hd
  | compound entries, hd =>
    rw [HasNoReturn] at hd
    exact hasNoReturn_of_mem_entryTexts hd

theorem hasNoReturn_of_mem_itemTexts {items : List Datum} (h : AllWithoutReturn items) :
    ∀ s ∈ itemTexts items, Marionette.HasNoReturn s := by
  match items, h with
  | [], _ => exact List.forall_mem_nil _
  | item :: items, h =>
    rw [AllWithoutReturn] at h
    exact List.forall_mem_append.2 ⟨h.1.of_mem_texts, hasNoReturn_of_mem_itemTexts h.2⟩

theorem hasNoReturn_of_mem_entryTexts {entries : List (String × Datum)}
    (h : EntriesWithoutReturn entries) : ∀ s ∈ entryTexts entries, Marionette.HasNoReturn s := by
  match entries, h with
  | [], _ => exact List.forall_mem_nil _
  | (key, value) :: entries, h =>
    rw [EntriesWithoutReturn] at h
    refine List.forall_mem_cons.2 ⟨h.1, List.forall_mem_append.2 ⟨h.2.1.of_mem_texts, ?_⟩⟩
    exact hasNoReturn_of_mem_entryTexts h.2.2

end

/-- The compact form of such a value stays on one line. -/
theorem isLine_renderAt (level : Nat) (d : Datum) {text : String} (hd : d.HasNoReturn)
    (h : renderAt .compact level d = .ok text) : IsLine text := by
  refine lineEnds_eq_nil_iff.1 ?_
  rw [lineEnds_renderAt level d h, List.flatMap_eq_nil_iff]
  exact fun s hs => returns_eq_nil_iff.2 (hd.of_mem_texts s hs)

end Datum

end Marionette
