import Mathlib
import Marionette.Proofs.Datum.Printer
import Marionette.Proofs.Datum.Parts

/-!
# Compact texts are unambiguous

In compact form the text of a value tells where it ends and which value it is, up to the signs of
zeros, which are not written.  The kind of a value is read off the characters at its start and off
the suffix of a number, so only values of one kind have to be compared.

- `Datum.unsigned`: a value without the signs of zeros.
- `Datum.numeral?`, `Datum.renderAt_number`: a number is a numeral and the letter of its kind.
- `Datum.kindOf`, `Datum.kindOf_renderAt`: the kind of a value, read off its text.
- `Datum.renderAt_inj`: the text of a value tells where it ends and which value it is.
- `Datum.render_compact_eq_iff`: values have the same compact text if and only if they are the same
  up to the signs of zeros.
-/

namespace Marionette

namespace Datum

open Decimal (isNumeric IsNumeral)

mutual

/-- A value in which zeros have no sign. -/
def unsigned : Datum → Datum
  | float v => float (if v == 0 then 0 else v)
  | double v => double (if v == 0 then 0 else v)
  | list items => list (unsignedItems items)
  | compound entries => compound (unsignedEntries entries)
  | d => d

/-- The same for the items of a list. -/
def unsignedItems : List Datum → List Datum
  | [] => []
  | item :: items => item.unsigned :: unsignedItems items

/-- The same for the entries of a compound. -/
def unsignedEntries : List (String × Datum) → List (String × Datum)
  | [] => []
  | (key, value) :: entries => (key, value.unsigned) :: unsignedEntries entries

end

/-! ### Where a value ends -/

/-- A character that separates values or closes what holds them. -/
def Closing (c : Char) : Prop := c = ',' ∨ c = ']' ∨ c = '\x7d'

/-- What may follow a value. -/
def Closes (r : List Char) : Prop := ∀ c ∈ r.head?, Closing c

theorem closes_cons {c : Char} {r : List Char} (h : Closing c) : Closes (c :: r) := by
  intro a ha
  obtain rfl := Option.some.inj ha
  exact h

theorem Closing.isNumeric {c : Char} (h : Closing c) : isNumeric c = false := by
  obtain rfl | rfl | rfl := h <;> rfl

/-- A character that a value starts with. -/
def Opening (c : Char) : Prop := c.isDigit = true ∨ c = '-' ∨ c = '"' ∨ c = '[' ∨ c = '\x7b'

instance : DecidablePred Opening := fun c =>
  inferInstanceAs (Decidable (c.isDigit = true ∨ c = '-' ∨ c = '"' ∨ c = '[' ∨ c = '\x7b'))

theorem Opening.not_closing {c : Char} (h : Opening c) : ¬ Closing c := by
  rintro (rfl | rfl | rfl) <;> obtain h | h | h | h | h := h <;> exact absurd h (by decide)

/-! ### Numbers -/

/-- The letter at the end of a number. -/
def suffix : Kind → List Char
  | .byte => ['b']
  | .short => ['s']
  | .long => ['L']
  | .float => ['f']
  | .double => ['d']
  | _ => []

/-- The text of a number without the letter at its end. -/
def numeral? : Datum → Option String
  | byte v => some (toString v.toInt)
  | short v => some (toString v.toInt)
  | int v => some (toString v.toInt)
  | long v => some (toString v.toInt)
  | float v => some (Decimal.singleText (if v == 0 then 0 else v))
  | double v => some (Decimal.doubleText (if v == 0 then 0 else v))
  | _ => none

theorem isFinite_unsigned_float {v : Float32} (h : v.isFinite = true) :
    (if v == 0 then 0 else v).isFinite = true := by
  split
  · decide
  · exact h

theorem isFinite_unsigned_double {v : Float} (h : v.isFinite = true) :
    (if v == 0 then 0 else v).isFinite = true := by
  split
  · decide
  · exact h

/-- The text of a number is its numeral and the letter of its kind. -/
theorem renderAt_number {d : Datum} {layout : Layout} {level : Nat} {t body : String}
    (hbody : numeral? d = some body) (h : renderAt layout level d = .ok t) :
    t.toList = body.toList ++ suffix d.kind ∧ IsNumeral body.toList := by
  have hfinite := isFinite_of_renderAt layout level d h
  -- the digits of a number are followed by the letter of its kind, if it has one
  cases d with
  | byte v | short v | long v =>
    cases hbody
    cases h
    exact ⟨String.toList_append, Decimal.isNumeral_int _⟩
  | int v =>
    cases hbody
    cases h
    exact ⟨(List.append_nil _).symm, Decimal.isNumeral_int _⟩
  | float v =>
    rw [IsFinite] at hfinite
    rw [renderAt, floatText, hfinite] at h
    cases hbody
    cases h
    exact ⟨String.toList_append, Decimal.isNumeral_singleText (isFinite_unsigned_float hfinite)⟩
  | double v =>
    rw [IsFinite] at hfinite
    rw [renderAt, doubleText, hfinite] at h
    cases hbody
    cases h
    exact ⟨String.toList_append, Decimal.isNumeral_doubleText (isFinite_unsigned_double hfinite)⟩
  | string s | list items | compound entries | byteArray items | intArray items => cases hbody

/-- Numbers of one kind are told apart by their numerals. -/
theorem unsigned_of_numeral? {x y : Datum} {body : String} (hkind : x.kind = y.kind)
    (hx : x.IsFinite) (hy : y.IsFinite) (hbody : numeral? x = some body)
    (hbody' : numeral? y = some body) : x.unsigned = y.unsigned := by
  have hsame := hbody.trans hbody'.symm
  cases x with
  -- numerals of integers are equal only for equal integers
  | byte v =>
    cases y with
    | byte w => rw [Int8.toInt_inj.1 (Int.repr_inj.1 (Option.some.inj hsame))]
    | _ => cases hkind
  | short v =>
    cases y with
    | short w => rw [Int16.toInt_inj.1 (Int.repr_inj.1 (Option.some.inj hsame))]
    | _ => cases hkind
  | int v =>
    cases y with
    | int w => rw [Int32.toInt_inj.1 (Int.repr_inj.1 (Option.some.inj hsame))]
    | _ => cases hkind
  | long v =>
    cases y with
    | long w => rw [Int64.toInt_inj.1 (Int.repr_inj.1 (Option.some.inj hsame))]
    | _ => cases hkind
  | float v =>
    cases y with
    | float w =>
      -- those of floats are shortest texts, which differ for different values but not for the two
      -- zeros
      rw [IsFinite] at hx hy
      have htext := Decimal.singleText_inj (isFinite_unsigned_float hx) (isFinite_unsigned_float hy)
        (Option.some.inj hsame)
      rw [unsigned, unsigned, htext]
    | _ => cases hkind
  | double v =>
    cases y with
    | double w =>
      rw [IsFinite] at hx hy
      have htext := Decimal.doubleText_inj (isFinite_unsigned_double hx)
        (isFinite_unsigned_double hy) (Option.some.inj hsame)
      rw [unsigned, unsigned, htext]
    | _ => cases hkind
  | string s | list items | compound entries | byteArray items | intArray items => cases hbody

/-- What follows a numeral is no part of it. -/
theorem isNumeric_of_mem_head?_suffix {k : Kind} {r : List Char} (hr : Closes r) :
    ∀ c ∈ (suffix k ++ r).head?, isNumeric c = false := by
  have hletter {l : Char} (hl : isNumeric l = false) : ∀ c ∈ (l :: r).head?,
      isNumeric c = false := by
    intro c hc
    obtain rfl := Option.some.inj hc
    exact hl
  cases k with
  | byte | short | long | float | double => exact hletter (by decide)
  | int | string | list | compound | byteArray | intArray => exact fun c hc => (hr c hc).isNumeric

/-! ### Parts of the texts of containers -/

/-- The text of a list is that of its items between brackets. -/
theorem exists_items {items : List Datum} {level : Nat} {t : String}
    (h : renderAt .compact level (list items) = .ok t) :
    ∃ body, renderItems .compact false (level + 1) true items = .ok body ∧
      t.toList = '[' :: (body.toList ++ [']']) := by
  obtain ⟨body, hbody, rfl⟩ := renderAt_list.1 h
  refine ⟨body, hbody, ?_⟩
  simp [String.toList_append, breakIf, isBroken]

/-- The text of a compound is that of its entries between braces. -/
theorem exists_entries {entries : List (String × Datum)} {level : Nat} {t : String}
    (h : renderAt .compact level (compound entries) = .ok t) :
    ∃ body, renderEntries .compact (level + 1) true entries = .ok body ∧
      t.toList = '\x7b' :: (body.toList ++ ['\x7d']) := by
  cases entries with
  | nil =>
    rw [renderAt] at h
    cases h
    exact ⟨"", rfl, rfl⟩
  | cons e entries =>
    obtain ⟨body, hbody, rfl⟩ := renderAt_compound.1 h
    refine ⟨body, hbody, ?_⟩
    simp [String.toList_append, breakIf]

/-- What stands before an item: nothing before the first one, and a comma before the others. -/
def separator (first : Bool) : List Char := if first then [] else [',']

/-- The text of the first item comes before those of the others. -/
theorem exists_item {item : Datum} {items : List Datum} {level : Nat} {first : Bool} {t : String}
    (h : renderItems .compact false level first (item :: items) = .ok t) :
    ∃ own rest, renderAt .compact level item = .ok own ∧
      renderItems .compact false level false items = .ok rest ∧
      t.toList = separator first ++ (own.toList ++ rest.toList) := by
  obtain ⟨own, rest, hown, hrest, rfl⟩ := renderItems_cons.1 h
  refine ⟨own, rest, hown, hrest, ?_⟩
  cases first <;> simp [String.toList_append, breakIf, separator]

/-- The text of the first entry comes before those of the others. -/
theorem exists_entry {key : String} {value : Datum} {entries : List (String × Datum)} {level : Nat}
    {first : Bool} {t : String}
    (h : renderEntries .compact level first ((key, value) :: entries) = .ok t) :
    ∃ own rest, renderAt .compact level value = .ok own ∧
      renderEntries .compact level false entries = .ok rest ∧
      t.toList = separator first ++
      ((keyText key).toList ++ ':' :: (own.toList ++ rest.toList)) := by
  obtain ⟨own, rest, hown, hrest, rfl⟩ := renderEntries_cons.1 h
  refine ⟨own, rest, hown, hrest, ?_⟩
  cases first <;> simp [String.toList_append, breakIf, separator]

/-- The text of a packed list of bytes. -/
theorem toList_byteArray {items : List Int8} {level : Nat} {t : String}
    (h : renderAt .compact level (byteArray items) = .ok t) :
    t.toList = '[' :: 'B' :: ';' :: ([','].intercalate (items.map byteText) ++ [']']) := by
  cases h
  have hitems : (items.map fun v => toString v.toInt ++ "b").map String.toList =
      items.map byteText := by
    rw [List.map_map]
    exact List.map_congr_left fun _ _ => String.toList_append
  rw [String.toList_append, String.toList_append, String.toList_intercalate, hitems]
  rfl

/-- The text of a packed list of integers. -/
theorem toList_intArray {items : List Int32} {level : Nat} {t : String}
    (h : renderAt .compact level (intArray items) = .ok t) :
    t.toList = '[' :: 'I' :: ';' :: ([','].intercalate (items.map intText) ++ [']']) := by
  cases h
  have hitems : (items.map fun v => toString v.toInt).map String.toList = items.map intText := by
    rw [List.map_map]
    rfl
  rw [String.toList_append, String.toList_append, String.toList_intercalate, hitems]
  rfl

/-! ### Kinds -/

/-- The kind of a number, read off what follows its numeral. -/
def numberKind : List Char → Kind
  | 'b' :: _ => .byte
  | 's' :: _ => .short
  | 'L' :: _ => .long
  | 'f' :: _ => .float
  | 'd' :: _ => .double
  | _ => .int

/-- The kind of a value, read off its text. -/
def kindOf : List Char → Kind
  | '"' :: _ => .string
  | '\x7b' :: _ => .compound
  | '[' :: 'B' :: _ => .byteArray
  | '[' :: 'I' :: _ => .intArray
  | '[' :: _ => .list
  | cs => numberKind (cs.dropWhile isNumeric)

/-- The text of a value starts with a character of few. -/
theorem exists_opening {d : Datum} {level : Nat} {t : String}
    (h : renderAt .compact level d = .ok t) : ∃ c cs, t.toList = c :: cs ∧ Opening c := by
  have hnumber {body : String} (hbody : numeral? d = some body) :
      ∃ c cs, t.toList = c :: cs ∧ Opening c := by
    obtain ⟨htext, ⟨c, cs, hc, hopening⟩, -⟩ := renderAt_number hbody h
    rw [hc] at htext
    exact ⟨c, cs ++ suffix d.kind, htext, hopening.imp_right .inl⟩
  cases d with
  | byte v | short v | int v | long v | float v | double v => exact hnumber rfl
  | string s =>
    cases h
    exact ⟨'"', _, String.toList_ofList, .inr (.inr (.inl rfl))⟩
  | list items =>
    obtain ⟨body, -, htext⟩ := exists_items h
    exact ⟨'[', _, htext, .inr (.inr (.inr (.inl rfl)))⟩
  | compound entries =>
    obtain ⟨body, -, htext⟩ := exists_entries h
    exact ⟨'\x7b', _, htext, .inr (.inr (.inr (.inr rfl)))⟩
  | byteArray items => exact ⟨'[', _, toList_byteArray h, .inr (.inr (.inr (.inl rfl)))⟩
  | intArray items => exact ⟨'[', _, toList_intArray h, .inr (.inr (.inr (.inl rfl)))⟩

theorem kindOf_of_isNumeric {c : Char} {cs : List Char} (hc : isNumeric c = true) :
    kindOf (c :: cs) = numberKind ((c :: cs).dropWhile isNumeric) := by
  unfold kindOf
  split
  · rename_i heq
    cases heq
    exact absurd hc (by decide)
  · rename_i heq
    cases heq
    exact absurd hc (by decide)
  · rename_i heq
    cases heq
    exact absurd hc (by decide)
  · rename_i heq
    cases heq
    exact absurd hc (by decide)
  · rename_i heq
    cases heq
    exact absurd hc (by decide)
  · rfl

/-- The kind of a number is read off the letter at its end. -/
theorem kindOf_number {d : Datum} {level : Nat} {t body : String} {r : List Char}
    (hbody : numeral? d = some body) (h : renderAt .compact level d = .ok t) (hr : Closes r) :
    kindOf (t.toList ++ r) = d.kind := by
  obtain ⟨htext, ⟨c, cs, hc, -⟩, hall⟩ := renderAt_number hbody h
  have hdrop : (body.toList ++ (suffix d.kind ++ r)).dropWhile isNumeric = suffix d.kind ++ r := by
    rw [List.dropWhile_append_of_pos hall]
    exact dropWhile_of_head? (isNumeric_of_mem_head?_suffix hr)
  rw [htext, List.append_assoc, hc, List.cons_append, kindOf_of_isNumeric (hall c (by simp [hc])),
    ← List.cons_append, ← hc, hdrop]
  cases d with
  | byte v | short v | long v | float v | double v => rfl
  | int v =>
    show numberKind r = .int
    cases r with
    | nil => rfl
    | cons c r => obtain rfl | rfl | rfl := hr c rfl <;> rfl
  | string s | list items | compound entries | byteArray items | intArray items => cases hbody

/-- The kind of a list is read off its text: no item starts with the mark of a packed list. -/
theorem kindOf_list {items : List Datum} {level : Nat} {t : String} {r : List Char}
    (h : renderAt .compact level (list items) = .ok t) : kindOf (t.toList ++ r) = .list := by
  obtain ⟨body, hbody, htext⟩ := exists_items h
  -- a packed list has its mark right behind the bracket
  have hmark {c : Char} {cs : List Char} (hc : c ≠ 'B' ∧ c ≠ 'I') :
      kindOf ('[' :: c :: cs) = .list := by
    unfold kindOf
    split
    · rename_i heq
      cases heq
    · rename_i heq
      cases heq
    · rename_i heq
      cases heq
      exact absurd rfl hc.1
    · rename_i heq
      cases heq
      exact absurd rfl hc.2
    · rfl
    · rename_i hlist
      exact absurd rfl (hlist _)
  rw [htext]
  cases items with
  | nil =>
    cases hbody
    exact hmark (by decide)
  | cons item items =>
    obtain ⟨own, rest, hown, -, hbodytext⟩ := exists_item hbody
    obtain ⟨c, cs, hc, hopening⟩ := exists_opening hown
    -- an item never begins with one of those marks
    rw [hbodytext, hc]
    refine hmark ⟨?_, ?_⟩
    · rintro rfl
      exact absurd hopening (by decide)
    · rintro rfl
      exact absurd hopening (by decide)

/-- The kind of a value is read off its text. -/
theorem kindOf_renderAt {d : Datum} {level : Nat} {t : String} {r : List Char}
    (h : renderAt .compact level d = .ok t) (hr : Closes r) : kindOf (t.toList ++ r) = d.kind := by
  cases d with
  | byte v | short v | int v | long v | float v | double v => exact kindOf_number rfl h hr
  | string s =>
    cases h
    rw [escapedText, String.toList_ofList]
    rfl
  | list items => exact kindOf_list h
  | compound entries =>
    obtain ⟨body, -, htext⟩ := exists_entries h
    rw [htext]
    rfl
  | byteArray items =>
    rw [toList_byteArray h]
    rfl
  | intArray items =>
    rw [toList_intArray h]
    rfl

/-! ### Values -/

theorem renderItems_closes {items : List Datum} {level : Nat} {t : String} {r : List Char}
    (h : renderItems .compact false level false items = .ok t) : Closes (t.toList ++ ']' :: r) := by
  cases items with
  | nil =>
    cases h
    exact closes_cons (.inr (.inl rfl))
  | cons item items =>
    obtain ⟨own, rest, -, -, htext⟩ := exists_item h
    rw [htext]
    exact closes_cons (.inl rfl)

theorem renderEntries_closes {entries : List (String × Datum)} {level : Nat} {t : String}
    {r : List Char} (h : renderEntries .compact level false entries = .ok t) :
    Closes (t.toList ++ '\x7d' :: r) := by
  cases entries with
  | nil =>
    cases h
    exact closes_cons (.inr (.inr rfl))
  | cons e entries =>
    obtain ⟨key, value⟩ := e
    obtain ⟨own, rest, -, -, htext⟩ := exists_entry h
    rw [htext]
    exact closes_cons (.inl rfl)

/-- Behind the first items, the end of a list is not taken for one more item. -/
theorem renderItems_cons_ne {item : Datum} {items : List Datum} {level : Nat} {first : Bool}
    {t : String} {r s : List Char}
    (h : renderItems .compact false level first (item :: items) = .ok t) :
    t.toList ++ r ≠ ']' :: s := by
  obtain ⟨own, rest, hown, -, htext⟩ := exists_item h
  obtain ⟨c, cs, hc, hopening⟩ := exists_opening hown
  rw [htext, hc]
  intro heq
  cases first with
  | true =>
    obtain rfl := (List.cons.inj heq).1
    exact hopening.not_closing (.inr (.inl rfl))
  | false => exact absurd (List.cons.inj heq).1 (by decide)

/-- Behind the first entries, the end of a compound is not taken for one more entry. -/
theorem renderEntries_cons_ne {e : String × Datum} {entries : List (String × Datum)} {level : Nat}
    {first : Bool} {t : String} {r s : List Char}
    (h : renderEntries .compact level first (e :: entries) = .ok t) :
    t.toList ++ r ≠ '\x7d' :: s := by
  obtain ⟨key, value⟩ := e
  obtain ⟨own, rest, -, -, htext⟩ := exists_entry h
  obtain ⟨c, cs, hc, hne⟩ := exists_cons_keyText key
  rw [htext, hc]
  intro heq
  cases first with
  | true => exact hne (List.cons.inj heq).1
  | false => exact absurd (List.cons.inj heq).1 (by decide)

/-- Numbers of one kind tell where they end and which they are. -/
theorem renderAt_number_inj {x y : Datum} {level level' : Nat} {t u body body' : String}
    {r s : List Char} (hkind : x.kind = y.kind) (hbody : numeral? x = some body)
    (hbody' : numeral? y = some body') (hx : renderAt .compact level x = .ok t)
    (hy : renderAt .compact level' y = .ok u) (hr : Closes r) (hs : Closes s)
    (h : t.toList ++ r = u.toList ++ s) : x.unsigned = y.unsigned ∧ r = s := by
  obtain ⟨htext, hnumeral⟩ := renderAt_number hbody hx
  obtain ⟨htext', hnumeral'⟩ := renderAt_number hbody' hy
  rw [htext, htext', List.append_assoc, List.append_assoc] at h
  obtain ⟨hsame, hrest⟩ := split_append hnumeral.2 hnumeral'.2
    (isNumeric_of_mem_head?_suffix hr) (isNumeric_of_mem_head?_suffix hs) h
  rw [hkind] at hrest
  refine ⟨?_, List.append_cancel_left hrest⟩
  rw [← String.toList_inj.1 hsame] at hbody'
  exact unsigned_of_numeral? hkind (isFinite_of_renderAt _ _ _ hx) (isFinite_of_renderAt _ _ _ hy)
    hbody hbody'

mutual

/-- The text of a value tells where it ends and which value it is. -/
theorem renderAt_inj (x : Datum) {y : Datum} {level level' : Nat} {t u : String} {r s : List Char}
    (hx : renderAt .compact level x = .ok t) (hy : renderAt .compact level' y = .ok u)
    (hr : Closes r) (hs : Closes s) (h : t.toList ++ r = u.toList ++ s) :
    x.unsigned = y.unsigned ∧ r = s := by
  have hkind : x.kind = y.kind := by rw [← kindOf_renderAt hx hr, h, kindOf_renderAt hy hs]
  -- both texts are of one kind, which leaves one case for each
  match x, hx, hkind with
  | byte v, hx, hkind =>
    cases y with
    | byte w => exact renderAt_number_inj hkind rfl rfl hx hy hr hs h
    | _ => cases hkind
  | short v, hx, hkind =>
    cases y with
    | short w => exact renderAt_number_inj hkind rfl rfl hx hy hr hs h
    | _ => cases hkind
  | int v, hx, hkind =>
    cases y with
    | int w => exact renderAt_number_inj hkind rfl rfl hx hy hr hs h
    | _ => cases hkind
  | long v, hx, hkind =>
    cases y with
    | long w => exact renderAt_number_inj hkind rfl rfl hx hy hr hs h
    | _ => cases hkind
  | float v, hx, hkind =>
    cases y with
    | float w => exact renderAt_number_inj hkind rfl rfl hx hy hr hs h
    | _ => cases hkind
  | double v, hx, hkind =>
    cases y with
    | double w => exact renderAt_number_inj hkind rfl rfl hx hy hr hs h
    | _ => cases hkind
  | string a, hx, hkind =>
    cases y with
    | string b =>
      cases hx
      cases hy
      obtain ⟨rfl, hrest⟩ := escapedText_inj h
      exact ⟨rfl, hrest⟩
    | _ => cases hkind
  | list items, hx, hkind =>
    cases y with
    | list items' =>
      -- the bodies are told apart item by item
      obtain ⟨body, hbody, htext⟩ := exists_items hx
      obtain ⟨body', hbody', htext'⟩ := exists_items hy
      rw [htext, htext'] at h
      obtain ⟨hitems, hrest⟩ := renderItems_inj items hbody hbody' (by simpa using h)
      rw [unsigned, unsigned, hitems]
      exact ⟨rfl, hrest⟩
    | _ => cases hkind
  | compound entries, hx, hkind =>
    cases y with
    | compound entries' =>
      -- and here entry by entry
      obtain ⟨body, hbody, htext⟩ := exists_entries hx
      obtain ⟨body', hbody', htext'⟩ := exists_entries hy
      rw [htext, htext'] at h
      obtain ⟨hentries, hrest⟩ := renderEntries_inj entries hbody hbody' (by simpa using h)
      rw [unsigned, unsigned, hentries]
      exact ⟨rfl, hrest⟩
    | _ => cases hkind
  | byteArray items, hx, hkind =>
    cases y with
    | byteArray items' =>
      rw [toList_byteArray hx, toList_byteArray hy] at h
      obtain ⟨rfl, hrest⟩ := packed_inj byteText_inj isPacked_byteText (by simpa using h)
      exact ⟨rfl, hrest⟩
    | _ => cases hkind
  | intArray items, hx, hkind =>
    cases y with
    | intArray items' =>
      rw [toList_intArray hx, toList_intArray hy] at h
      obtain ⟨rfl, hrest⟩ := packed_inj intText_inj isPacked_intText (by simpa using h)
      exact ⟨rfl, hrest⟩
    | _ => cases hkind

/-- So do the items of a list, if a bracket follows. -/
theorem renderItems_inj (xs : List Datum) {ys : List Datum} {level level' : Nat} {first : Bool}
    {t u : String} {r s : List Char} (hx : renderItems .compact false level first xs = .ok t)
    (hy : renderItems .compact false level' first ys = .ok u)
    (h : t.toList ++ ']' :: r = u.toList ++ ']' :: s) :
    unsignedItems xs = unsignedItems ys ∧ r = s := by
  match xs, hx with
  | [], hx =>
    cases ys with
    | nil =>
      cases hx
      cases hy
      exact ⟨rfl, (List.cons.inj h).2⟩
    | cons y ys =>
      cases hx
      exact absurd h.symm (renderItems_cons_ne hy)
  | x :: xs, hx =>
    cases ys with
    | nil =>
      -- an empty list ends where the other one has an item
      cases hy
      exact absurd h (renderItems_cons_ne hx)
    | cons y ys =>
      obtain ⟨own, rest, hown, hrest, htext⟩ := exists_item hx
      obtain ⟨own', rest', hown', hrest', htext'⟩ := exists_item hy
      rw [htext, htext', List.append_assoc, List.append_assoc, List.append_assoc,
        List.append_assoc] at h
      -- the first items end at the same place, and the rest follows by induction
      obtain ⟨hitem, hcut⟩ := renderAt_inj x hown hown' (renderItems_closes hrest)
        (renderItems_closes hrest') (List.append_cancel_left h)
      obtain ⟨hitems, hr⟩ := renderItems_inj xs hrest hrest' hcut
      rw [unsignedItems, unsignedItems, hitem, hitems]
      exact ⟨rfl, hr⟩

/-- So do the entries of a compound, if a brace follows. -/
theorem renderEntries_inj (xs : List (String × Datum)) {ys : List (String × Datum)}
    {level level' : Nat} {first : Bool} {t u : String} {r s : List Char}
    (hx : renderEntries .compact level first xs = .ok t)
    (hy : renderEntries .compact level' first ys = .ok u)
    (h : t.toList ++ '\x7d' :: r = u.toList ++ '\x7d' :: s) :
    unsignedEntries xs = unsignedEntries ys ∧ r = s := by
  match xs, hx with
  | [], hx =>
    cases ys with
    | nil =>
      cases hx
      cases hy
      exact ⟨rfl, (List.cons.inj h).2⟩
    | cons y ys =>
      cases hx
      exact absurd h.symm (renderEntries_cons_ne hy)
  | (key, value) :: xs, hx =>
    cases ys with
    | nil =>
      cases hy
      exact absurd h (renderEntries_cons_ne hx)
    | cons y ys =>
      obtain ⟨key', value'⟩ := y
      obtain ⟨own, rest, hown, hrest, htext⟩ := exists_entry hx
      obtain ⟨own', rest', hown', hrest', htext'⟩ := exists_entry hy
      rw [htext, htext'] at h
      simp only [List.append_assoc, List.cons_append] at h
      -- the keys end at the same place, then the values, and the rest follows by induction
      obtain ⟨rfl, hvalues⟩ := keyText_inj (List.append_cancel_left h)
      obtain ⟨hvalue, hcut⟩ := renderAt_inj value hown hown' (renderEntries_closes hrest)
        (renderEntries_closes hrest') hvalues
      obtain ⟨hentries, hr⟩ := renderEntries_inj xs hrest hrest' hcut
      rw [unsignedEntries, unsignedEntries, hvalue, hentries]
      exact ⟨rfl, hr⟩

end

/-! ### The signs of zeros -/

theorem floatText_unsigned (v : Float32) : floatText (if v == 0 then 0 else v) = floatText v := by
  split
  · rename_i hzero
    obtain ⟨-, -, rfl | ⟨rfl, -⟩ | ⟨rfl, -⟩⟩ := Float32.beq_iff_ne_nan_and_eq.1 hzero
    · rfl
    · rfl
    · rfl
  · rfl

theorem doubleText_unsigned (v : Float) : doubleText (if v == 0 then 0 else v) = doubleText v := by
  split
  · rename_i hzero
    obtain ⟨-, -, rfl | ⟨rfl, -⟩ | ⟨rfl, -⟩⟩ := Float.beq_iff_ne_nan_and_eq.1 hzero
    · rfl
    · rfl
    · rfl
  · rfl

mutual

/-- The text of a value does not show the signs of zeros. -/
theorem renderAt_unsigned (x : Datum) (level : Nat) :
    renderAt .compact level x.unsigned = renderAt .compact level x := by
  match x with
  | byte v | short v | int v | long v | string s | byteArray items | intArray items => rfl
  | float v =>
    rw [unsigned, renderAt, renderAt]
    exact floatText_unsigned v
  | double v =>
    rw [unsigned, renderAt, renderAt]
    exact doubleText_unsigned v
  | list items =>
    rw [unsigned, renderAt, renderAt]
    show renderItems .compact false (level + 1) true (unsignedItems items) >>= _ =
      renderItems .compact false (level + 1) true items >>= _
    rw [renderItems_unsigned items]
    rfl
  | compound [] => rfl
  | compound (e :: entries) =>
    obtain ⟨key, value⟩ := e
    rw [unsigned, unsignedEntries, renderAt, renderAt, ← unsignedEntries,
      renderEntries_unsigned ((key, value) :: entries)]

theorem renderItems_unsigned (xs : List Datum) (level : Nat) (first : Bool) :
    renderItems .compact false level first (unsignedItems xs) =
      renderItems .compact false level first xs := by
  match xs with
  | [] => rfl
  | x :: xs =>
    rw [unsignedItems, renderItems, renderItems, renderAt_unsigned x, renderItems_unsigned xs]

theorem renderEntries_unsigned (xs : List (String × Datum)) (level : Nat) (first : Bool) :
    renderEntries .compact level first (unsignedEntries xs) =
      renderEntries .compact level first xs := by
  match xs with
  | [] => rfl
  | (key, value) :: xs =>
    rw [unsignedEntries, renderEntries, renderEntries, renderAt_unsigned value,
      renderEntries_unsigned xs]

end

/-- Values have the same compact text if and only if they are the same up to the signs of zeros. -/
theorem render_compact_eq_iff {x y : Datum} (hx : x.IsFinite) (hy : y.IsFinite) :
    x.render .compact = y.render .compact ↔ x.unsigned = y.unsigned := by
  obtain ⟨t, ht⟩ := exists_renderAt .compact 0 x hx
  obtain ⟨u, hu⟩ := exists_renderAt .compact 0 y hy
  constructor
  · intro h
    have htext : t = u := Except.ok.inj (ht.symm.trans (h.trans hu))
    subst htext
    have hend : Closes [] := by
      intro c hc
      cases hc
    exact (renderAt_inj x ht hu hend hend rfl).1
  · intro h
    show renderAt .compact 0 x = renderAt .compact 0 y
    rw [← renderAt_unsigned x, h, renderAt_unsigned y]

/-- Minus zero and zero have the same text. -/
theorem render_compact_eq_iff_zero :
    (compound [("a b", list [double (-0), byte 1])]).IsFinite ∧
      (compound [("a b", list [double 0, byte 1])]).IsFinite ∧
      ((compound [("a b", list [double (-0), byte 1])]).render .compact =
          (compound [("a b", list [double 0, byte 1])]).render .compact ↔
        (compound [("a b", list [double (-0), byte 1])]).unsigned =
          (compound [("a b", list [double 0, byte 1])]).unsigned) := by
  have hneg : (compound [("a b", list [double (-0), byte 1])]).IsFinite := by
    simp only [IsFinite, EntriesFinite, AllFinite]
    decide
  have hpos : (compound [("a b", list [double 0, byte 1])]).IsFinite := by
    simp only [IsFinite, EntriesFinite, AllFinite]
    decide
  exact ⟨hneg, hpos, render_compact_eq_iff hneg hpos⟩

end Datum

end Marionette
