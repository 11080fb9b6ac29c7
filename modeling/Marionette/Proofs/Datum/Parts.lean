import Mathlib
import Marionette.Datum.Printer
import Marionette.Proofs.Decimal.Floats

/-!
# Parts of texts that tell where they end

Texts are compared from their starts.  A part of which all characters have a property ends before
the first character without it, and a quoted part ends at the first quote that is not escaped.

- `Datum.split_append`: two such parts of one text are the same.
- `Datum.escapedText_inj`, `Datum.keyText_inj`: quoted texts and keys tell where they end.
- `Datum.packed_inj`: packed lists tell where they end and what they hold.
-/

namespace Marionette

namespace Datum

open Decimal (isNumeric)

/-! ### Where a part ends -/

theorem dropWhile_of_head? {p : Char → Bool} {r : List Char} (hr : ∀ c ∈ r.head?, p c = false) :
    r.dropWhile p = r := by
  cases r with
  | nil => rfl
  | cons c r => exact List.dropWhile_cons_of_neg (Bool.eq_false_iff.1 (hr c rfl))

/-- A part of a text of which all characters have a property ends before the first
one without it. -/
theorem split_append {p : Char → Bool} {xs ys r s : List Char} (hxs : ∀ c ∈ xs, p c = true)
    (hys : ∀ c ∈ ys, p c = true) (hr : ∀ c ∈ r.head?, p c = false) (hs : ∀ c ∈ s.head?, p c = false)
    (h : xs ++ r = ys ++ s) : xs = ys ∧ r = s := by
  have hdrop {zs q : List Char} (hzs : ∀ c ∈ zs, p c = true) (hq : ∀ c ∈ q.head?, p c = false) :
      (zs ++ q).dropWhile p = q := by
    rw [List.dropWhile_append_of_pos hzs, dropWhile_of_head? hq]
  have hrest : r = s := by rw [← hdrop hxs hr, h, hdrop hys hs]
  subst hrest
  exact ⟨List.append_cancel_right h, rfl⟩

/-! ### Quoted texts and keys -/

/-- The first character of a quoted text, and what follows it; nothing where the text ends. -/
def readQuoted? : List Char → Option (Char × List Char)
  | '\\' :: 'n' :: rest => some ('\n', rest)
  | '\\' :: c :: rest => some (c, rest)
  | '"' :: _ | [] => none
  | c :: rest => some (c, rest)

theorem readQuoted?_escapedChar (c : Char) (rest : List Char) :
    readQuoted? (escapedChar c ++ rest) = some (c, rest) := by
  unfold escapedChar
  -- the three characters with an escape of their own, and all others
  split
  · rename_i h
    rw [h]
    rfl
  · split
    · rename_i h
      rw [h]
      rfl
    · split
      · rename_i h
        rw [h]
        rfl
      · rename_i hslash hquote hfeed
        show readQuoted? (c :: rest) = _
        unfold readQuoted?
        split
        · rename_i heq
          cases heq
          exact absurd rfl hslash
        · rename_i heq
          cases heq
          exact absurd rfl hslash
        · rename_i heq
          cases heq
          exact absurd rfl hquote
        · rename_i heq
          cases heq
        · rename_i heq
          cases heq
          rfl

/-- A quoted text tells where it ends. -/
theorem flatMap_escapedChar_inj {xs ys r s : List Char}
    (h : xs.flatMap escapedChar ++ '"' :: r = ys.flatMap escapedChar ++ '"' :: s) :
    xs = ys ∧ r = s := by
  induction xs generalizing ys with
  | nil =>
    cases ys with
    | nil => exact ⟨rfl, (List.cons.inj h).2⟩
    | cons y ys =>
      rw [List.flatMap_cons, List.append_assoc] at h
      -- an escaped character is never read as the closing quote
      have hread := congrArg readQuoted? h
      rw [readQuoted?_escapedChar] at hread
      cases hread
  | cons x xs ih =>
    -- the first characters can be read off, and the rest follows by induction
    have hread := congrArg readQuoted? h
    rw [List.flatMap_cons, List.append_assoc, readQuoted?_escapedChar] at hread
    cases ys with
    | nil => cases hread
    | cons y ys =>
      rw [List.flatMap_cons, List.append_assoc, readQuoted?_escapedChar] at hread
      obtain ⟨rfl, hrest⟩ := Prod.mk.inj (Option.some.inj hread)
      obtain ⟨rfl, hr⟩ := ih hrest
      exact ⟨rfl, hr⟩

theorem toList_escapedText (s : String) :
    (escapedText s).toList = '"' :: (s.toList.flatMap escapedChar ++ ['"']) :=
  String.toList_ofList

/-- A quoted text tells where it ends. -/
theorem escapedText_inj {x y : String} {r s : List Char}
    (h : (escapedText x).toList ++ r = (escapedText y).toList ++ s) : x = y ∧ r = s := by
  rw [toList_escapedText, toList_escapedText] at h
  obtain ⟨hxy, hr⟩ := flatMap_escapedChar_inj (by simpa using h)
  exact ⟨String.toList_inj.1 hxy, hr⟩

theorem keyText_of_isBareKey {key : String} (h : isBareKey key = true) : keyText key = key :=
  if_pos h

theorem keyText_of_not_isBareKey {key : String} (h : ¬ isBareKey key = true) :
    keyText key = escapedText key := if_neg h

/-- A key without quotes starts with a character of such keys. -/
theorem exists_cons_of_isBareKey {key : String} (h : isBareKey key = true) :
    (∃ c cs, key.toList = c :: cs) ∧ ∀ c ∈ key.toList, isBareChar c = true := by
  unfold isBareKey at h
  rw [Bool.and_eq_true, List.all_eq_true] at h
  refine ⟨List.exists_cons_of_ne_nil ?_, h.2⟩
  intro hnil
  rw [String.toList_eq_nil_iff.1 hnil] at h
  exact absurd h.1 (by decide)

/-- A key without quotes is not taken for one with quotes. -/
theorem toList_ne_of_isBareKey {x y : String} {r s : List Char} (hx : isBareKey x = true) :
    x.toList ++ r ≠ (escapedText y).toList ++ s := by
  intro h
  obtain ⟨⟨c, cs, hc⟩, hall⟩ := exists_cons_of_isBareKey hx
  rw [hc] at hall
  rw [hc, toList_escapedText] at h
  obtain rfl : c = '"' := (List.cons.inj h).1
  exact absurd (hall _ List.mem_cons_self) (by decide)

/-- A key tells where it ends, if a colon follows. -/
theorem keyText_inj {x y : String} {r s : List Char}
    (h : (keyText x).toList ++ ':' :: r = (keyText y).toList ++ ':' :: s) : x = y ∧ r = s := by
  have hcolon {q : List Char} : ∀ c ∈ (':' :: q).head?, isBareChar c = false := by
    intro c hc
    obtain rfl := Option.some.inj hc
    decide
  by_cases hx : isBareKey x = true <;> by_cases hy : isBareKey y = true
  · rw [keyText_of_isBareKey hx, keyText_of_isBareKey hy] at h
    obtain ⟨hxy, hr⟩ := split_append (exists_cons_of_isBareKey hx).2 (exists_cons_of_isBareKey hy).2
      hcolon hcolon h
    exact ⟨String.toList_inj.1 hxy, (List.cons.inj hr).2⟩
  · rw [keyText_of_isBareKey hx, keyText_of_not_isBareKey hy] at h
    exact absurd h (toList_ne_of_isBareKey hx)
  · rw [keyText_of_not_isBareKey hx, keyText_of_isBareKey hy] at h
    exact absurd h.symm (toList_ne_of_isBareKey hy)
  · rw [keyText_of_not_isBareKey hx, keyText_of_not_isBareKey hy] at h
    obtain ⟨hxy, hr⟩ := escapedText_inj h
    exact ⟨hxy, (List.cons.inj hr).2⟩

/-- The start of a key is not what closes a compound. -/
theorem exists_cons_keyText (key : String) : ∃ c cs, (keyText key).toList = c :: cs ∧
    c ≠ '\x7d' := by
  by_cases hbare : isBareKey key = true
  · obtain ⟨⟨c, cs, hc⟩, hall⟩ := exists_cons_of_isBareKey hbare
    rw [keyText_of_isBareKey hbare]
    refine ⟨c, cs, hc, ?_⟩
    rintro rfl
    rw [hc] at hall
    exact absurd (hall _ List.mem_cons_self) (by decide)
  · rw [keyText_of_not_isBareKey hbare]
    exact ⟨'"', _, toList_escapedText key, by decide⟩

/-! ### Packed lists -/

section Packed

variable {p : Char → Bool} {xs ys : List (List Char)} {x : List Char} {r s : List Char}

/-- What comes behind an item of a packed list: the end, or a comma and the other items. -/
theorem exists_rest_intercalate (x : List Char) (xs : List (List Char)) (r : List Char) :
    ∃ c rest, [','].intercalate (x :: xs) ++ ']' :: r = x ++ c :: rest ∧
      (xs = [] ∧ c = ']' ∧ rest = r ∨
        xs ≠ [] ∧ c = ',' ∧ rest = [','].intercalate xs ++ ']' :: r) := by
  cases xs with
  | nil =>
    rw [List.intercalate_singleton]
    exact ⟨']', r, rfl, .inl ⟨rfl, rfl, rfl⟩⟩
  | cons y ys =>
    rw [List.intercalate_cons_cons, List.append_assoc, List.append_assoc]
    exact ⟨',', _, rfl, .inr ⟨List.cons_ne_nil _ _, rfl, rfl⟩⟩

/-- The items of a packed list tell where they end. -/
theorem intercalate_inj (hcomma : p ',' = false) (hbracket : p ']' = false)
    (hxs : ∀ x ∈ xs, x ≠ [] ∧ ∀ c ∈ x, p c = true) (hys : ∀ y ∈ ys, y ≠ [] ∧ ∀ c ∈ y, p c = true)
    (h : [','].intercalate xs ++ ']' :: r = [','].intercalate ys ++ ']' :: s) :
    xs = ys ∧ r = s := by
  -- The end of the list is not the start of an item.
  have hend {z : List Char} {zs : List (List Char)} {q q' : List Char}
      (hz : z ≠ [] ∧ ∀ c ∈ z, p c = true) :
      ']' :: q ≠ [','].intercalate (z :: zs) ++ ']' :: q' := by
    obtain ⟨c, rest, htext, -⟩ := exists_rest_intercalate z zs q'
    obtain ⟨a, as, rfl⟩ := List.exists_cons_of_ne_nil hz.1
    rw [htext]
    intro heq
    obtain rfl := (List.cons.inj heq).1
    rw [hz.2 _ List.mem_cons_self] at hbracket
    cases hbracket
  induction xs generalizing ys with
  | nil =>
    cases ys with
    | nil => exact ⟨rfl, (List.cons.inj h).2⟩
    | cons y ys => exact absurd h (hend (hys y List.mem_cons_self))
  | cons x xs ih =>
    cases ys with
    | nil => exact absurd h.symm (hend (hxs x List.mem_cons_self))
    | cons y ys =>
      obtain ⟨hx, hxrest⟩ := List.forall_mem_cons.1 hxs
      obtain ⟨hy, hyrest⟩ := List.forall_mem_cons.1 hys
      obtain ⟨c, rest, htext, hrest⟩ := exists_rest_intercalate x xs r
      obtain ⟨c', rest', htext', hrest'⟩ := exists_rest_intercalate y ys s
      have hstop {q : List Char} {a : Char} (ha : a = ']' ∨ a = ',') :
          ∀ b ∈ (a :: q).head?, p b = false := by
        intro b hb
        obtain rfl := Option.some.inj hb
        obtain rfl | rfl := ha
        · exact hbracket
        · exact hcomma
      rw [htext, htext'] at h
      obtain ⟨rfl, hcut⟩ := split_append hx.2 hy.2
        (hstop (hrest.imp (·.2.1) (·.2.1))) (hstop (hrest'.imp (·.2.1) (·.2.1))) h
      obtain ⟨rfl, rfl⟩ := List.cons.inj hcut
      obtain ⟨rfl, rfl, rfl⟩ | ⟨-, rfl, rfl⟩ := hrest
      · obtain ⟨rfl, -, rfl⟩ | ⟨-, hc, -⟩ := hrest'
        · exact ⟨rfl, rfl⟩
        · exact absurd hc (by decide)
      · obtain ⟨-, hc, -⟩ | ⟨-, -, heq⟩ := hrest'
        · exact absurd hc (by decide)
        · obtain ⟨rfl, rfl⟩ := ih hxrest hyrest heq
          exact ⟨rfl, rfl⟩

/-- The characters of the items of packed lists. -/
def isPackedChar (c : Char) : Bool := c != ',' && c != ']'

theorem isPackedChar_of_isNumeric {c : Char} (h : isNumeric c = true) : isPackedChar c = true := by
  unfold isPackedChar
  rw [Bool.and_eq_true, bne_iff_ne, bne_iff_ne]
  constructor <;> (rintro rfl; exact absurd h (by decide))

/-- A text that may stand in a packed list. -/
def IsPacked (cs : List Char) : Prop := cs ≠ [] ∧ ∀ c ∈ cs, isPackedChar c = true

theorem isPacked_int (n : Int) : IsPacked (toString n).toList := by
  obtain ⟨⟨c, cs, hc, -⟩, hall⟩ := Decimal.isNumeral_int n
  exact ⟨hc ▸ List.cons_ne_nil c cs, fun a ha => isPackedChar_of_isNumeric (hall a ha)⟩

/-- A packed list tells where it ends and what it holds. -/
theorem packed_inj {α : Type} {f : α → List Char} (hf : Function.Injective f)
    (hpacked : ∀ a, IsPacked (f a)) {as bs : List α} {r s : List Char}
    (h : [','].intercalate (as.map f) ++ ']' :: r = [','].intercalate (bs.map f) ++ ']' :: s) :
    as = bs ∧ r = s := by
  have hall (cs : List α) : ∀ x ∈ cs.map f, IsPacked x := by
    intro x hx
    obtain ⟨a, -, rfl⟩ := List.mem_map.1 hx
    exact hpacked a
  obtain ⟨hmap, hrest⟩ := intercalate_inj (p := isPackedChar) (by decide) (by decide) (hall as)
    (hall bs) h
  exact ⟨List.map_injective_iff.2 hf hmap, hrest⟩

/-- The text of a byte in a packed list. -/
def byteText (v : Int8) : List Char := (toString v.toInt).toList ++ ['b']

theorem byteText_inj : Function.Injective byteText := fun _ _ h =>
  Int8.toInt_inj.1 (Int.repr_inj.1 (String.toList_inj.1 (List.append_cancel_right h)))

theorem isPacked_byteText (v : Int8) : IsPacked (byteText v) := by
  have hint := isPacked_int v.toInt
  refine ⟨List.append_ne_nil_of_left_ne_nil hint.1 _, List.forall_mem_append.2 ⟨hint.2, ?_⟩⟩
  exact List.forall_mem_singleton.2 (by decide)

/-- The text of an integer in a packed list. -/
def intText (v : Int32) : List Char := (toString v.toInt).toList

theorem intText_inj : Function.Injective intText := fun _ _ h =>
  Int32.toInt_inj.1 (Int.repr_inj.1 (String.toList_inj.1 h))

theorem isPacked_intText (v : Int32) : IsPacked (intText v) := isPacked_int v.toInt

end Packed

end Datum

end Marionette
