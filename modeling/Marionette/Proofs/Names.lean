import Marionette.Names
import Std.Data.String.ToNat

/-!
# Safe names

A text is made safe by leaving out blanks, lowering letters and replacing characters that are not
kept.  How letters beyond ASCII are lowered does not matter, as none of them is kept.  What matters
is that a lower-casing leaves the characters alone that are kept.

- `Lowering`: a lower-casing that leaves ASCII characters other than capital letters as they are.
- `Lowering.sanitize`, `Lowering.storageSafe`, `Lowering.pathSafe`: safe names under a lower-casing;
  those of this library are the ones under `Lowering.basic`.
- `IsStorageName`: a name over the alphabet of objectives and tags; `isStorageName_storageSafe`.
- `IsPathSegment`: a name over the alphabet of paths without a dot at its start;
  `isPathSegment_pathSafe`.
- `IsRetraction`: a function onto the texts with a property, which leaves these alone;
  `Lowering.isRetraction_storageSafe`, `Lowering.isRetraction_pathSafe`.
- `IsPlainName`: a name that stays in its place as a segment of a path; `isPlainName_pathSafe`.
- `eq_of_append_separator`: a text is split at its first separator in one way only.
-/

namespace Marionette

/-! ### Lower-casings -/

/-- A lower-casing, which may turn a character into several.  ASCII characters other than capital
letters stand for themselves. -/
structure Lowering where
  /-- The lower-case form of a character. -/
  lower : Char → List Char
  lower_eq : ∀ c : Char, c.toNat < 0x80 → c.isUpper = false → lower c = [c]

/-- Capital letters are a range of characters. -/
theorem isUpper_iff {c : Char} : c.isUpper = true ↔ 'A'.val ≤ c.val ∧ c.val ≤ 'Z'.val :=
  decide_eq_true_iff

/-- Small letters are one too. -/
theorem isLower_iff {c : Char} : c.isLower = true ↔ 'a'.val ≤ c.val ∧ c.val ≤ 'z'.val := by
  change (decide ('a'.val ≤ c.val) && decide (c.val ≤ 'z'.val)) = true ↔ _
  rw [Bool.and_eq_true, decide_eq_true_iff, decide_eq_true_iff]

/-- The library's lower-casing leaves other ASCII characters as they are. -/
theorem lowered_eq {c : Char} (hascii : c.toNat < 0x80) (hupper : c.isUpper = false) :
    lowered c = [c] := by
  -- the two characters with a lower-case form of their own are not ASCII
  have hkelvin : c ≠ '\u212A' := by
    rintro rfl
    exact absurd hascii (by decide)
  have hdotted : c ≠ '\u0130' := by
    rintro rfl
    exact absurd hascii (by decide)
  have hlower : c.toLower = c := dif_neg fun h =>
    Bool.false_ne_true (hupper.symm.trans (isUpper_iff.2 h))
  rw [lowered, if_neg hkelvin, if_neg hdotted, hlower]

/-- Dots at the start become underscores. -/
def coverDots (cs : List Char) : List Char :=
  (cs.takeWhile (· == '.')).map (fun _ => '_') ++ cs.dropWhile (· == '.')

namespace Lowering

/-- The lower-casing of this library. -/
def basic : Lowering := ⟨lowered, fun _ => lowered_eq⟩

variable (l : Lowering)

/-- `Marionette.sanitize` under a lower-casing. -/
def sanitize (keep : Char → Bool) (name : String) : List Char :=
  match ((Text.trimChars name.toList).flatMap l.lower).map fun c => if keep c then c else '_' with
  | [] => "unnamed".toList
  | cs => cs

/-- `Marionette.storageSafe` under a lower-casing. -/
def storageSafe (name : String) : String :=
  String.ofList (l.sanitize isStorageChar name)

/-- `Marionette.pathSafe` under a lower-casing. -/
def pathSafe (name : String) : String :=
  String.ofList (coverDots (l.sanitize isPathChar name))

theorem storageSafe_basic : basic.storageSafe = Marionette.storageSafe := rfl

theorem pathSafe_basic : basic.pathSafe = Marionette.pathSafe := rfl

end Lowering

/-! ### Characters that are kept -/

/-- Both alphabets differ in what paths allow besides. -/
theorem isPathChar_of_isStorageChar {c : Char} (h : isStorageChar c = true) :
    isPathChar c = true := by
  unfold isPathChar
  rw [h, Bool.true_or, Bool.true_or]

/-- Characters that are kept are visible ASCII characters, and no capital letters. -/
theorem ascii_of_isPathChar {c : Char} (h : isPathChar c = true) :
    0x20 < c.toNat ∧ c.toNat < 0x80 ∧ c.isUpper = false := by
  have hplain : c.isLower = true ∨ c.isDigit = true ∨ c = '_' ∨ c = '.' ∨ c = '-' := by
    simpa only [isPathChar, isStorageChar, Bool.or_eq_true, beq_iff_eq, or_assoc] using h
  -- the classes of characters as ranges of numbers, for the arithmetic below
  have hlower : c.isLower = true ↔ 97 ≤ c.toNat ∧ c.toNat ≤ 122 := by
    rw [isLower_iff, UInt32.le_iff_toNat_le, UInt32.le_iff_toNat_le]
    rfl
  have hupper : c.isUpper = true ↔ 65 ≤ c.toNat ∧ c.toNat ≤ 90 := by
    rw [isUpper_iff, UInt32.le_iff_toNat_le, UInt32.le_iff_toNat_le]
    rfl
  have hdigit : c.isDigit = true ↔ 48 ≤ c.toNat ∧ c.toNat ≤ 57 := Char.isDigit_iff_toNat
  rw [← Bool.not_eq_true, hupper]
  rcases hplain with h | h | rfl | rfl | rfl
  · rw [hlower] at h
    omega
  · rw [hdigit] at h
    omega
  · decide
  · decide
  · decide

/-- No visible ASCII character is a blank. -/
theorem isBlank_of_visible {c : Char} (hlo : 0x20 < c.toNat) (hhi : c.toNat < 0x80) :
    Text.isBlank c = false := by
  simp only [Text.isBlank, Bool.or_eq_false_iff, Bool.and_eq_false_imp, beq_eq_false_iff_ne,
    decide_eq_true_eq, decide_eq_false_iff_not]
  omega

/-! ### Reducing a name -/

/-- A text without blanks is not trimmed. -/
theorem trimChars_eq {cs : List Char} (h : ∀ c ∈ cs, Text.isBlank c = false) :
    Text.trimChars cs = cs := by
  have hdrop {ds : List Char} (hds : ∀ c ∈ ds, Text.isBlank c = false) :
      ds.dropWhile Text.isBlank = ds := by
    cases ds with
    | nil => rfl
    | cons d ds => rw [List.dropWhile_cons, hds d List.mem_cons_self, if_neg Bool.false_ne_true]
  rw [Text.trimChars, hdrop h, hdrop fun c hc => h c (List.mem_reverse.1 hc), List.reverse_reverse]

namespace Lowering

variable (l : Lowering) {keep : Char → Bool}

/-- A reduced name is never empty, as a default name stands in where nothing is left. -/
theorem sanitize_ne_nil (keep : Char → Bool) (name : String) : l.sanitize keep name ≠ [] := by
  unfold sanitize
  split
  · decide
  · next hne => exact hne

/-- A name is reduced to characters that are kept. -/
theorem keep_of_mem_sanitize (hlower : ∀ c, isStorageChar c = true → keep c = true)
    (name : String) :
    ∀ c ∈ l.sanitize keep name, keep c = true := by
  intro c hc
  unfold sanitize at hc
  -- either the default name, or the name with underscores for what is not kept
  split at hc
  · exact hlower c
      (List.all_eq_true.1 (show "unnamed".toList.all isStorageChar = true by decide) c hc)
  · obtain ⟨d, -, rfl⟩ := List.mem_map.1 hc
    split
    · assumption
    · exact hlower '_' (by decide)

/-- A name of such characters stays as it is, if there are any. -/
theorem sanitize_eq (hpath : ∀ c, keep c = true → isPathChar c = true) {name : String}
    (hname : name.toList ≠ []) (hkeep : ∀ c ∈ name.toList, keep c = true) :
    l.sanitize keep name = name.toList := by
  have hascii : ∀ c ∈ name.toList, 0x20 < c.toNat ∧ c.toNat < 0x80 ∧ c.isUpper = false :=
    fun c hc => ascii_of_isPathChar (hpath c (hkeep c hc))
  -- each of the three steps leaves a name of such characters alone: trimming, lower-casing, and
  -- the replacement of characters
  have htrim : Text.trimChars name.toList = name.toList :=
    trimChars_eq fun c hc => isBlank_of_visible (hascii c hc).1 (hascii c hc).2.1
  have hlowered : name.toList.flatMap l.lower = name.toList := by
    have hsingle : ∀ c ∈ name.toList, l.lower c = [c] := fun c hc =>
      l.lower_eq c (hascii c hc).2.1 (hascii c hc).2.2
    rw [List.flatMap_def, List.map_congr_left hsingle, ← List.flatMap_def, List.flatMap_singleton']
  have hkept : (name.toList.map fun c => if keep c then c else '_') = name.toList := by
    rw [List.map_congr_left fun c hc => if_pos (hkeep c hc), List.map_id'']
    exact fun _ => rfl
  unfold sanitize
  rw [htrim, hlowered, hkept]
  split
  · contradiction
  · rfl

end Lowering

/-! ### Dots at the start -/

/-- No name gets lost with its dots. -/
theorem coverDots_ne_nil {cs : List Char} (h : cs ≠ []) : coverDots cs ≠ [] := by
  rw [coverDots, ← List.length_pos_iff, List.length_append, List.length_map, ← List.length_append,
    List.takeWhile_append_dropWhile]
  exact List.length_pos_iff.2 h

/-- Only underscores are new. -/
theorem mem_of_mem_coverDots {cs : List Char} {c : Char} (h : c ∈ coverDots cs) :
    c = '_' ∨ c ∈ cs := by
  rcases List.mem_append.1 h with h | h
  · obtain ⟨d, -, rfl⟩ := List.mem_map.1 h
    exact .inl rfl
  · exact .inr ((List.dropWhile_sublist _).mem h)

/-- No dot is left at the start. -/
theorem head?_coverDots_ne (cs : List Char) : (coverDots cs).head? ≠ some '.' := by
  cases cs with
  | nil => exact nofun
  | cons c rest =>
    by_cases hdot : c = '.'
    · subst hdot
      exact fun h => absurd (Option.some.inj h) (by decide)
    · have hcs : coverDots (c :: rest) = c :: rest := by simp [coverDots, hdot]
      rw [hcs]
      exact fun h => hdot (Option.some.inj h)

/-- Where there was none, nothing changes. -/
theorem coverDots_eq {cs : List Char} (h : cs.head? ≠ some '.') : coverDots cs = cs := by
  cases cs with
  | nil => rfl
  | cons c rest =>
    have hdot : c ≠ '.' := fun heq => h (congrArg some heq)
    simp [coverDots, hdot]

/-! ### Safe names -/

/-- A name over the alphabet of objectives and tags, which is not empty. -/
structure IsStorageName (name : String) : Prop where
  ne_empty : name ≠ ""
  isStorageChar : ∀ c ∈ name.toList, isStorageChar c = true

instance (name : String) : Decidable (IsStorageName name) :=
  decidable_of_iff (name ≠ "" ∧ name.toList.all isStorageChar = true) <| by
    rw [List.all_eq_true]
    exact ⟨fun h => ⟨h.1, h.2⟩, fun h => ⟨h.1, h.2⟩⟩

/-- Characters outside of the alphabet do not occur in such a name. -/
theorem IsStorageName.not_mem {name : String} (h : IsStorageName name) {c : Char}
    (hc : ¬ Marionette.isStorageChar c = true) : c ∉ name.toList :=
  fun hmem => hc (h.isStorageChar c hmem)

/-- A decimal number consists of digits. -/
theorem isDigit_of_mem_repr {c : Char} {n : Nat} (h : c ∈ n.repr.toList) : c.isDigit = true := by
  rw [Nat.toList_repr] at h
  exact Nat.isDigit_of_mem_toDigits (by decide) (by decide) h

/-- Reducing a name gives a name over the alphabet of objectives. -/
theorem Lowering.isStorageName_storageSafe (l : Lowering) (name : String) :
    IsStorageName (l.storageSafe name) where
  ne_empty := by
    intro hempty
    have hchars := congrArg String.toList hempty
    rw [Lowering.storageSafe, String.toList_ofList] at hchars
    exact l.sanitize_ne_nil _ _ hchars
  isStorageChar := by
    intro c hc
    rw [Lowering.storageSafe, String.toList_ofList] at hc
    exact l.keep_of_mem_sanitize (fun _ h => h) name c hc

/-- Such a name stays as it is. -/
theorem Lowering.storageSafe_eq (l : Lowering) {name : String} (h : IsStorageName name) :
    l.storageSafe name = name := by
  have hne : name.toList ≠ [] := mt String.toList_eq_nil_iff.1 h.ne_empty
  rw [Lowering.storageSafe,
    l.sanitize_eq (fun _ => isPathChar_of_isStorageChar) hne h.isStorageChar, String.ofList_toList]

/-- So it is with the library's lower-casing. -/
theorem isStorageName_storageSafe (name : String) : IsStorageName (storageSafe name) :=
  Lowering.basic.isStorageName_storageSafe name

/-- A name over the alphabet of path segments, which is not empty and does not begin with a dot. -/
structure IsPathSegment (name : String) : Prop where
  ne_empty : name ≠ ""
  isPathChar : ∀ c ∈ name.toList, isPathChar c = true
  head : name.toList.head? ≠ some '.'

/-- Reducing a name for paths gives a path segment. -/
theorem Lowering.isPathSegment_pathSafe (l : Lowering) (name : String) :
    IsPathSegment (l.pathSafe name) where
  ne_empty := by
    intro hempty
    have hchars := congrArg String.toList hempty
    rw [Lowering.pathSafe, String.toList_ofList] at hchars
    exact coverDots_ne_nil (l.sanitize_ne_nil _ _) hchars
  isPathChar := by
    intro c hc
    rw [Lowering.pathSafe, String.toList_ofList] at hc
    -- a dot at the start was replaced by an underscore, which the alphabet has
    rcases mem_of_mem_coverDots hc with rfl | hc
    · decide
    · exact l.keep_of_mem_sanitize (fun _ => isPathChar_of_isStorageChar) name c hc
  head := by
    rw [Lowering.pathSafe, String.toList_ofList]
    exact head?_coverDots_ne _

/-- Such a name stays as it is. -/
theorem Lowering.pathSafe_eq (l : Lowering) {name : String} (h : IsPathSegment name) :
    l.pathSafe name = name := by
  have hne : name.toList ≠ [] := mt String.toList_eq_nil_iff.1 h.ne_empty
  rw [Lowering.pathSafe, l.sanitize_eq (fun _ => id) hne h.isPathChar, coverDots_eq h.head,
    String.ofList_toList]

/-- That holds for the library's lower-casing as well. -/
theorem isPathSegment_pathSafe (name : String) : IsPathSegment (pathSafe name) :=
  Lowering.basic.isPathSegment_pathSafe name

/-- The alphabet of path segments. -/
theorem isPathChar_of_mem_pathSafe {name : String} {c : Char} (h : c ∈ (pathSafe name).toList) :
    isPathChar c = true :=
  (isPathSegment_pathSafe name).isPathChar c h

/-! ### Safe texts stay as they are -/

/-- A function takes every text to one with a property, and the texts with the property are those
that it leaves as they are. -/
structure IsRetraction (f : String → String) (p : String → Prop) : Prop where
  mem : ∀ s, p (f s)
  eq_iff : ∀ s, f s = s ↔ p s
  idempotent : ∀ s, f (f s) = f s

/-- A function into a set that fixes all members of the set is a retraction onto it. -/
theorem IsRetraction.of_eq {f : String → String} {p : String → Prop} (hmem : ∀ s, p (f s))
    (heq : ∀ s, p s → f s = s) : IsRetraction f p where
  mem := hmem
  eq_iff := fun s => ⟨fun h => h ▸ hmem s, heq s⟩
  idempotent := fun s => heq (f s) (hmem s)

namespace Lowering

variable (l : Lowering)

/-- Names for storage are a retraction onto the alphabet of objectives. -/
theorem isRetraction_storageSafe : IsRetraction l.storageSafe IsStorageName :=
  .of_eq l.isStorageName_storageSafe fun _ => l.storageSafe_eq

/-- And names for paths are one onto the path segments. -/
theorem isRetraction_pathSafe : IsRetraction l.pathSafe IsPathSegment :=
  .of_eq l.isPathSegment_pathSafe fun _ => l.pathSafe_eq

end Lowering

/-! ### Names that stay in their place -/

/-- A name that is not empty, does not begin with a dot and holds no separator. -/
structure IsPlainName (name : String) : Prop where
  head : ∃ c ∈ name.toList.head?, c ≠ '.'
  separator : '/' ∉ name.toList

instance (name : String) : Decidable (IsPlainName name) :=
  decidable_of_iff (name.toList.head?.any (· != '.') = true ∧ '/' ∉ name.toList) <| by
    simp only [Option.any_eq_true, bne_iff_ne]
    exact ⟨fun h => ⟨h.1, h.2⟩, fun h => ⟨h.1, h.2⟩⟩

/-- What follows a plain name does not move it, as long as it holds no separator. -/
theorem IsPlainName.append {name rest : String} (h : IsPlainName name) (hrest : '/' ∉ rest.toList) :
    IsPlainName (name ++ rest) := by
  obtain ⟨c, hc, hdot⟩ := h.head
  constructor
  · refine ⟨c, ?_, hdot⟩
    rw [String.toList_append, List.head?_append, Option.mem_def.1 hc]
    rfl
  · rw [String.toList_append, List.mem_append]
    exact not_or.2 ⟨h.separator, hrest⟩

/-- Such a name is a plain one. -/
theorem IsStorageName.isPlainName {name : String} (h : IsStorageName name) : IsPlainName name := by
  refine ⟨?_, h.not_mem (by decide)⟩
  cases hname : name.toList with
  | nil => exact absurd (String.toList_eq_nil_iff.1 hname) h.ne_empty
  | cons c rest =>
    refine ⟨c, rfl, ?_⟩
    rintro rfl
    exact h.not_mem (c := '.') (by decide) (hname ▸ List.mem_cons_self)

/-- So is a decimal number. -/
theorem isPlainName_repr (n : Nat) : IsPlainName n.repr := by
  have hother : ∀ c : Char, c.isDigit ≠ true → c ∉ n.repr.toList := fun c hc hmem =>
    hc (isDigit_of_mem_repr hmem)
  refine ⟨?_, hother '/' (by decide)⟩
  cases hdigits : n.repr.toList with
  | nil =>
    rw [Nat.toList_repr] at hdigits
    exact absurd hdigits Nat.toDigits_ne_nil
  | cons c rest =>
    refine ⟨c, rfl, ?_⟩
    rintro rfl
    exact hother '.' (by decide) (hdigits ▸ List.mem_cons_self)

/-- A segment of a path is plain: no dot is at its start, and its alphabet has no separator. -/
theorem IsPathSegment.isPlainName {name : String} (h : IsPathSegment name) : IsPlainName name := by
  constructor
  · cases hname : name.toList with
    | nil => exact absurd (String.toList_eq_nil_iff.1 hname) h.ne_empty
    | cons c rest =>
      refine ⟨c, rfl, ?_⟩
      rintro rfl
      exact h.head (by rw [hname]; rfl)
  · intro hmem
    have hchar := h.isPathChar _ hmem
    revert hchar
    decide

/-- And a name reduced for paths. -/
theorem isPlainName_pathSafe (name : String) : IsPlainName (pathSafe name) :=
  (isPathSegment_pathSafe name).isPlainName

/-! ### Texts with a separator -/

/-- A text is split at its first separator in one way only. -/
theorem eq_of_append_separator {α : Type} {c : α} {a a' b b' : List α} (ha : c ∉ a) (ha' : c ∉ a')
    (h : a ++ c :: b = a' ++ c :: b') : a = a' ∧ b = b' := by
  induction a generalizing a' with
  | nil =>
    cases a' with
    | nil => exact ⟨rfl, (List.cons.inj h).2⟩
    | cons x xs => exact absurd ((List.cons.inj h).1 ▸ List.mem_cons_self) ha'
  | cons x xs ih =>
    cases a' with
    | nil => exact absurd ((List.cons.inj h).1 ▸ List.mem_cons_self) ha
    | cons y ys =>
      obtain ⟨rfl, htail⟩ := List.cons.inj h
      obtain ⟨rfl, rfl⟩ := ih (fun hmem => ha (List.mem_cons_of_mem _ hmem))
        (fun hmem => ha' (List.mem_cons_of_mem _ hmem)) htail
      exact ⟨rfl, rfl⟩

end Marionette
