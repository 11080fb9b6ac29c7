import Marionette.Json.Printer
import Marionette.Json.Record

/-!
# Reading back lists of texts

The files that list functions are records whose only field is a list of texts.  What is written for
such a record is read back as it was.

- `Json.readText?_escaped`: a reader finds the text that was escaped.
- `Json.readItems_prettyItems`: and the list of texts that was written.
- `Json.readRecord?_pretty`: and the record around it.
-/

namespace Marionette

namespace Json

/-! ### Characters and texts -/

/-- Four digits are read alike whatever follows them. -/
theorem readUnit?_append {cs : List Char} {n : Nat} (h : readUnit? cs = some (n, []))
    (rest : List Char) :
    readUnit? (cs ++ rest) = some (n, rest) := by
  match cs, h with
  | a :: b :: c :: d :: more, h =>
    simp only [readUnit?, Option.bind_eq_bind, Option.bind_eq_some_iff, Option.pure_def,
      Option.some.injEq, Prod.mk.injEq] at h
    obtain ⟨va, ha, vb, hb, vc, hc, vd, hd, rfl, rfl⟩ := h
    simp [readUnit?, ha, hb, hc, hd]

/-- A control character is read back from its four digits. -/
theorem readUnit?_hexDigits {n : Nat} (hn : n < 0x20) (rest : List Char) :
    readUnit? (List.replicate (4 - (Text.hexDigits n).length) '0' ++ Text.hexDigits n ++ rest) =
      some (n, rest) := by
  have hdigits : ∀ n < 0x20, readUnit?
      (List.replicate (4 - (Text.hexDigits n).length) '0' ++ Text.hexDigits n) = some (n, []) := by
    decide
  exact readUnit?_append (hdigits n hn) rest

theorem readEscape?_control {c : Char} (hc : c.toNat < 0x20) (rest : List Char) :
    readEscape? ('u' :: (List.replicate (4 - (Text.hexDigits c.toNat).length) '0' ++
      Text.hexDigits c.toNat ++ rest)) = some (c, rest) := by
  have hunit := readUnit?_hexDigits hc rest
  have hlow : ¬(0xDC00 ≤ c.toNat ∧ c.toNat ≤ 0xDFFF) := by omega
  have hhigh : ¬(0xD800 ≤ c.toNat ∧ c.toNat ≤ 0xDBFF) := by omega
  show readEscapedUnit? _ = _
  simp only [readEscapedUnit?, hunit, Option.bind_eq_bind, Option.bind_some, hlow, hhigh, if_false,
    Char.ofNat_toNat, Option.pure_def]

/-- One step of a reader takes an escaped character. -/
theorem readText?_escapeChar (fuel : Nat) (acc : List Char) (c : Char) (rest : List Char) :
    readText? (fuel + 1) acc (escapeChar c ++ rest) = readText? fuel (c :: acc) rest := by
  unfold escapeChar
  -- seven characters with a short escape, the other control characters, and the rest
  split
  · rename_i h
    subst h
    rfl
  split
  · rename_i h
    subst h
    rfl
  split
  · rename_i h
    subst h
    rfl
  split
  · rename_i h
    subst h
    rfl
  split
  · rename_i h
    subst h
    rfl
  split
  · rename_i h
    subst h
    rfl
  split
  · rename_i h
    subst h
    rfl
  split
  · rename_i hcontrol
    have hread := readEscape?_control hcontrol rest
    simp only [List.cons_append, List.nil_append, readText?, Char.reduceEq, if_false,
      if_true, hread]
  · rename_i hquote hslash _ _ _ _ _ hplain
    simp only [List.cons_append, List.nil_append, readText?, hquote, hslash, hplain, if_false]

/-- A reader finds the text that was escaped, and stops behind its closing quote. -/
theorem readText?_flatMap (fuel : Nat) (acc cs rest : List Char) (hfuel : cs.length < fuel) :
    readText? fuel acc (cs.flatMap escapeChar ++ '"' :: rest) =
      some (String.ofList (acc.reverse ++ cs), rest) := by
  induction cs generalizing fuel acc with
  | nil =>
    obtain ⟨n, rfl⟩ : ∃ n, fuel = n + 1 := ⟨fuel - 1, by simp at hfuel; omega⟩
    simp [readText?]
  | cons c cs ih =>
    rw [List.length_cons] at hfuel
    obtain ⟨n, rfl⟩ : ∃ n, fuel = n + 1 := ⟨fuel - 1, by omega⟩
    rw [List.flatMap_cons, List.append_assoc, readText?_escapeChar, ih n _ (by omega),
      List.reverse_cons, List.append_assoc, List.singleton_append]

theorem length_le_flatMap (cs : List Char) : cs.length ≤ (cs.flatMap escapeChar).length := by
  induction cs with
  | nil => exact Nat.le_refl _
  | cons c cs ih =>
    have hc : 1 ≤ (escapeChar c).length := by
      unfold escapeChar
      repeat' split
      all_goals simp
    rw [List.flatMap_cons, List.length_append, List.length_cons]
    omega

theorem readText?_escaped (s : String) (rest : List Char) :
    readText? ((s.toList.flatMap escapeChar ++ '"' :: rest).length + 1) []
      (s.toList.flatMap escapeChar ++ '"' :: rest) = some (s, rest) := by
  have hlen := length_le_flatMap s.toList
  rw [readText?_flatMap _ _ _ _ (by rw [List.length_append]; omega)]
  simp

/-! ### Lists and records -/

theorem skipSpace_replicate (n : Nat) (rest : List Char) :
    skipSpace (List.replicate n ' ' ++ rest) = skipSpace rest := by
  induction n with
  | zero => rfl
  | succ n ih => exact ih

/-- A line break with its indentation is white space. -/
theorem skipSpace_lineBreak (level : Nat) (rest : List Char) :
    skipSpace ((lineBreak level).toList ++ rest) = skipSpace rest := by
  rw [lineBreak, String.toList_ofList]
  exact skipSpace_replicate _ _

theorem toList_escapedText (s : String) (rest : List Char) :
    (escapedText s).toList ++ rest = '"' :: (s.toList.flatMap escapeChar ++ '"' :: rest) := by
  simp [escapedText]

theorem skipSpace_escapedText (s : String) (rest : List Char) :
    skipSpace ((escapedText s).toList ++ rest) = (escapedText s).toList ++ rest := by
  rw [toList_escapedText]
  rfl

/-- A text by itself is read as a value. -/
theorem readValue_escaped (fuel depth : Nat) {cs : List Char} {s : String} {rest : List Char}
    (hcs : skipSpace cs = (escapedText s).toList ++ rest) :
    readValue (fuel + 1) depth cs = some (.str s, rest) := by
  rw [readValue, hcs, toList_escapedText]
  show Option.map _ (readText? _ [] _) = _
  rw [readText?_escaped]
  rfl

/-- A list of texts is read back up to its closing bracket. -/
theorem readItems_prettyItems (fuel depth level : Nat) (acc : List Json) (x : String)
    (xs : List String) (rest : List Char) {cs : List Char} (hfuel : xs.length + 1 < fuel)
    (hcs : skipSpace cs = (escapedText x).toList ++ ((prettyItems level (xs.map .str)).toList ++
      ((lineBreak (level - 1)).toList ++ ']' :: rest))) :
    readItems fuel depth acc cs = some (acc.reverse ++ .str x :: xs.map .str, rest) := by
  induction xs generalizing fuel acc x cs with
  | nil =>
    -- the last item: only white space stands between it and the bracket
    obtain ⟨n, rfl⟩ : ∃ n, fuel = n + 2 := ⟨fuel - 2, by simp at hfuel; omega⟩
    rw [readItems, readValue_escaped _ _ hcs]
    dsimp only
    rw [List.map_nil, prettyItems, String.toList_empty, List.nil_append, skipSpace_lineBreak]
    simp [skipSpace, isSpace]
  | cons y ys ih =>
    rw [List.length_cons] at hfuel
    obtain ⟨n, rfl⟩ : ∃ n, fuel = n + 2 := ⟨fuel - 2, by omega⟩
    -- behind an item there is a comma, and the text of the remaining ones
    have hitems : (prettyItems level ((y :: ys).map .str)).toList ++
        ((lineBreak (level - 1)).toList ++ ']' :: rest) =
        ',' :: ((lineBreak level).toList ++ ((escapedText y).toList ++
          ((prettyItems level (ys.map .str)).toList ++
            ((lineBreak (level - 1)).toList ++ ']' :: rest)))) := by
      simp [prettyItems, prettyAt]
    rw [readItems, readValue_escaped _ _ hcs]
    dsimp only
    rw [hitems]
    refine (ih (n + 1) (.str x :: acc) y (by omega) ?_).trans ?_
    · rw [skipSpace_lineBreak, skipSpace_escapedText]
    · simp

theorem length_le_prettyItems (level : Nat) (xs : List String) :
    xs.length ≤ (prettyItems level (xs.map .str)).toList.length := by
  induction xs with
  | nil => exact Nat.zero_le _
  | cons x xs ih =>
    simp only [List.map_cons, prettyItems, String.toList_append, List.length_append,
      List.length_cons]
    have hcomma : (",".toList).length = 1 := rfl
    omega

theorem readValue_bracket (fuel depth : Nat) {cs behind items : List Char}
    (hcs : skipSpace cs = '[' :: behind) (hbehind : skipSpace behind = '"' :: items) :
    readValue (fuel + 1) (depth + 1) cs =
      (readItems fuel depth [] ('"' :: items)).map fun (items, rest) => (.arr items, rest) := by
  simp [readValue, hcs, hbehind]

/-- A list of texts is read back as a value. -/
theorem readValue_list (depth level : Nat) (x : String) (xs : List String) {cs rest : List Char}
    (hcs : skipSpace cs = '[' :: ((lineBreak level).toList ++ ((escapedText x).toList ++
      ((prettyItems level (xs.map .str)).toList ++
        ((lineBreak (level - 1)).toList ++ ']' :: rest))))) :
    readValue (2 * cs.length + 2) (depth + 1) cs = some (.arr ((x :: xs).map .str), rest) := by
  have hfuel : xs.length + 1 < 2 * cs.length + 1 := by
    have hskip : (skipSpace cs).length ≤ cs.length := (List.dropWhile_sublist _).length_le
    have hitems := length_le_prettyItems level xs
    rw [hcs] at hskip
    simp only [List.length_cons, List.length_append] at hskip
    omega
  rw [readValue_bracket _ _ hcs (by
    rw [skipSpace_lineBreak, skipSpace_escapedText, toList_escapedText])]
  rw [readItems_prettyItems _ depth level [] x xs rest hfuel (by
    rw [← toList_escapedText, skipSpace_escapedText])]
  rfl

theorem readFields_one {fields : List String} {field : String}
    {members value rest behind : List Char} {json : Json} (fuel : Nat)
    (hfield : readText? (members.length + 1) [] members = some (field, ':' :: value))
    (hvalue : readField? fields field value = some ([(field, json)], rest))
    (hrest : skipSpace rest = '\x7d' :: behind) :
    readFields fields (fuel + 1) [] ('"' :: members) = some ([(field, json)], behind) := by
  have hquote : skipSpace ('"' :: members) = '"' :: members := rfl
  have hcolon : skipSpace (':' :: value) = ':' :: value := rfl
  simp [readFields, hquote, hfield, hcolon, hvalue, hrest]

theorem readRecord?_brace {fields : List String} {s : String} {cs members : List Char}
    {ms : List (String × Json)} (hs : s.toList = '\x7b' :: cs) (hcs : skipSpace cs = '"' :: members)
    (hms : readFields fields (('"' :: members).length + 1) [] ('"' :: members) =
      some (ms, ['\n'])) :
    readRecord? fields s = some (.obj ms) := by
  have hbrace : skipSpace ('\x7b' :: cs) = '\x7b' :: cs := rfl
  have hend : skipSpace ['\n'] = [] := rfl
  simp [readRecord?, hs, hbrace, hcs, hms, hend, -List.length_cons]

/-- A record whose only field is a list of texts is read back as it was written. -/
theorem readRecord?_pretty (field : String) (x : String) (xs : List String) :
    readRecord? [field] ((Json.obj [(field, .arr ((x :: xs).map .str))]).pretty ++ "\n") =
      some (.obj [(field, .arr ((x :: xs).map .str))]) := by
  -- what stands behind the list, and behind the colon
  let behind : List Char := '\n' :: '\x7d' :: ['\n']
  let value : List Char := ' ' :: '[' :: ((lineBreak 2).toList ++ ((escapedText x).toList ++
    ((prettyItems 2 (xs.map .str)).toList ++ ((lineBreak 1).toList ++ ']' :: behind))))
  have htext : ((Json.obj [(field, .arr ((x :: xs).map .str))]).pretty ++ "\n").toList =
      '\x7b' :: ((lineBreak 1).toList ++
        '"' :: (field.toList.flatMap escapeChar ++ '"' :: ':' :: value)) := by
    simp [pretty, prettyAt, prettyMembers, escapedText, value, behind, lineBreak]
  have hspace : skipSpace value = '[' :: ((lineBreak 2).toList ++ ((escapedText x).toList ++
      ((prettyItems 2 (xs.map .str)).toList ++ ((lineBreak (2 - 1)).toList ++ ']' :: behind)))) :=
        rfl
  have hvalue : readField? [field] field value =
      some ([(field, .arr ((x :: xs).map .str))], behind) := by
    rw [readField?, if_pos List.mem_cons_self, show maxDepth - 1 = 125 + 1 from rfl,
      readValue_list 125 2 x xs hspace]
    rfl
  refine readRecord?_brace htext ?_ (readFields_one _ (readText?_escaped field _) hvalue rfl)
  rw [skipSpace_lineBreak]
  rfl

end Json

end Marionette
