import Marionette.Datum.Decode
import Marionette.Proofs.Datum.Compound
import Marionette.Proofs.Results
import Mathlib.Data.List.Basic
import Mathlib.Data.List.Nodup

/-!
# Merging data

Merging one compound into another is a union in which the right one wins: values of keys that both
have are merged where both are compounds, and replaced everywhere else.  This needs that no compound
has a key twice, at any depth.

- `Datum.IsKeyed`, `Compound.IsTable`: every compound within a value has each of its keys once.
- `Compound.keys_insert`, `Compound.keys_merge`: the keys after a change, in order.
- `Compound.mergeValue_cases`: values are merged or replaced; `Compound.get?_merge`: the value of a
  key after merging.
- `Compound.mergeValue_self`, `Compound.mergeValue_mergeValue`: a value that is merged in again, or
  into itself, changes nothing.
- `Compound.isTable_merge`, `Compound.isTable_ofList`, `Compound.isTable_of_decode`: no key is
  repeated by merging, by collecting entries or by reading them from a document.
- `Compound.merge_union`: all of this together.
-/

namespace Marionette

/-- The keys of a compound, in order. -/
def Compound.keys (c : Compound) : List String := c.map (·.1)

namespace Datum

mutual

/-- Every compound within the value has each of its keys once. -/
def IsKeyed : Datum → Prop
  | list items => AllKeyed items
  | compound entries => (Compound.keys entries).Nodup ∧ EntriesKeyed entries
  | _ => True

/-- The same for the items of a list. -/
def AllKeyed : List Datum → Prop
  | [] => True
  | item :: items => item.IsKeyed ∧ AllKeyed items

/-- The same for the values of a compound. -/
def EntriesKeyed : List (String × Datum) → Prop
  | [] => True
  | (_, value) :: entries => value.IsKeyed ∧ EntriesKeyed entries

end

/-- Keys are distinct in a list if they are in its items. -/
theorem allKeyed_iff {items : List Datum} : AllKeyed items ↔ ∀ d ∈ items, d.IsKeyed := by
  induction items with
  | nil => simp [AllKeyed]
  | cons item items ih => simp [AllKeyed, ih]

/-- And in entries if they are in their values. -/
theorem entriesKeyed_iff {entries : List (String × Datum)} :
    EntriesKeyed entries ↔ ∀ e ∈ entries, e.2.IsKeyed := by
  induction entries with
  | nil => simp [EntriesKeyed]
  | cons e entries ih =>
    obtain ⟨key, value⟩ := e
    simp [EntriesKeyed, ih]

end Datum

namespace Compound

open Datum (IsKeyed EntriesKeyed)

variable {c entries : Compound} {key k : String} {value : Datum} {old : Option Datum}

/-- A compound that has each key once, as has every compound within it. -/
structure IsTable (c : Compound) : Prop where
  /-- No key comes twice. -/
  nodup : c.keys.Nodup
  /-- Nor does one within a value. -/
  keyed : ∀ e ∈ c, e.2.IsKeyed

/-- A compound with distinct keys throughout is a table. -/
theorem isKeyed_compound_iff : (Datum.compound c).IsKeyed ↔ c.IsTable := by
  rw [IsKeyed, Datum.entriesKeyed_iff]
  exact ⟨fun h => ⟨h.1, h.2⟩, fun h => ⟨h.nodup, h.keyed⟩⟩

/-! ### Keys -/

/-- A key without an entry is not found. -/
theorem get?_eq_none_iff : get? c k = none ↔ k ∉ c.keys := by
  induction c with
  | nil => simp [get?, keys]
  | cons e rest ih =>
    rw [get?_cons, keys, List.map_cons, List.mem_cons, not_or]
    by_cases h : e.1 = k
    · simp [h]
    · rw [if_neg h, ih]
      exact ⟨fun hrest => ⟨Ne.symm h, hrest⟩, fun hboth => hboth.2⟩

/-- An entry of distinct keys is found by its key. -/
theorem get?_of_mem (h : c.keys.Nodup) {e : String × Datum} (he : e ∈ c) :
    get? c e.1 = some e.2 := by
  induction c with
  | nil => cases he
  | cons first rest ih =>
    obtain ⟨hfirst, hrest⟩ := List.nodup_cons.1 h
    rw [get?_cons]
    rcases List.mem_cons.1 he with rfl | he
    · rw [if_pos rfl]
    · rw [if_neg fun heq => hfirst (List.mem_map.2 ⟨e, he, heq.symm⟩), ih hrest he]

/-- What is found is an entry. -/
theorem mem_of_get? {v : Datum} (h : get? c k = some v) : (k, v) ∈ c := by
  obtain ⟨e, he, rfl⟩ := Option.map_eq_some_iff.1 h
  obtain rfl : e.1 = k := beq_iff_eq.1 (List.find?_some he :)
  exact List.mem_of_find?_eq_some he

/-- A key that is there keeps its place, and a new one comes last. -/
theorem keys_insert (c : Compound) (key : String) (value : Datum) :
    (c.insert key value).keys = if key ∈ c.keys then c.keys else c.keys ++ [key] := by
  induction c with
  | nil => rfl
  | cons e rest ih =>
    obtain ⟨key', old⟩ := e
    have hcons : keys ((key', old) :: rest) = key' :: keys rest := rfl
    rw [insert, hcons]
    by_cases h : key' = key
    · rw [if_pos h, if_pos (List.mem_cons.2 (.inl h.symm)), h]
      rfl
    · rw [if_neg h]
      show key' :: keys (insert rest key value) = _
      rw [ih]
      have hmem : key ∈ key' :: keys rest ↔ key ∈ keys rest := by simp [Ne.symm h]
      by_cases hkey : key ∈ keys rest
      · rw [if_pos hkey, if_pos (hmem.2 hkey)]
      · rw [if_neg hkey, if_neg (fun h => hkey (hmem.1 h)), List.cons_append]

/-- After merging the keys stand in their old order, followed by the new ones in theirs. -/
theorem keys_merge (c : Compound) (h : entries.keys.Nodup) :
    (c.merge entries).keys = c.keys ++ entries.keys.filter (· ∉ c.keys) := by
  induction entries generalizing c with
  | nil => simp [merge, keys]
  | cons e rest ih =>
    obtain ⟨key, value⟩ := e
    obtain ⟨hkey, hrest⟩ := List.nodup_cons.1 h
    have hcons : keys ((key, value) :: rest) = key :: keys rest := rfl
    rw [merge, ih _ hrest, keys_insert, hcons]
    by_cases hold : key ∈ c.keys
    · rw [if_pos hold, List.filter_cons_of_neg (by simpa using hold)]
    · -- the key is the first of the new ones, and it does not come again
      rw [if_neg hold, List.filter_cons_of_pos (by simpa using hold), List.append_assoc,
        List.singleton_append]
      congr 2
      refine List.filter_congr fun k hk => ?_
      have hne : k ≠ key := fun heq => hkey (heq ▸ hk)
      simp [hne]

/-! ### Values -/

/-- What stands under a key after merging, given what stood there on both sides: compounds are
merged, the right value replaces any other one, and without a right value the left one stays. -/
def joined? (left right : Option Datum) : Option Datum :=
  match left, right with
  | some (.compound x), some (.compound y) => some (.compound (merge x y))
  | _, some v => some v
  | _, none => left

/-- A compound is merged into another one, and replaces everything else. -/
theorem mergeValue_cases (old : Option Datum) :
    (∃ existing, old = some (.compound existing)) ∨
      ∀ incoming, mergeValue old (.compound incoming) = .compound incoming := by
  cases old with
  | none => exact .inr fun incoming => by rw [mergeValue]; nofun
  | some value =>
    cases value with
    | compound existing => exact .inl ⟨existing, rfl⟩
    | _ => exact .inr fun incoming => by rw [mergeValue]; nofun

/-- Where there is nothing on the right, the left stays. -/
theorem joined?_none (left : Option Datum) : joined? left none = left := by
  unfold joined?
  split
  · rename_i h
    cases h
  · rename_i h
    cases h
  · rfl

/-- Where there is something, it is merged into the left. -/
theorem joined?_some (left : Option Datum) (v : Datum) :
    joined? left (some v) = some (mergeValue left v) := by
  unfold joined?
  split
  · rename_i h
    cases h
    rw [mergeValue]
  · rename_i hnot h
    cases h
    congr 1
    cases v with
    | compound incoming =>
      rw [mergeValue]
      · exact fun existing hleft => hnot existing incoming hleft rfl
    | _ => rw [mergeValue]; nofun
  · rename_i h
    cases h

/-- The value of a key after merging. -/
theorem get?_merge (c : Compound) (h : entries.keys.Nodup) (k : String) :
    get? (c.merge entries) k = joined? (get? c k) (get? entries k) := by
  induction entries generalizing c with
  | nil => exact (joined?_none _).symm
  | cons e rest ih =>
    obtain ⟨key, value⟩ := e
    obtain ⟨hkey, hrest⟩ := List.nodup_cons.1 h
    rw [merge, ih _ hrest, get?_insert, get?_cons]
    by_cases hk : key = k
    · subst hk
      rw [if_pos rfl, if_pos rfl, get?_eq_none_iff.2 hkey, joined?_none, joined?_some]
    · rw [if_neg hk, if_neg hk]

/-- Merging in values that leave what is there as it is changes nothing. -/
theorem merge_eq_self (h : ∀ e ∈ entries, get? c e.1 = some (mergeValue (get? c e.1) e.2)) :
    c.merge entries = c := by
  induction entries with
  | nil => rw [merge]
  | cons e rest ih =>
    obtain ⟨key, value⟩ := e
    obtain ⟨hkey, hrest⟩ := List.forall_mem_cons.1 h
    rw [merge, insert_eq_self hkey, ih hrest]

mutual

/-- A value that is merged into itself changes nothing. -/
theorem mergeValue_self (v : Datum) (h : v.IsKeyed) : mergeValue (some v) v = v := by
  match v, h with
  | .compound entries, h =>
    rw [IsKeyed] at h
    rw [mergeValue, merge_eq_self fun e he => ?_]
    rw [get?_of_mem h.1 he, mergeValue_self_of_mem entries h.2 e he]
  | .byte v, _ | .short v, _ | .int v, _ | .long v, _ | .float v, _ | .double v, _ | .string s, _
  | .list items, _ | .byteArray items, _ | .intArray items, _ =>
    rw [mergeValue]
    nofun

/-- Nor does a value of a compound. -/
theorem mergeValue_self_of_mem (entries : List (String × Datum)) (h : EntriesKeyed entries) :
    ∀ e ∈ entries, mergeValue (some e.2) e.2 = e.2 := by
  match entries, h with
  | [], _ => exact List.forall_mem_nil _
  | (key, value) :: entries, h =>
    rw [EntriesKeyed] at h
    exact List.forall_mem_cons.2 ⟨mergeValue_self value h.1, mergeValue_self_of_mem entries h.2⟩

end

mutual

/-- A value that is merged in a second time changes nothing. -/
theorem mergeValue_mergeValue (v : Datum) (h : v.IsKeyed) (old : Option Datum) :
    mergeValue (some (mergeValue old v)) v = mergeValue old v := by
  match v, h with
  | .compound entries, h =>
    obtain ⟨existing, rfl⟩ | hreplaced := mergeValue_cases old
    · rw [IsKeyed] at h
      rw [mergeValue, mergeValue, merge_eq_self fun e he => ?_]
      rw [get?_merge existing h.1, get?_of_mem h.1 he, joined?_some,
        mergeValue_mergeValue_of_mem entries h.2 e he]
    · rw [hreplaced]
      exact mergeValue_self (.compound entries) h
  | .byte v, _ | .short v, _ | .int v, _ | .long v, _ | .float v, _ | .double v, _ | .string s, _
  | .list items, _ | .byteArray items, _ | .intArray items, _ =>
    rw [mergeValue, mergeValue] <;> nofun

/-- Nor does a value of a compound. -/
theorem mergeValue_mergeValue_of_mem (entries : List (String × Datum)) (h : EntriesKeyed entries) :
    ∀ e ∈ entries, ∀ old, mergeValue (some (mergeValue old e.2)) e.2 = mergeValue old e.2 := by
  match entries, h with
  | [], _ => exact List.forall_mem_nil _
  | (key, value) :: entries, h =>
    rw [EntriesKeyed] at h
    exact List.forall_mem_cons.2 ⟨mergeValue_mergeValue value h.1,
      mergeValue_mergeValue_of_mem entries h.2⟩

end

/-! ### Tables stay tables -/

/-- The empty compound is a table. -/
theorem isTable_nil : IsTable [] :=
  ⟨List.nodup_nil, List.forall_mem_nil _⟩

/-- So are the compounds in a table. -/
theorem IsTable.isKeyed_get? (h : c.IsTable) {v : Datum} (hv : get? c k = some v) : v.IsKeyed :=
  h.keyed _ (mem_of_get? hv)

/-- Inserting keeps a table a table. -/
theorem isTable_insert (h : c.IsTable) (hvalue : value.IsKeyed) : (c.insert key value).IsTable := by
  have hnodup : (c.insert key value).keys.Nodup := by
    rw [keys_insert]
    split
    · exact h.nodup
    · next hkey => exact List.nodup_append.2 ⟨h.nodup, List.nodup_singleton _, by
        intro a ha b hb
        rw [List.mem_singleton.1 hb]
        exact fun heq => hkey (heq ▸ ha)⟩
  refine ⟨hnodup, fun e he => ?_⟩
  have hget := get?_of_mem hnodup he
  rw [get?_insert] at hget
  split at hget
  · rw [← Option.some.inj hget]
    exact hvalue
  · exact h.isKeyed_get? hget

/-- Collected entries repeat no key, whatever their keys are. -/
theorem isTable_ofList (h : ∀ e ∈ entries, e.2.IsKeyed) : (ofList entries).IsTable := by
  have hfold : ∀ c : Compound, c.IsTable →
      IsTable (entries.foldl (fun c e => insert c e.1 e.2) c) := by
    induction entries with
    | nil => exact fun _ hc => hc
    | cons e rest ih =>
      obtain ⟨he, hrest⟩ := List.forall_mem_cons.1 h
      exact fun c hc => ih hrest _ (isTable_insert hc he)
  exact hfold [] isTable_nil

mutual

/-- Merging a value keeps keys distinct. -/
theorem isKeyed_mergeValue (v : Datum) (hv : v.IsKeyed) (old : Option Datum)
    (hold : ∀ d ∈ old, d.IsKeyed) : (mergeValue old v).IsKeyed := by
  match v, hv with
  | .compound entries, hv =>
    obtain ⟨existing, rfl⟩ | hreplaced := mergeValue_cases old
    · rw [IsKeyed] at hv
      rw [mergeValue]
      exact isKeyed_compound_iff.2
        (isTable_merge_of_keyed entries hv.2 existing (isKeyed_compound_iff.1 (hold _ rfl)))
    · rw [hreplaced]
      exact hv
  | .byte v, hv | .short v, hv | .int v, hv | .long v, hv | .float v, hv | .double v, hv
  | .string s, hv | .list items, hv | .byteArray items, hv | .intArray items, hv =>
    rw [mergeValue]
    · exact hv
    · nofun

/-- Merging entries one by one does so, too. -/
theorem isTable_merge_of_keyed (entries : List (String × Datum)) (h : EntriesKeyed entries)
    (c : Compound) (hc : c.IsTable) : (c.merge entries).IsTable := by
  match entries, h with
  | [], _ =>
    rw [merge]
    exact hc
  | (key, value) :: entries, h =>
    rw [EntriesKeyed] at h
    rw [merge]
    refine isTable_merge_of_keyed entries h.2 _ (isTable_insert hc ?_)
    exact isKeyed_mergeValue value h.1 _ fun d hd => hc.isKeyed_get? hd

end

/-- Tables are merged to a table. -/
theorem isTable_merge (hc : c.IsTable) (h : entries.IsTable) : (c.merge entries).IsTable :=
  isTable_merge_of_keyed entries (Datum.entriesKeyed_iff.2 h.keyed) c hc

end Compound

/-- A member that was read has been read by its decoder. -/
theorem Json.exists_of_field_ok {α : Type} {j : Json} {name : String} {d : Decoder α} {a : α}
    (h : field j name d = .ok a) : ∃ value, d value = .ok a := by
  obtain ⟨found, -, h⟩ := exists_of_bind_ok h
  cases found with
  | none => cases h
  | some value => exact ⟨value, h⟩

/-- The items of a list that was read have each been read. -/
theorem Decoder.exists_of_mem_list {α : Type} {d : Decoder α} {j : Json} {items : List α}
    (h : list d j = .ok items) {a : α} (ha : a ∈ items) : ∃ value, d value = .ok a := by
  cases j with
  | arr values =>
    obtain ⟨value, -, hvalue⟩ := exists_of_mem_right (forall₂_of_mapM_ok h) ha
    exact ⟨value, hvalue⟩
  | _ => cases h

/-- As have the values of entries. -/
theorem Decoder.exists_of_mem_entries {α : Type} {d : Decoder α} {j : Json}
    {items : List (String × α)} (h : entries d j = .ok items) {e : String × α} (he : e ∈ items) :
    ∃ value, d value = .ok e.2 := by
  cases j with
  | obj members =>
    obtain ⟨m, -, hm⟩ := exists_of_mem_right (forall₂_of_mapM_ok h) he
    obtain ⟨a, ha, hpair⟩ := exists_of_bind_ok hm
    obtain rfl : (m.1, a) = e := Except.ok.inj hpair
    exact ⟨m.2, ha⟩
  | _ => cases h

namespace Datum

/-- A value that was read from a document has each key once, whatever the document repeats. -/
theorem isKeyed_of_decodeNested {fuel : Nat} {j : Json} {d : Datum}
    (h : decodeNested fuel j = .ok d) : d.IsKeyed := by
  induction fuel generalizing j d with
  | zero => cases h
  | succ fuel ih =>
    obtain ⟨record, -, h⟩ := exists_of_bind_ok h
    obtain ⟨kind, -, h⟩ := exists_of_bind_ok h
    cases kind with
    | list =>
      obtain ⟨items, hitems, h⟩ := exists_of_bind_ok h
      obtain rfl : list items = d := Except.ok.inj h
      obtain ⟨value, hvalue⟩ := Json.exists_of_field_ok hitems
      rw [IsKeyed, allKeyed_iff]
      intro item hitem
      obtain ⟨itemValue, hread⟩ := Decoder.exists_of_mem_list hvalue hitem
      exact ih hread
    | compound =>
      obtain ⟨entries, hentries, h⟩ := exists_of_bind_ok h
      obtain rfl : compound (Compound.ofList entries) = d := Except.ok.inj h
      obtain ⟨value, hvalue⟩ := Json.exists_of_field_ok hentries
      refine Compound.isKeyed_compound_iff.2 (Compound.isTable_ofList fun e he => ?_)
      obtain ⟨entryValue, hread⟩ := Decoder.exists_of_mem_entries hvalue he
      exact ih hread
    | _ =>
      -- what a scalar or an array holds, there is no compound in it
      obtain ⟨content, -, h⟩ := exists_of_bind_ok h
      cases h
      trivial

end Datum

namespace Compound

variable {a b : Compound}

/-- So has a compound that was read. -/
theorem isTable_of_decode {j : Json} {c : Compound} (h : decode j = .ok c) : c.IsTable := by
  obtain ⟨entries, hentries, rfl⟩ := exists_of_map_ok h
  refine isTable_ofList fun e he => ?_
  obtain ⟨value, hread⟩ := Decoder.exists_of_mem_entries hentries he
  exact Datum.isKeyed_of_decodeNested hread

/-! ### The union -/

/-- Merging is a union in which the right compound wins, at every depth: it gives each key the
merged value where both have a compound, else the right value, else the left one; the keys keep
their order, and new ones follow in theirs; and merging in the same compound again, merging a
compound into itself, or merging in nothing changes nothing. -/
theorem merge_union (ha : a.IsTable) (hb : b.IsTable) :
    (a.merge b).IsTable ∧
      (∀ k, get? (a.merge b) k = joined? (get? a k) (get? b k)) ∧
      (a.merge b).keys = a.keys ++ b.keys.filter (· ∉ a.keys) ∧
      (a.merge b).merge b = a.merge b ∧ a.merge a = a ∧ a.merge [] = a := by
  refine ⟨isTable_merge ha hb, get?_merge a hb.nodup, keys_merge a hb.nodup, ?_, ?_, ?_⟩
  · refine merge_eq_self fun e he => ?_
    rw [get?_merge a hb.nodup, get?_of_mem hb.nodup he, joined?_some,
      mergeValue_mergeValue e.2 (hb.keyed e he)]
  · refine merge_eq_self fun e he => ?_
    rw [get?_of_mem ha.nodup he, mergeValue_self e.2 (ha.keyed e he)]
  · rw [merge]

/-- An item that is given a new model keeps its count, and a note comes last. -/
theorem merge_union_item :
    IsTable [("item", .compound [("id", .string "stone"), ("count", .int 1)]), ("width", .int 2)] ∧
      IsTable [("note", .byte 1), ("item", .compound [("id", .string "glass")])] ∧
      merge [("item", .compound [("id", .string "stone"), ("count", .int 1)]), ("width", .int 2)]
          [("note", .byte 1), ("item", .compound [("id", .string "glass")])] =
        [("item", .compound [("id", .string "glass"), ("count", .int 1)]), ("width", .int 2),
          ("note", .byte 1)] ∧
      keys (merge
          [("item", .compound [("id", .string "stone"), ("count", .int 1)]), ("width", .int 2)]
          [("note", .byte 1), ("item", .compound [("id", .string "glass")])]) =
        ["item", "width", "note"] := by
  have hleft : IsTable
      [("item", .compound [("id", .string "stone"), ("count", .int 1)]), ("width", .int 2)] :=
    ⟨by decide, by simp [Datum.IsKeyed, Datum.EntriesKeyed, keys]⟩
  have hright : IsTable [("note", .byte 1), ("item", .compound [("id", .string "glass")])] :=
    ⟨by decide, by simp [Datum.IsKeyed, Datum.EntriesKeyed, keys]⟩
  obtain ⟨-, -, hkeys, -⟩ := merge_union hleft hright
  exact ⟨hleft, hright, by rfl, hkeys.trans (by decide)⟩

end Compound

end Marionette
