import Mathlib.Tactic.ByContra
import Marionette.Disk

/-!
# What stands at a place

Two file systems are compared place by place: a place holds nothing, a directory, or a file with its
contents.

- `DiskEntry.look?`, `Disk.look?`: what stands at a place, without what is below it.
- `DiskEntry.look?_put`, `DiskEntry.look?_erase`: putting something at a place and leaving a place
  empty change what stands there and nowhere else.
- `DiskEntry.put_eq_self`: putting at a place what stands there changes nothing.
-/

namespace Marionette

namespace DiskEntry

/-- The contents of a file; a directory has none. -/
def contents? : DiskEntry → Option String
  | file contents => some contents
  | directory _ => none

/-- What stands at a place below an entry, without what is below it: a file has contents and a
directory has none. -/
def look? (e : DiskEntry) (place : List String) : Option (Option String) :=
  (e.get? place).map contents?

/-! ### Entries of directories -/

theorem lookup_setEntry (name n : String) (entry : DiskEntry) (es : List (String × DiskEntry)) :
    (setEntry name entry es).lookup n = if n = name then some entry else es.lookup n := by
  induction es with
  | nil =>
    rw [setEntry, List.lookup_cons]
    by_cases h : n = name
    · simp [h]
    · simp [h, beq_false_of_ne h]
  | cons e es ih =>
    obtain ⟨name', entry'⟩ := e
    rw [setEntry]
    by_cases hname : name' = name
    · rw [if_pos hname, List.lookup_cons, List.lookup_cons, hname]
      by_cases h : n = name
      · simp [h]
      · simp [h, beq_false_of_ne h]
    · rw [if_neg hname, List.lookup_cons, List.lookup_cons, ih]
      by_cases h : n = name'
      · have hne : n ≠ name := fun heq => hname (h.symm.trans heq)
        simp [h, hname]
      · simp [beq_false_of_ne h]

/-- An entry that a directory has is set without a change. -/
theorem setEntry_eq_self {name : String} {entry : DiskEntry} {es : List (String × DiskEntry)}
    (h : es.lookup name = some entry) : setEntry name entry es = es := by
  induction es with
  | nil => cases h
  | cons e es ih =>
    obtain ⟨name', entry'⟩ := e
    rw [List.lookup_cons] at h
    rw [setEntry]
    by_cases hname : name' = name
    · subst hname
      rw [beq_self_eq_true] at h
      cases h
      exact if_pos rfl
    · rw [beq_false_of_ne (Ne.symm hname)] at h
      rw [if_neg hname, ih h]

theorem lookup_filter_ne (name n : String) (es : List (String × DiskEntry)) :
    (es.filter fun entry => entry.1 != name).lookup n = if n = name then none else es.lookup n := by
  induction es with
  | nil => simp
  | cons e es ih =>
    obtain ⟨name', entry'⟩ := e
    rw [List.filter_cons]
    by_cases hname : name' = name
    · subst hname
      rw [if_neg (by simp), ih, List.lookup_cons]
      by_cases h : n = name'
      · simp [h]
      · simp [h, beq_false_of_ne h]
    · rw [if_pos (by simpa using hname), List.lookup_cons, List.lookup_cons, ih]
      by_cases h : n = name'
      · simp [h, hname]
      · simp [beq_false_of_ne h]

/-! ### Places -/

theorem get?_cons (e : DiskEntry) (name : String) (rest : List String) :
    e.get? (name :: rest) = (e.entries.lookup name).bind fun child => child.get? rest := rfl

theorem get?_append (e : DiskEntry) (p q : List String) :
    e.get? (p ++ q) = (e.get? p).bind fun child => child.get? q := by
  induction p generalizing e with
  | nil => rfl
  | cons name p ih =>
    rw [List.cons_append, get?_cons, get?_cons, Option.bind_assoc]
    congr 1
    funext child
    exact ih child

theorem look?_cons (e : DiskEntry) (name : String) (rest : List String) :
    e.look? (name :: rest) = (e.entries.lookup name).bind fun child => child.look? rest := by
  unfold look?
  rw [get?_cons, Option.map_bind]
  rfl

/-- Nothing stands below what is no directory. -/
theorem look?_append_eq_none {e : DiskEntry} {p q : List String} (hq : q ≠ [])
    (h : e.look? p ≠ some none) : e.look? (p ++ q) = none := by
  obtain ⟨name, rest, rfl⟩ := List.exists_cons_of_ne_nil hq
  unfold look? at h ⊢
  rw [get?_append]
  cases hp : e.get? p with
  | none => rfl
  | some child =>
    cases child with
    | file contents => rfl
    | directory es =>
      rw [hp] at h
      exact absurd rfl h

/-- What has something below it is a directory. -/
theorem look?_dropLast {e : DiskEntry} {p : List String} {x : Option String} (hp : p ≠ [])
    (h : e.look? p = some x) : e.look? p.dropLast = some none := by
  by_contra hno
  have hnone := look?_append_eq_none (q := [p.getLast hp]) (List.cons_ne_nil _ _) hno
  rw [List.dropLast_concat_getLast hp, h] at hnone
  cases hnone

/-! ### Changing a place -/

theorem look?_setEntry (name n : String) (entry : DiskEntry) (es : List (String × DiskEntry))
    (q : List String) : (directory (setEntry name entry es)).look? (n :: q) =
      if n = name then entry.look? q else (directory es).look? (n :: q) := by
  rw [look?_cons, look?_cons]
  show ((setEntry name entry es).lookup n).bind _ = if n = name then _ else (es.lookup n).bind _
  rw [lookup_setEntry]
  split <;> rfl

theorem look?_filter_ne (name n : String) (es : List (String × DiskEntry)) (q : List String) :
    (directory (es.filter fun entry => entry.1 != name)).look? (n :: q) =
      if n = name then none else (directory es).look? (n :: q) := by
  rw [look?_cons, look?_cons]
  show ((es.filter _).lookup n).bind _ = if n = name then _ else (es.lookup n).bind _
  rw [lookup_filter_ne]
  split <;> rfl

theorem look?_of_lookup {es : List (String × DiskEntry)} {name : String} {child : DiskEntry}
    (h : es.lookup name = some child) (q : List String) :
    (directory es).look? (name :: q) = child.look? q := by
  rw [look?_cons]
  show (es.lookup name).bind _ = _
  rw [h]
  rfl

/-- What has something below it has entries. -/
theorem exists_lookup {e : DiskEntry} {name : String} {rest : List String} {x : Option String}
    (h : e.look? (name :: rest) = some x) :
    ∃ es child, e = directory es ∧ es.lookup name = some child ∧ child.look? rest = some x := by
  cases e with
  | file contents => cases h
  | directory es =>
    rw [look?_cons] at h
    obtain ⟨child, hchild, hrest⟩ := Option.bind_eq_some_iff.1 h
    exact ⟨es, child, rfl, hchild, hrest⟩

/-- Putting something at a free place of a directory changes what stands at that place only. -/
theorem look?_put {e new : DiskEntry} {p : List String}
    (hparent : p ≠ [] → e.look? p.dropLast = some none)
    (hbelow : ∀ q, q ≠ [] → e.look? (p ++ q) = none) (hnew : ∀ q, q ≠ [] → new.look? q = none)
    (q : List String) :
    (e.put p new).look? q = if q = p then some new.contents? else e.look? q := by
  -- Nothing is below the new entry, and nothing was below its place.
  have hself (before : List String → Option (Option String)) (hfree : ∀ q, q ≠ [] → before q = none)
      (q : List String) : new.look? q = if q = [] then some new.contents? else before q := by
    by_cases hq : q = []
    · rw [if_pos hq, hq]
      rfl
    · rw [if_neg hq, hnew q hq, hfree q hq]
  induction p generalizing e q with
  | nil => exact hself e.look? hbelow q
  | cons name rest ih =>
    have hdir := hparent (List.cons_ne_nil _ _)
    cases rest with
    | nil =>
      cases e with
      | file contents => cases hdir
      | directory es =>
        cases q with
        | nil => rfl
        | cons n qs =>
          rw [put, look?_setEntry]
          by_cases hn : n = name
          · subst hn
            simp only [if_true, List.cons.injEq, true_and]
            exact hself (fun q => (directory es).look? (n :: q)) hbelow qs
          · rw [if_neg hn, if_neg fun h => hn (List.cons.inj h).1]
    | cons m rest =>
      rw [List.dropLast_cons_cons] at hdir
      obtain ⟨es, child, rfl, hchild, hchilddir⟩ := exists_lookup hdir
      cases q with
      | nil => rfl
      | cons n qs =>
        rw [put, hchild, Option.getD_some, look?_setEntry]
        by_cases hn : n = name
        · subst hn
          simp only [if_true, List.cons.injEq, true_and]
          rw [look?_of_lookup hchild]
          refine ih (fun _ => hchilddir) (fun q hq => ?_) qs
          rw [← look?_of_lookup hchild]
          exact hbelow q hq
        · rw [if_neg hn, if_neg fun h => hn (List.cons.inj h).1]

/-- Leaving the place of a file empty changes what stands at that place only. -/
theorem look?_erase {e : DiskEntry} {p : List String} {contents : String} (hp : p ≠ [])
    (h : e.look? p = some (some contents)) (q : List String) :
    (e.erase p).look? q = if q = p then none else e.look? q := by
  induction p generalizing e q with
  | nil => exact absurd rfl hp
  | cons name rest ih =>
    obtain ⟨es, child, rfl, hchild, hfile⟩ := exists_lookup h
    cases q with
    -- the file is not at the root itself
    | nil =>
      cases rest with
      | nil => rfl
      | cons m rest =>
        rw [erase, hchild]
        · rfl
        · exact List.cons_ne_nil _ _
    | cons n qs =>
      cases rest with
      -- the file is an entry of this directory: it is filtered out, and nothing was below it
      | nil =>
        rw [erase, look?_filter_ne]
        by_cases hn : n = name
        · subst hn
          simp only [if_true, List.cons.injEq, true_and]
          split
          · rfl
          · rename_i hqs
            have hnone : child.look? ([] ++ qs) = none :=
              look?_append_eq_none hqs (by rw [hfile]; simp)
            rw [look?_of_lookup hchild]
            exact hnone.symm
        · rw [if_neg hn, if_neg fun heq => hn (List.cons.inj heq).1]
      | cons m rest =>
        -- the file lies deeper: only the subdirectory on its way changes
        rw [erase, hchild]
        · dsimp only
          rw [look?_setEntry]
          by_cases hn : n = name
          · subst hn
            simp only [if_true, List.cons.injEq, true_and]
            rw [look?_of_lookup hchild]
            exact ih (List.cons_ne_nil _ _) hfile qs
          · rw [if_neg hn, if_neg fun heq => hn (List.cons.inj heq).1]
        · exact List.cons_ne_nil _ _

/-- Putting at a place what stands there changes nothing. -/
theorem put_eq_self {e new : DiskEntry} {p : List String} (h : e.get? p = some new) :
    e.put p new = e := by
  induction p generalizing e with
  | nil => exact (Option.some.inj h).symm
  | cons name rest ih =>
    cases e with
    | file contents => cases h
    | directory es =>
      rw [get?_cons] at h
      obtain ⟨child, hchild, hrest⟩ := Option.bind_eq_some_iff.1 h
      have hchild : es.lookup name = some child := hchild
      rw [put, hchild, Option.getD_some, ih hrest, setEntry_eq_self hchild]

end DiskEntry

end Marionette
