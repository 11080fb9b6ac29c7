import Marionette.Proofs.Disk.Places

/-!
# Writing and removing files

Without links the place that a path names can be told from its steps alone.

- `Disk.goal`, `Disk.placeOf`: the place that steps lead to, and the place that a path names.
- `Disk.Holds`: a path leads to a file with some contents, so it can be read and written again.
- `Disk.Changes`: what may differ between two file systems: files at some places, and new
  directories.
- `Disk.changes_write`, `Disk.holds_write`: writing a file.
- `Disk.Holds.write_eq`: writing what stands there changes nothing.
- `Disk.changes_removeFile`, `Disk.read?_removeFile`: removing a file.
-/

namespace Marionette

namespace Disk

variable {d d' d'' : Disk} {base : List Step} {r r' : Route} {contents contents' : String}
  {p q : List String} {ps qs : List (List String)}

/-- What stands at a place below the root: a file has contents and a directory has none. -/
def look? (d : Disk) (place : List String) : Option (Option String) :=
  d.root.look? place

/-- A directory is seen as one. -/
theorem isDirectory_iff : d.isDirectory p = true ↔ d.look? p = some none := by
  unfold isDirectory look? DiskEntry.look? get?
  cases h : d.root.get? p with
  | none => simp
  | some e =>
    cases e with
    | file contents => simp [DiskEntry.isDirectory, DiskEntry.contents?]
    | directory es => simp [DiskEntry.isDirectory, DiskEntry.contents?]

/-- A file is seen with its contents. -/
theorem get?_eq_file_iff : d.get? p = some (.file contents) ↔ d.look? p = some (some contents) := by
  unfold look? DiskEntry.look? get?
  cases h : d.root.get? p with
  | none => simp
  | some e =>
    cases e with
    | file contents' => simp [DiskEntry.contents?]
    | directory es => simp [DiskEntry.contents?]

/-! ### Steps -/

/-- The place that steps lead to, wherever they pass. -/
def goal : List String → List Step → List String
  | p, [] => p
  | p, .up :: steps => goal p.dropLast steps
  | p, .down name :: steps => goal (p ++ [name]) steps

/-- Steps lead on from where others have led. -/
theorem goal_append (p : List String) (steps rest : List Step) :
    goal p (steps ++ rest) = goal (goal p steps) rest := by
  induction steps generalizing p with
  | nil => rfl
  | cons step steps ih => cases step <;> exact ih _

/-- The place that a path names below a directory. -/
def placeOf (base : List Step) (r : Route) : List String :=
  goal [] (stepsFrom base r)

/-- Steps that can be walked lead to their goal. -/
theorem goal_of_walk? {steps : List Step} (h : d.walk? p steps = some q) : q = goal p steps := by
  induction steps generalizing p with
  | nil => exact (Option.some.inj h).symm
  | cons step steps ih =>
    cases step with
    | up => exact ih h
    | down name =>
      rw [walk?] at h
      split at h
      · exact ih h
      · cases h

/-- Steps can still be walked where directories have been added. -/
theorem walk?_mono (hdirs : ∀ q, d.look? q = some none → d'.look? q = some none) {steps : List Step}
    (h : d.walk? p steps = some q) : d'.walk? p steps = some q := by
  induction steps generalizing p with
  | nil => exact h
  | cons step steps ih =>
    cases step with
    | up => exact ih h
    | down name =>
      rw [walk?] at h ⊢
      split at h
      · rename_i hdir
        rw [if_pos (isDirectory_iff.2 (hdirs _ (isDirectory_iff.1 hdir)))]
        exact ih h
      · cases h

/-! ### What changes -/

/-- Two file systems hold the same files but for some places, and directories are only added. -/
structure Changes (ps : List (List String)) (d d' : Disk) : Prop where
  /-- Files elsewhere are the same. -/
  files : ∀ p, p ∉ ps → ∀ contents, d'.look? p = some (some contents) ↔
    d.look? p = some (some contents)
  /-- Directories stay. -/
  directories : ∀ p, d.look? p = some none → d'.look? p = some none

namespace Changes

/-- No change at all. -/
theorem refl (d : Disk) : Changes ps d d :=
  ⟨fun _ _ _ => Iff.rfl, fun _ h => h⟩

/-- Changes one after the other. -/
theorem trans (h : Changes ps d d') (h' : Changes ps d' d'') : Changes ps d d'' :=
  ⟨fun p hp contents => (h'.files p hp contents).trans (h.files p hp contents),
    fun p hp => h'.directories p (h.directories p hp)⟩

/-- More places may be named. -/
theorem mono (h : Changes ps d d') (hsub : ∀ p ∈ ps, p ∈ qs) : Changes qs d d' :=
  ⟨fun p hp => h.files p fun hps => hp (hsub p hps), h.directories⟩

end Changes

/-- Something new at a place changes nothing elsewhere. -/
theorem look?_put (name : String) (new : DiskEntry) (hparent : d.look? p = some none)
    (hfree : d.look? (p ++ [name]) ≠ some none) (hnew : ∀ q, q ≠ [] → new.look? q = none)
    (q : List String) : (d.put (p ++ [name]) new).look? q =
      if q = p ++ [name] then some new.contents? else d.look? q := by
  refine DiskEntry.look?_put (fun _ => ?_) (fun q hq => ?_) hnew q
  · rw [List.dropLast_concat]
    exact hparent
  · exact DiskEntry.look?_append_eq_none hq hfree

/-- What lies above a directory is one as well. -/
theorem look?_dropLast (h : d.look? p = some none) : d.look? p.dropLast = some none := by
  by_cases hp : p = []
  · rw [hp] at h ⊢
    exact h
  · exact DiskEntry.look?_dropLast hp h

/-- A step down passes on to a directory that is there or new, or goes no further. -/
theorem createFrom_down (name : String) (steps : List Step) (hp : d.look? p = some none) :
    (∃ mid, Changes [] d mid ∧ mid.look? (p ++ [name]) = some none ∧
        d.createFrom p (.down name :: steps) = mid.createFrom (p ++ [name]) steps) ∨
      d.createFrom p (.down name :: steps) = (d, false) := by
  rw [createFrom]
  -- a directory, a file in the way, or nothing at the place
  split
  · rename_i es hes
    refine .inl ⟨d, .refl d, ?_, rfl⟩
    exact isDirectory_iff.1 (by rw [isDirectory, hes]; rfl)
  · exact .inr rfl
  · rename_i hnone
    have hfree : d.look? (p ++ [name]) = none := congrArg (Option.map DiskEntry.contents?) hnone
    split
    · have hput := look?_put name (.directory []) hp (by rw [hfree]; simp) (fun q hq => by
        obtain ⟨n, q, rfl⟩ := List.exists_cons_of_ne_nil hq
        rfl)
      -- a new directory hides nothing, as nothing was at its place
      refine .inl ⟨_, ⟨fun q _ contents => ?_, fun q hq => ?_⟩, ?_, rfl⟩
      · rw [hput]
        by_cases hq : q = p ++ [name]
        · rw [if_pos hq, hq, hfree]
          simp [DiskEntry.contents?]
        · rw [if_neg hq]
      · rw [hput]
        by_cases hplace : q = p ++ [name]
        · rw [if_pos hplace]
          rfl
        · rwa [if_neg hplace]
      · rw [hput, if_pos rfl]
        rfl
    · exact .inr rfl

/-- Creating missing directories leaves all files as they are, however far it gets. -/
theorem changes_fst_createFrom {steps : List Step} (hp : d.look? p = some none) :
    Changes [] d (d.createFrom p steps).1 := by
  induction steps generalizing d p with
  | nil => exact .refl d
  | cons step steps ih =>
    cases step with
    | up => exact ih (look?_dropLast hp)
    | down name =>
      obtain ⟨mid, hmid, hnext, hrest⟩ | hstop := createFrom_down name steps hp
      · rw [hrest]
        exact hmid.trans (ih hnext)
      · rw [hstop]
        exact .refl d

/-- Creating missing directories makes steps walkable and leaves all files as they are. -/
theorem changes_createFrom {steps : List Step} (hp : d.look? p = some none)
    (h : d.createFrom p steps = (d', true)) :
    Changes [] d d' ∧ d'.walk? p steps = some (goal p steps) ∧
    d'.look? (goal p steps) = some none := by
  induction steps generalizing d p with
  | nil =>
    cases h
    exact ⟨.refl _, rfl, hp⟩
  | cons step steps ih =>
    cases step with
    | up => exact ih (look?_dropLast hp) h
    | down name =>
      obtain ⟨mid, hmid, hnext, hrest⟩ | hstop := createFrom_down name steps hp
      · rw [hrest] at h
        obtain ⟨hchanges, hwalk, hgoal⟩ := ih hnext h
        refine ⟨hmid.trans hchanges, ?_, hgoal⟩
        rw [walk?, if_pos (isDirectory_iff.2 (hchanges.directories _ hnext))]
        exact hwalk
      · rw [hstop] at h
        cases h

/-- Where steps can be walked there is no directory to be created. -/
theorem createFrom_eq_self {steps : List Step} (h : d.walk? p steps = some q) :
    d.createFrom p steps = (d, true) := by
  induction steps generalizing p with
  | nil => rfl
  | cons step steps ih =>
    cases step with
    | up => exact ih h
    | down name =>
      rw [walk?] at h
      split at h
      · rename_i hdir
        -- the walk goes through directories, and each of them is found where it should be
        rw [createFrom]
        obtain ⟨es, hes⟩ : ∃ es, d.get? (p ++ [name]) = some (.directory es) := by
          unfold isDirectory at hdir
          cases hget : d.get? (p ++ [name]) with
          | none =>
            rw [hget] at hdir
            cases hdir
          | some e =>
            cases e with
            | directory es => exact ⟨es, rfl⟩
            | file contents =>
              rw [hget] at hdir
              cases hdir
        rw [hes]
        exact ih h
      · cases h

/-! ### Files that are there -/

/-- A path leads through directories to a file with some contents, and it can be written again. -/
structure Holds (d : Disk) (base : List Step) (r : Route) (contents : String) : Prop where
  /-- The path can be asked for. -/
  isPath : isPath base r r.text = true
  /-- So can that of the directory above. -/
  isPathAbove : Disk.isPath base r r.above = true
  /-- The path can name a file. -/
  isFilePath : r.directoryOnly = false
  /-- It ends with a name. -/
  exists_name : ∃ name, (stepsFrom base r).getLast? = some (.down name) ∧ isEntryName name = true
  /-- On the way there are directories. -/
  walk : d.walk? [] (stepsFrom base r).dropLast = some (goal [] (stepsFrom base r).dropLast)
  /-- At the end stands the file. -/
  look : d.look? (placeOf base r) = some (some contents)

/-- The place of a path that ends with a name. -/
theorem placeOf_eq {name : String} (h : (stepsFrom base r).getLast? = some (.down name)) :
    placeOf base r = goal [] (stepsFrom base r).dropLast ++ [name] := by
  obtain ⟨steps, hsteps⟩ := List.getLast?_eq_some_iff.1 h
  unfold placeOf
  rw [hsteps, goal_append, List.dropLast_concat]
  rfl

/-- Where a path leads if it can be walked. -/
theorem resolve?_eq {name : String} (hpath : isPath base r r.text = true)
    (h : (stepsFrom base r).getLast? = some (.down name))
    (hwalk : d.walk? [] (stepsFrom base r).dropLast = some (goal [] (stepsFrom base r).dropLast)) :
    d.resolve? base r = some (placeOf base r) := by
  unfold resolve?
  rw [hpath]
  dsimp only
  rw [h, if_neg (by decide)]
  dsimp only
  rw [hwalk, placeOf_eq h]
  rfl

namespace Holds

/-- A file that is held is found at its place. -/
theorem resolve?_eq (h : Holds d base r contents) : d.resolve? base r = some (placeOf base r) := by
  obtain ⟨name, hname, -⟩ := h.exists_name
  exact Disk.resolve?_eq h.isPath hname h.walk

/-- It stands there. -/
theorem get?_eq (h : Holds d base r contents) : d.get? (placeOf base r) = some (.file contents) :=
  get?_eq_file_iff.2 h.look

/-- Its path leads to it. -/
theorem find?_eq (h : Holds d base r contents) : d.find? base r = some (.file contents) := by
  unfold find?
  rw [h.resolve?_eq, Option.bind_eq_bind, Option.bind_some, h.get?_eq, Option.bind_eq_bind,
    Option.bind_some, h.isFilePath]
  rfl

/-- And it can be read. -/
theorem read?_eq (h : Holds d base r contents) : d.read? base r = some contents := by
  unfold read?
  rw [h.find?_eq]

/-- A file stays where other files are changed. -/
theorem changes (h : Holds d base r contents) (hchanges : Changes ps d d')
    (hplace : placeOf base r ∉ ps) : Holds d' base r contents :=
  { h with
    walk := walk?_mono hchanges.directories h.walk
    look := (hchanges.files _ hplace contents).2 h.look }

/-- Writing what stands there changes nothing. -/
theorem write_eq (h : Holds d base r contents) : d.write base r contents = (d, true) := by
  obtain ⟨name, hname, hentry⟩ := h.exists_name
  have hcreate : d.createDirectories base r = (d, true) := by
    unfold createDirectories
    rw [if_pos h.isPathAbove]
    exact createFrom_eq_self h.walk
  have hnodir : d.isDirectory (placeOf base r) = false := by
    rw [isDirectory, h.get?_eq]
    rfl
  have hput : d.put (placeOf base r) (.file contents) = d := by
    unfold put
    rw [DiskEntry.put_eq_self h.get?_eq]
  unfold write writeFile?
  rw [hcreate, hname]
  dsimp only
  rw [h.resolve?_eq, Option.bind_eq_bind, Option.bind_some, h.isFilePath, hnodir, hentry, hput]
  rfl

end Holds

/-! ### Writing and removing -/

/-- A file that is written to a directory stands at its place, and no other file has changed. -/
theorem holds_writeFile?
    (hwalk : d.walk? [] (stepsFrom base r).dropLast = some (goal [] (stepsFrom base r).dropLast))
    (hdir : d.look? (goal [] (stepsFrom base r).dropLast) = some none)
    (habove : isPath base r r.above = true) (h : d.writeFile? base r contents = some d') :
    Holds d' base r contents ∧ Changes [placeOf base r] d d' := by
  unfold writeFile? at h
  split at h
  · rename_i name hname
    obtain ⟨place, hplace, h⟩ := Option.bind_eq_some_iff.1 h
    -- the path is one that the system can walk, as otherwise it is not resolved
    have hpath : isPath base r r.text = true := by
      by_contra hno
      rw [Bool.not_eq_true] at hno
      unfold resolve? at hplace
      rw [hno] at hplace
      cases hplace
    obtain rfl : placeOf base r = place :=
      Option.some.inj ((resolve?_eq hpath hname hwalk).symm.trans hplace)
    split at h
    · cases h
    · rename_i hfree
      cases h
      rw [Bool.or_eq_true, Bool.or_eq_true, not_or, not_or] at hfree
      obtain ⟨⟨hfile, hnodir⟩, hentry⟩ := hfree
      have hput := look?_put name (.file contents) hdir (by
        rw [← placeOf_eq hname]
        exact fun h => hnodir (isDirectory_iff.2 h)) (fun q hq => by
          obtain ⟨n, q, rfl⟩ := List.exists_cons_of_ne_nil hq
          rfl)
      -- the file itself is the only place that changes
      rw [← placeOf_eq hname] at hput
      have hchanges : Changes [placeOf base r] d (d.put (placeOf base r) (.file contents)) := by
        refine ⟨fun p hp x => ?_, fun p hp => ?_⟩
        · rw [hput, if_neg fun h => hp (List.mem_singleton.2 h)]
        · rw [hput, if_neg ?_]
          · exact hp
          · rintro rfl
            exact hnodir (isDirectory_iff.2 hp)
      refine ⟨⟨hpath, habove, by simpa using hfile, ⟨name, hname, ?_⟩, ?_, ?_⟩, hchanges⟩
      · simpa using hentry
      · exact walk?_mono hchanges.directories hwalk
      · rw [hput, if_pos rfl]
        rfl
  · cases h

/-- A file that is written stands at its place, and no other file has changed. -/
theorem holds_write (hroot : d.look? [] = some none) (h : d.write base r contents = (d', true)) :
    Holds d' base r contents ∧ Changes [placeOf base r] d d' := by
  unfold write at h
  split at h
  · cases h
  · rename_i mid hcreate
    unfold createDirectories at hcreate
    split at hcreate
    · rename_i habove
      obtain ⟨hchanges, hwalk, hdir⟩ := changes_createFrom hroot hcreate
      split at h
      · rename_i hwrite
        cases h
        obtain ⟨hholds, hfile⟩ := holds_writeFile? hwalk hdir habove hwrite
        exact ⟨hholds, (hchanges.mono fun p hp => absurd hp List.not_mem_nil).trans hfile⟩
      · cases h
    · cases hcreate

/-- A path that can be walked leads to its place. -/
theorem placeOf_of_resolve? (h : d.resolve? base r = some p) : p = placeOf base r := by
  unfold resolve? at h
  split at h
  · cases h
  · dsimp only at h
    split at h
    · rename_i name hname
      obtain ⟨above, hwalk, rfl⟩ := Option.map_eq_some_iff.1 h
      rw [goal_of_walk? hwalk, placeOf_eq hname]
    · exact goal_of_walk? h

/-- A path leads to the same place where directories have been added. -/
theorem resolve?_mono (hdirs : ∀ q, d.look? q = some none → d'.look? q = some none)
    (h : d.resolve? base r = some p) : d'.resolve? base r = some p := by
  unfold resolve? at h ⊢
  split at h
  · cases h
  · rename_i hpath
    rw [if_neg hpath]
    dsimp only at h ⊢
    split at h
    · obtain ⟨above, hwalk, rfl⟩ := Option.map_eq_some_iff.1 h
      rw [walk?_mono hdirs hwalk]
      rfl
    · exact walk?_mono hdirs h

/-- A file can be read if its path leads to it. -/
theorem read?_eq_some_iff : d.read? base r = some contents ↔
    d.resolve? base r = some (placeOf base r) ∧ d.look? (placeOf base r) = some (some contents) ∧
      r.directoryOnly = false := by
  constructor
  · intro h
    unfold read? at h
    split at h
    · rename_i found hfind
      cases h
      obtain ⟨place, hplace, hrest⟩ := Option.bind_eq_some_iff.1 hfind
      obtain rfl := placeOf_of_resolve? hplace
      obtain ⟨e, he, hentry⟩ := Option.bind_eq_some_iff.1 hrest
      split at hentry
      · cases hentry
      · rename_i hfile
        cases hentry
        refine ⟨hplace, get?_eq_file_iff.1 he, ?_⟩
        simpa [DiskEntry.isDirectory] using hfile
    · cases h
  · rintro ⟨hplace, hlook, hfile⟩
    unfold read? find?
    rw [hplace, Option.bind_eq_bind, Option.bind_some, get?_eq_file_iff.2 hlook,
      Option.bind_eq_bind, Option.bind_some, hfile]
    rfl

/-- Removing a file empties its place. -/
theorem look?_removeFile (hroot : d.look? [] = some none) (h : d.read? base r = some contents)
    (q : List String) :
    (d.removeFile base r).look? q = if q = placeOf base r then none else d.look? q := by
  obtain ⟨hplace, hlook, -⟩ := read?_eq_some_iff.1 h
  unfold removeFile
  rw [h, hplace]
  refine DiskEntry.look?_erase ?_ hlook q
  intro hnil
  rw [hnil, hroot] at hlook
  cases hlook

/-- A path without a file removes nothing. -/
theorem removeFile_of_read? (h : d.read? base r = none) : d.removeFile base r = d := by
  unfold removeFile
  rw [h]

/-- Only the file that is removed changes. -/
theorem changes_removeFile (hroot : d.look? [] = some none) :
    Changes [placeOf base r] d (d.removeFile base r) := by
  cases h : d.read? base r with
  | none =>
    rw [removeFile_of_read? h]
    exact .refl d
  | some contents =>
    have hlook := look?_removeFile hroot h
    refine ⟨fun p hp x => ?_, fun p hp => ?_⟩
    · rw [hlook, if_neg fun h => hp (List.mem_singleton.2 h)]
    · rw [hlook, if_neg ?_]
      · exact hp
      · rintro rfl
        rw [(read?_eq_some_iff.1 h).2.1] at hp
        cases hp

/-- Removing files adds nothing: a file that can be read afterwards could be read before. -/
theorem read?_of_removeFile (hroot : d.look? [] = some none)
    (h : (d.removeFile base r).read? base r' = some contents) :
    d.read? base r' = some contents := by
  cases hread : d.read? base r with
  | none => rwa [removeFile_of_read? hread] at h
  | some x =>
    have hlook := look?_removeFile hroot hread
    have hback (q : List String) (y : Option String) (hq : (d.removeFile base r).look? q = some y) :
        d.look? q = some y := by
      rw [hlook] at hq
      split at hq
      · cases hq
      · exact hq
    rw [read?_eq_some_iff] at h ⊢
    exact ⟨resolve?_mono (fun q => hback q none) h.1, hback _ _ h.2.1, h.2.2⟩

/-- A file that has been removed cannot be read. -/
theorem read?_removeFile (hroot : d.look? [] = some none) :
    (d.removeFile base r).read? base r = none := by
  cases hread : d.read? base r with
  | none => rwa [removeFile_of_read? hread]
  | some x =>
    rw [Option.eq_none_iff_forall_ne_some]
    intro contents h
    have hlook := (read?_eq_some_iff.1 h).2.1
    rw [look?_removeFile hroot hread, if_pos rfl] at hlook
    cases hlook

end Disk

end Marionette
