import Marionette.Proofs.Emission

/-!
# Cleanup stays below its directory

Before an emission ends it removes files of the list before it.  That list is a file like any other
and may have been edited, so an entry can be any text.  Whatever it says, a file that an emission
removes lies below the directory of the emission, and an entry names it that is no path of the new
list.

- `Disk.Keeps`: no file and no directory is gone; `Disk.keeps_write`: writing keeps what is there,
  also where it fails.
- `emitWrites`, `emit_eq`: the part of an emission before anything is removed.
- `Emit.Keeping`, `keeping_emitWrites`: this part keeps what is there, whether it succeeds or not.
- `placeOf_of_isRelativeInside`: where a path that may be removed leads.
- `removes_only_stale`: what an emission removes.
-/

namespace Marionette

/-! ### What writing keeps -/

namespace Disk

variable {d d' d'' : Disk} {base : List Step} {r : Route} {contents : String}

/-- A file stands at a place. -/
def HasFile (d : Disk) (p : List String) : Prop := ∃ contents, d.look? p = some (some contents)

/-- No file and no directory is gone, though files may have other contents. -/
structure Keeps (d d' : Disk) : Prop where
  /-- Files stay files. -/
  files : ∀ p, d.HasFile p → d'.HasFile p
  /-- Directories stay directories. -/
  directories : ∀ p, d.look? p = some none → d'.look? p = some none

/-- Nothing is gone where nothing happened. -/
theorem Keeps.refl (d : Disk) : Keeps d d := ⟨fun _ h => h, fun _ h => h⟩

/-- One thing after the other. -/
theorem Keeps.trans (h : Keeps d d') (h' : Keeps d' d'') : Keeps d d'' :=
  ⟨fun p hp => h'.files p (h.files p hp), fun p hp => h'.directories p (h.directories p hp)⟩

/-- A change of no files keeps all there is. -/
theorem Changes.keeps (h : Changes [] d d') : Keeps d d' :=
  ⟨fun p ⟨contents, hp⟩ => ⟨contents, (h.files p List.not_mem_nil contents).2 hp⟩, h.directories⟩

/-- Writing keeps what is there, whether it succeeds or not. -/
theorem keeps_write (hroot : d.look? [] = some none) : Keeps d (d.write base r contents).1 := by
  have hcreate : Keeps d (d.createDirectories base r).1 := by
    unfold createDirectories
    split
    · exact (changes_fst_createFrom hroot).keeps
    · exact .refl d
  cases hwrite : d.write base r contents with
  | mk d' written =>
    cases written with
    | true =>
      -- the file that is written stands at its place
      obtain ⟨hholds, hchanges⟩ := holds_write hroot hwrite
      refine ⟨fun p ⟨x, hp⟩ => ?_, hchanges.directories⟩
      by_cases hplace : p = placeOf base r
      · exact ⟨contents, hplace ▸ hholds.look⟩
      · exact ⟨x, (hchanges.files p (fun h => hplace (List.mem_singleton.1 h)) x).2 hp⟩
    | false =>
      -- nothing but directories has been added
      unfold write at hwrite
      split at hwrite
      · rename_i mid hmid
        cases hwrite
        rwa [hmid] at hcreate
      · rename_i mid hmid
        split at hwrite
        · cases hwrite
        · cases hwrite
          rwa [hmid] at hcreate

end Disk

/-! ### The two parts of an emission -/

variable {α β : Type} {dir : List Step} {config : Config} {pack : Datapack} {s : EmitState}

/-- What an emission does before it removes files: it reads the list that is there, writes the files
and the new list, and gives the list that was there. -/
def emitWrites (pack : Datapack) (dir : List Step) (config : Config) : Emit (Option Manifest) := do
  if (pack.get? config.manifestName).isSome then
    throw (.bake (.duplicateOutput config.manifestName))
  let previous ← liftM (orFail (readManifest (← get).disk dir config))
  modify fun s => { s with progress := .start (pack.size + 1) }
  emitFiles dir 0 pack.toList
  emitFile dir config.manifestName (manifestOf pack config).text
  report (pack.size + 1)
  return previous

/-- A disk without the files that are stale. -/
def Disk.withoutStale (d : Disk) (dir : List Step) (previous : Option Manifest)
    (m : Manifest) : Disk :=
  ((stalePaths previous m).map Route.ofText).foldl (fun d r => d.removeFile dir r) d

/-- Stale files are removed last, and only where everything has been written. -/
theorem emit_eq (pack : Datapack) (dir : List Step) (config : Config) :
    emit pack dir config = do
      let previous ← emitWrites pack dir config
      modify fun s => { s with disk := s.disk.withoutStale dir previous (manifestOf pack config) }
      return manifestOf pack config := by
  unfold emit emitWrites
  split
  · rfl
  · simp only [bind_assoc, pure_bind]
    rfl

namespace Emit

/-- The state after a step, whether it succeeds or not. -/
def after (x : Emit α) (s : EmitState) : EmitState := (x.run.run s).2

/-- A step keeps the files and directories that are there, whether it succeeds or not. -/
def Keeping (x : Emit α) : Prop :=
  ∀ s : EmitState, s.disk.look? [] = some none → s.disk.Keeps (x.after s).disk

/-- A step that leaves the disk as it is keeps what is there. -/
theorem keeping_of_disk_eq {x : Emit α} (h : ∀ s, (x.after s).disk = s.disk) : Keeping x := by
  intro s _
  rw [h]
  exact .refl _

/-- Steps that keep what is there, one after the other; after a failure nothing more is done. -/
theorem Keeping.bind {x : Emit α} {f : α → Emit β} (hx : Keeping x) (hf : ∀ a, Keeping (f a)) :
    Keeping (x >>= f) := by
  intro s hroot
  have hfirst := hx s hroot
  unfold after at hfirst ⊢
  rw [ExceptT.run_bind, StateT.run_bind]
  obtain ⟨r, mid, hmid⟩ : ∃ r mid, x.run.run s = (r, mid) := ⟨_, _, rfl⟩
  rw [hmid] at hfirst ⊢
  cases r with
  | ok a => exact hfirst.trans (hf a mid (hfirst.directories _ hroot))
  | error e => exact hfirst

theorem keeping_pure (a : α) : Keeping (pure a) := keeping_of_disk_eq fun _ => rfl

theorem keeping_throw (e : Failure) : Keeping (throw e : Emit α) := keeping_of_disk_eq fun _ => rfl

/-- A result that is there already changes nothing. -/
theorem keeping_liftM (x : Except Failure α) : Keeping (liftM x : Emit α) :=
  keeping_of_disk_eq fun _ => rfl

theorem keeping_report (n : Nat) : Keeping (report n) := keeping_of_disk_eq fun _ => rfl

theorem after_get_bind (f : EmitState → Emit α) (s : EmitState) :
    after (get >>= f) s = after (f s) s := rfl

/-- Writing a file of the pack changes the disk as a write does. -/
theorem disk_after_emitFile (path contents : String) (s : EmitState) :
    ((emitFile dir path contents).after s).disk = (s.disk.write dir (.ofText path) contents).1 := by
  unfold emitFile
  rw [after_get_bind]
  generalize s.disk.write dir (.ofText path) contents = wrote
  obtain ⟨disk, written⟩ := wrote
  cases written <;> rfl

/-- So it keeps what is there. -/
theorem keeping_emitFile (path contents : String) : Keeping (emitFile dir path contents) := by
  intro s hroot
  rw [disk_after_emitFile]
  exact Disk.keeps_write hroot

/-- And so do all files of the pack. -/
theorem keeping_emitFiles (files : List (String × PackFile)) (done : Nat) :
    Keeping (emitFiles dir done files) := by
  induction files generalizing done with
  | nil => exact keeping_pure ()
  | cons f files ih =>
    obtain ⟨path, file⟩ := f
    exact (keeping_liftM _).bind fun contents => (keeping_emitFile path contents).bind fun _ =>
      (keeping_report _).bind fun _ => ih _

/-- Nothing is gone before stale files are removed, whether everything is written or not. -/
theorem keeping_emitWrites : Keeping (emitWrites pack dir config) := by
  have hwrites : Keeping (do
      let previous ← liftM (orFail (readManifest (← get).disk dir config))
      modify fun s => { s with progress := .start (pack.size + 1) }
      emitFiles dir 0 pack.toList
      emitFile dir config.manifestName (manifestOf pack config).text
      report (pack.size + 1)
      return previous : Emit (Option Manifest)) := by
    refine Keeping.bind (keeping_of_disk_eq fun _ => rfl) fun t => ?_
    refine (keeping_liftM _).bind fun previous => ?_
    refine Keeping.bind (keeping_of_disk_eq fun _ => rfl) fun _ => ?_
    refine (keeping_emitFiles _ _).bind fun _ => ?_
    exact (keeping_emitFile _ _).bind fun _ => (keeping_report _).bind fun _ =>
      keeping_pure previous
  unfold emitWrites
  split
  · exact (keeping_throw _).bind fun _ => hwrites
  · exact hwrites

/-- The list that was there has been read from the disk as it was. -/
theorem readManifest_of_runs {previous : Option Manifest} {mid : EmitState}
    (h : Runs (emitWrites pack dir config) s previous mid) :
    readManifest s.disk dir config = .ok previous := by
  unfold emitWrites at h
  split at h
  · obtain ⟨_, _, hthrow, -⟩ := runs_bind.1 h
    exact absurd hthrow not_runs_throw
  · obtain ⟨t, start, ht, hsteps⟩ := runs_bind.1 h
    obtain ⟨rfl, rfl⟩ := runs_get.1 ht
    obtain ⟨found, start, hread, hwrites⟩ := runs_bind.1 hsteps
    obtain ⟨hfound, rfl⟩ := runs_liftM.1 hread
    obtain ⟨_, _, -, hfiles⟩ := runs_bind.1 hwrites
    obtain ⟨_, _, -, hlist⟩ := runs_bind.1 hfiles
    obtain ⟨_, _, -, hends⟩ := runs_bind.1 hlist
    obtain ⟨_, _, -, hresult⟩ := runs_bind.1 hends
    obtain ⟨rfl, -⟩ := runs_pure.1 hresult
    exact orFail_eq_ok.1 hfound

/-- Where everything has been written the stale files are removed. -/
theorem disk_after_emit {previous : Option Manifest} {mid : EmitState}
    (h : Runs (emitWrites pack dir config) s previous mid) :
    ((emit pack dir config).after s).disk =
      mid.disk.withoutStale dir previous (manifestOf pack config) := by
  unfold Runs at h
  unfold after
  rw [emit_eq, ExceptT.run_bind, StateT.run_bind, h]
  rfl

/-- Where something cannot be written nothing is removed. -/
theorem after_emit_of_error {e : Failure} {mid : EmitState}
    (h : (emitWrites pack dir config).run.run s = (.error e, mid)) :
    (emit pack dir config).after s = mid := by
  unfold after
  rw [emit_eq, ExceptT.run_bind, StateT.run_bind, h]
  rfl

end Emit

/-! ### What is removed -/

open Disk (goal placeOf)

/-- Removing a file adds nothing. -/
theorem Disk.look?_of_removeFile {d : Disk} {r : Route} {p : List String} {x : Option String}
    (hroot : d.look? [] = some none) (h : (d.removeFile dir r).look? p = some x) :
    d.look? p = some x := by
  cases hread : d.read? dir r with
  | none => rwa [removeFile_of_read? hread] at h
  | some contents =>
    rw [look?_removeFile hroot hread] at h
    split at h
    · cases h
    · exact h

/-- Nothing is there that was not there before files were removed. -/
theorem look?_of_removeFiles {rs : List Route} {d : Disk} {p : List String} {x : Option String}
    (hroot : d.look? [] = some none)
    (h : (rs.foldl (fun d r => d.removeFile dir r) d).look? p = some x) : d.look? p = some x := by
  induction rs generalizing d with
  | nil => exact h
  | cons r rs ih =>
    exact Disk.look?_of_removeFile hroot
      (ih ((Disk.changes_removeFile hroot).directories _ hroot) h)

/-- Steps down lead to the names one below the other. -/
theorem goal_map_down (p names : List String) : goal p (names.map .down) = p ++ names := by
  induction names generalizing p with
  | nil => exact (List.append_nil p).symm
  | cons name names ih =>
    rw [List.map_cons, goal, ih, List.append_assoc]
    rfl

/-- A path that may be removed leads down only, and at least one step. -/
theorem exists_names_of_isRelativeInside {path : String} (h : isRelativeInside path = true) :
    ∃ names, names ≠ [] ∧ (Route.ofText path).absolute = false ∧
      (Route.ofText path).steps = names.map .down := by
  unfold isRelativeInside at h
  dsimp only at h
  rw [Bool.and_eq_true, Bool.and_eq_true, Bool.not_eq_true', Option.any_eq_true,
    List.all_eq_true] at h
  obtain ⟨⟨habsolute, first, hfirst, hdot⟩, hnoUp⟩ := h
  have hmem := List.mem_of_head? hfirst
  obtain ⟨hpiece, hempty⟩ := List.mem_filter.1 hmem
  refine ⟨(pathPieces path).filter fun piece => !isIdlePiece piece, ?_, habsolute, ?_⟩
  · -- the first piece that is not empty is no single dot either
    refine List.ne_nil_of_mem (List.mem_filter.2 ⟨hpiece, ?_⟩)
    unfold isIdlePiece
    simpa using And.intro (bne_iff_ne.1 hempty) (bne_iff_ne.1 hdot)
  · refine List.map_congr_left fun piece hkept => if_neg fun hup => ?_
    obtain ⟨hthere, hidle⟩ := List.mem_filter.1 hkept
    refine bne_iff_ne.1 (hnoUp piece (List.mem_filter.2 ⟨hthere, ?_⟩)) hup
    rw [hup]
    decide

/-- Such a path leads to a place below the directory, wherever that is. -/
theorem placeOf_of_isRelativeInside {path : String} (h : isRelativeInside path = true)
    (dir : List Step) :
    ∃ names, names ≠ [] ∧ placeOf dir (.ofText path) = goal [] dir ++ names := by
  obtain ⟨names, hne, habsolute, hsteps⟩ := exists_names_of_isRelativeInside h
  refine ⟨names, hne, ?_⟩
  unfold placeOf Disk.stepsFrom
  rw [if_neg (by rw [habsolute]; decide), hsteps, Disk.goal_append, goal_map_down]

/-- What an emission leaves of the disk that it has written. -/
structure RemovesOnlyStale (dir : List Step) (config : Config) (pack : Datapack)
    (before written final : Disk) : Prop where
  /-- Before files are removed nothing is gone. -/
  keeps : before.Keeps written
  /-- Afterwards nothing is there that was not there before. -/
  adds_nothing : ∀ p x, final.look? p = some x → written.look? p = some x
  /-- No directory is removed. -/
  directories : ∀ p, written.look? p = some none → final.look? p = some none
  /-- A file that is removed lies below the directory. -/
  below : ∀ p, written.HasFile p → ¬ final.HasFile p → ∃ names, names ≠ [] ∧
    p = goal [] dir ++ names
  /-- The list that was there names it by a path that is not in the new list. -/
  named : ∀ p, written.HasFile p → ¬ final.HasFile p →
    ∃ previous, readManifest before dir config = .ok (some previous) ∧
      ∃ entry ∈ previous.files, entry ∉ (manifestOf pack config).files ∧
        placeOf dir (.ofText entry) = p

/-- A file that is gone without stale files was stale. -/
theorem exists_stale_of_removed {d : Disk} {previous : Option Manifest} {m : Manifest}
    (hroot : d.look? [] = some none) {p : List String} (hfile : d.HasFile p)
    (hgone : ¬ (d.withoutStale dir previous m).HasFile p) :
    ∃ path ∈ stalePaths previous m, placeOf dir (.ofText path) = p := by
  obtain ⟨contents, hlook⟩ := hfile
  obtain ⟨hchanges, -⟩ := removeFiles_spec dir ((stalePaths previous m).map Route.ofText) hroot
  by_contra hno
  refine hgone ⟨contents, (hchanges.files p (fun hp => hno ?_) contents).2 hlook⟩
  rw [List.map_map] at hp
  exact List.mem_map.1 hp

/-- Whatever the list of an earlier emission says, an emission removes only files below its
directory that an entry of this list names, and the new list does not have this entry.  This holds
for emissions that fail, too. -/
theorem removes_only_stale (hroot : s.disk.isDirectory [] = true) :
    RemovesOnlyStale dir config pack s.disk ((emitWrites pack dir config).after s).disk
      ((emit pack dir config).after s).disk := by
  -- files are removed only after everything was written
  have hroot := Disk.isDirectory_iff.1 hroot
  have hkeeps : s.disk.Keeps ((emitWrites pack dir config).after s).disk :=
    Emit.keeping_emitWrites s hroot
  obtain ⟨result, mid, hwrites⟩ : ∃ result mid, (emitWrites pack dir config).run.run s =
      (result, mid) :=
    ⟨_, _, rfl⟩
  have hafter : (emitWrites pack dir config).after s = mid := congrArg Prod.snd hwrites
  rw [hafter] at hkeeps ⊢
  cases result with
  | error e =>
    rw [Emit.after_emit_of_error hwrites]
    -- a failure before: nothing was removed
    exact ⟨hkeeps, fun _ _ h => h, fun _ h => h, fun p h hnot => absurd h hnot,
      fun p h hnot => absurd h hnot⟩
  | ok previous =>
    have hread := Emit.readManifest_of_runs hwrites
    have hrootmid := hkeeps.directories _ hroot
    rw [Emit.disk_after_emit hwrites]
    refine ⟨hkeeps, fun p x => look?_of_removeFiles hrootmid, ?_, ?_, ?_⟩
    · exact (removeFiles_spec dir _ hrootmid).1.directories
    -- a file that is gone was stale, and so it was listed and is inside of the directory
    · intro p hfile hgone
      obtain ⟨path, hpath, rfl⟩ := exists_stale_of_removed hrootmid hfile hgone
      exact placeOf_of_isRelativeInside (mem_stalePaths.1 hpath).2.2 dir
    · intro p hfile hgone
      obtain ⟨path, hpath, hplace⟩ := exists_stale_of_removed hrootmid hfile hgone
      obtain ⟨hlisted, hnew, -⟩ := mem_stalePaths.1 hpath
      cases previous with
      | none => cases hlisted
      | some m => exact ⟨m, hread, path, hlisted, hnew, hplace⟩

/-- A directory with a file of an earlier emission, beside a file that is none of it.  Someone has
added entries to the list that lead to the other file. -/
def EmitState.edited : EmitState :=
  ⟨⟨.directory [("keys", .file "secret"), ("out", .directory [("old", .file "x"),
    (({} : Config).manifestName,
      .file "\x7b\"files\": [\"../keys\", \"/keys\", \"old\", \"sub/../../keys\", \"\"]\x7d")])]⟩,
        {}⟩

/-- The file of the earlier emission is removed, the other one is not. -/
theorem removes_only_stale_edited :
    RemovesOnlyStale [.down "out"] {} (.ofText "new" "y") EmitState.edited.disk
        ((emitWrites (.ofText "new" "y") [.down "out"] {}).after .edited).disk
        ((emit (.ofText "new" "y") [.down "out"] {}).after .edited).disk ∧
      EmitState.edited.disk.read? [] (.ofText "out/old") = some "x" ∧
      ((emit (.ofText "new" "y") [.down "out"] {}).after .edited).disk.read? []
      (.ofText "out/old") =
        none ∧
      ((emit (.ofText "new" "y") [.down "out"] {}).after .edited).disk.read? [] (.ofText "keys") =
        some "secret" :=
  ⟨removes_only_stale (by decide +kernel), by decide +kernel, by decide +kernel, by decide +kernel⟩

end Marionette
