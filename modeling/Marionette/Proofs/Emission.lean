import Marionette.Proofs.Datapack
import Marionette.Proofs.Disk.Files
import Marionette.Proofs.Manifest

/-!
# What emissions leave

Emissions into one directory follow each other.  Each one leaves the files of its pack and the list
of them, and of the files that the list before it names only those that it writes itself.  Files are
looked for by their places, but the lists are compared as texts, so a path must not be spelled in
two ways in a list and the next one.

- `Emit.Runs`: a step of an emission succeeds.
- `emitFiles_spec`, `runs_emitFiles`: writing files, and writing them again.
- `SpelledAlike`: paths to the same file are spelled alike.
- `Replaces`: what an emission leaves.
- `leaves_of_emit`: one emission; `Emissions.leaves_of_runs`: one that follows others.
-/

namespace Marionette

open Disk (Holds Changes placeOf)

/-! ### Steps that succeed -/

/-- A step succeeds from a state: it gives a result and leaves another state. -/
def Emit.Runs {α : Type} (x : Emit α) (s : EmitState) (a : α) (s' : EmitState) : Prop :=
  x.run.run s = (.ok a, s')

namespace Emit

variable {α β : Type} {s s' : EmitState}

theorem runs_pure {a b : α} : Runs (pure a : Emit α) s b s' ↔ b = a ∧ s' = s := by
  unfold Runs
  show (Except.ok a, s) = (Except.ok b, s') ↔ _
  rw [Prod.mk.injEq, Except.ok.injEq, eq_comm, eq_comm (a := s)]

theorem runs_bind {x : Emit α} {f : α → Emit β} {b : β} :
    Runs (x >>= f) s b s' ↔ ∃ a mid, Runs x s a mid ∧ Runs (f a) mid b s' := by
  unfold Runs
  rw [ExceptT.run_bind, StateT.run_bind]
  obtain ⟨r, mid, hx⟩ : ∃ r mid, x.run.run s = (r, mid) := ⟨_, _, rfl⟩
  rw [hx]
  cases r with
  | ok a =>
    constructor
    · intro h
      exact ⟨a, mid, rfl, h⟩
    · rintro ⟨a', mid', heq, h⟩
      cases heq
      exact h
  | error e =>
    constructor
    · intro h
      cases h
    · rintro ⟨a, mid', heq, -⟩
      cases heq

theorem runs_get {t : EmitState} : Runs (get : Emit EmitState) s t s' ↔ t = s ∧ s' = s := by
  unfold Runs
  show (Except.ok s, s) = (Except.ok t, s') ↔ _
  rw [Prod.mk.injEq, Except.ok.injEq, eq_comm, eq_comm (a := s)]

theorem runs_set {t : EmitState} {u : PUnit} : Runs (set t : Emit PUnit) s u s' ↔ s' = t := by
  unfold Runs
  show (Except.ok PUnit.unit, t) = (Except.ok u, s') ↔ _
  rw [Prod.mk.injEq, eq_comm (a := t)]
  exact ⟨fun h => h.2, fun h => ⟨rfl, h⟩⟩

theorem runs_modify {f : EmitState → EmitState} {u : PUnit} :
    Runs (modify f : Emit PUnit) s u s' ↔ s' = f s := by
  unfold Runs
  show (Except.ok PUnit.unit, f s) = (Except.ok u, s') ↔ _
  rw [Prod.mk.injEq, eq_comm (a := f s)]
  exact ⟨fun h => h.2, fun h => ⟨rfl, h⟩⟩

theorem runs_liftM {x : Except Failure α} {a : α} :
    Runs (liftM x : Emit α) s a s' ↔ x = .ok a ∧ s' = s := by
  unfold Runs
  show (x, s) = (Except.ok a, s') ↔ _
  rw [Prod.mk.injEq, eq_comm (a := s)]

/-- A step that gives a result succeeds. -/
theorem runs_of_toOption {x : Emit α} {a : α} (h : (x.run.run s).1.toOption = some a) :
    Runs x s a (x.run.run s).2 := by
  unfold Runs
  cases hx : (x.run.run s).1 with
  | ok b =>
    rw [hx] at h
    cases h
    rw [← hx]
    rfl
  | error e =>
    rw [hx] at h
    cases h

theorem not_runs_throw {e : Failure} {a : α} : ¬ Runs (throw e : Emit α) s a s' := by
  unfold Runs
  intro h
  cases h

end Emit

open Emit

variable {dir : List Step} {config : Config} {pack : Datapack} {s s' : EmitState} {m : Manifest}

/-- Writing a file succeeds if the file system takes it, and nothing else changes. -/
theorem runs_emitFile {path contents : String} {u : Unit} :
    Runs (emitFile dir path contents) s u s' ↔
      ∃ disk, s.disk.write dir (.ofText path) contents = (disk, true) ∧
      s' = { s with disk := disk } := by
  unfold emitFile
  rw [runs_bind]
  cases hwrite : s.disk.write dir (.ofText path) contents with
  | mk disk written =>
    constructor
    · rintro ⟨t, mid, hget, h⟩
      obtain ⟨rfl, rfl⟩ := runs_get.1 hget
      rw [hwrite] at h
      obtain ⟨_, mid', hset, h⟩ := runs_bind.1 h
      rw [runs_set.1 hset] at h
      cases written with
      | true =>
        obtain ⟨-, rfl⟩ := runs_pure.1 h
        exact ⟨disk, rfl, rfl⟩
      | false => exact absurd h not_runs_throw
    · rintro ⟨disk', heq, rfl⟩
      cases heq
      refine ⟨s, s, runs_get.2 ⟨rfl, rfl⟩, ?_⟩
      rw [hwrite]
      exact runs_bind.2 ⟨⟨⟩, _, runs_set.2 rfl, runs_pure.2 ⟨rfl, rfl⟩⟩

/-- Reporting changes the progress only. -/
theorem runs_report {n : Nat} {u : Unit} :
    Runs (report n) s u s' ↔ s' = { s with progress := s.progress.advance n } :=
  runs_modify

/-- One file after the other: its contents are written, and the number of files done is reported. -/
theorem runs_emitFiles_cons {done : Nat} {path : String} {file : PackFile}
    {rest : List (String × PackFile)} {u : Unit} :
    Runs (emitFiles dir done ((path, file) :: rest)) s u s' ↔
      ∃ contents disk, file.contents = .ok contents ∧
        s.disk.write dir (.ofText path) contents = (disk, true) ∧
        Runs (emitFiles dir (done + 1) rest) ⟨disk, s.progress.advance (done + 1)⟩ u s' := by
  rw [emitFiles, runs_bind]
  constructor
  · rintro ⟨contents, mid, hlift, h⟩
    obtain ⟨hcontents, rfl⟩ := runs_liftM.1 hlift
    obtain ⟨_, mid, hfile, h⟩ := runs_bind.1 h
    obtain ⟨disk, hwrite, rfl⟩ := runs_emitFile.1 hfile
    obtain ⟨_, mid, hreport, h⟩ := runs_bind.1 h
    rw [runs_report.1 hreport] at h
    exact ⟨contents, disk, orUnwritable_eq_ok.1 hcontents, hwrite, h⟩
  · rintro ⟨contents, disk, hcontents, hwrite, h⟩
    refine ⟨contents, s, runs_liftM.2 ⟨orUnwritable_eq_ok.2 hcontents, rfl⟩, ?_⟩
    refine runs_bind.2 ⟨(), _, runs_emitFile.2 ⟨disk, hwrite, rfl⟩, ?_⟩
    exact runs_bind.2 ⟨(), _, runs_report.2 rfl, h⟩

/-- The steps of an emission: the list that is there is read, the files and the new list are
written, and files that only the list before it names are removed. -/
theorem runs_emit :
    Runs (emit pack dir config) s m s' ↔
      pack.get? config.manifestName = none ∧ m = manifestOf pack config ∧
      ∃ previous mid disk, readManifest s.disk dir config = .ok previous ∧
        Runs (emitFiles dir 0 pack.toList) ⟨s.disk, .start (pack.size + 1)⟩ () mid ∧
        mid.disk.write dir (.ofText config.manifestName) m.text = (disk, true) ∧
        s' = ⟨((stalePaths previous m).map Route.ofText).foldl (fun d r => d.removeFile dir r) disk,
          mid.progress.advance (pack.size + 1)⟩ := by
  unfold emit
  dsimp only
  cases hget : pack.get? config.manifestName with
  | some file =>
    rw [if_pos (by rfl)]
    constructor
    -- a pack with a file at the path of the list is refused
    · intro h
      obtain ⟨_, _, hthrow, -⟩ := runs_bind.1 h
      exact absurd hthrow not_runs_throw
    · rintro ⟨h, -⟩
      cases h
  | none =>
    rw [if_neg (by decide)]
    constructor
    · intro h
      -- step by step: the list of before, the start, the files, the new list, the report, the
      -- removal
      obtain ⟨t, start, ht, hread⟩ := runs_bind.1 h
      obtain ⟨rfl, rfl⟩ := runs_get.1 ht
      obtain ⟨previous, start, hlift, hsteps⟩ := runs_bind.1 hread
      obtain ⟨hprevious, rfl⟩ := runs_liftM.1 hlift
      obtain ⟨_, start, hstart, hwrites⟩ := runs_bind.1 hsteps
      rw [runs_modify.1 hstart] at hwrites
      obtain ⟨_, mid, hfiles, hlist⟩ := runs_bind.1 hwrites
      obtain ⟨_, listed, hfile, hends⟩ := runs_bind.1 hlist
      obtain ⟨disk, hwrite, rfl⟩ := runs_emitFile.1 hfile
      obtain ⟨_, reported, hreport, hcleans⟩ := runs_bind.1 hends
      rw [runs_report.1 hreport] at hcleans
      obtain ⟨_, cleaned, hremove, hresult⟩ := runs_bind.1 hcleans
      rw [runs_modify.1 hremove] at hresult
      obtain ⟨rfl, rfl⟩ := runs_pure.1 hresult
      exact ⟨rfl, rfl, previous, mid, disk, orFail_eq_ok.1 hprevious, hfiles, hwrite, rfl⟩
    · rintro ⟨-, rfl, previous, mid, disk, hprevious, hfiles, hwrite, rfl⟩
      refine runs_bind.2 ⟨_, _, runs_get.2 ⟨rfl, rfl⟩, ?_⟩
      refine runs_bind.2 ⟨_, _, runs_liftM.2 ⟨orFail_eq_ok.2 hprevious, rfl⟩, ?_⟩
      refine runs_bind.2 ⟨⟨⟩, _, runs_modify.2 rfl, ?_⟩
      refine runs_bind.2 ⟨(), _, hfiles, ?_⟩
      refine runs_bind.2 ⟨(), _, runs_emitFile.2 ⟨disk, hwrite, rfl⟩, ?_⟩
      refine runs_bind.2 ⟨(), _, runs_report.2 rfl, ?_⟩
      exact runs_bind.2 ⟨⟨⟩, _, runs_modify.2 rfl, runs_pure.2 ⟨rfl, rfl⟩⟩

/-! ### Writing files, and writing them again -/

section Files

variable {files : List (String × PackFile)} {done : Nat}

/-- Files that have been written stand at their places, and no other file has changed. -/
theorem emitFiles_spec (hroot : s.disk.look? [] = some none)
    (hplaces : (files.map fun f => placeOf dir (.ofText f.1)).Nodup)
    (h : Runs (emitFiles dir done files) s () s') :
    (∀ f ∈ files, ∃ contents, f.2.contents = .ok contents ∧
        Holds s'.disk dir (.ofText f.1) contents) ∧
      Changes (files.map fun f => placeOf dir (.ofText f.1)) s.disk s'.disk ∧
      s'.progress.total = s.progress.total := by
  induction files generalizing s done with
  | nil =>
    obtain ⟨-, rfl⟩ := runs_pure.1 h
    exact ⟨List.forall_mem_nil _, .refl _, rfl⟩
  | cons f files ih =>
    obtain ⟨path, file⟩ := f
    obtain ⟨contents, disk, hcontents, hwrite, hrest⟩ := runs_emitFiles_cons.1 h
    obtain ⟨hnot, hnodup⟩ := List.nodup_cons.1 hplaces
    obtain ⟨hholds, hchanges⟩ := Disk.holds_write hroot hwrite
    obtain ⟨hall, hothers, htotal⟩ :=
      ih (s := ⟨disk, s.progress.advance (done + 1)⟩) (hchanges.directories _ hroot) hnodup hrest
    refine ⟨List.forall_mem_cons.2 ⟨⟨contents, hcontents, hholds.changes hothers hnot⟩, hall⟩, ?_,
      htotal⟩
    refine (hchanges.mono ?_).trans (hothers.mono ?_)
    · intro p hp
      rw [List.mem_singleton.1 hp]
      exact List.mem_cons_self
    · exact fun p hp => List.mem_cons_of_mem _ hp

/-- Files that stand at their places are written again without a change. -/
theorem runs_emitFiles (h : ∀ f ∈ files, ∃ contents, f.2.contents = .ok contents ∧
      Holds s.disk dir (.ofText f.1) contents) :
    ∃ progress, progress.total = s.progress.total ∧
      Runs (emitFiles dir done files) s () ⟨s.disk, progress⟩ := by
  induction files generalizing s done with
  | nil => exact ⟨s.progress, rfl, runs_pure.2 ⟨rfl, rfl⟩⟩
  | cons f files ih =>
    obtain ⟨path, file⟩ := f
    obtain ⟨⟨contents, hcontents, hholds⟩, hrest⟩ := List.forall_mem_cons.1 h
    obtain ⟨progress, htotal, hruns⟩ :=
      @ih ⟨s.disk, s.progress.advance (done + 1)⟩ (done + 1) hrest
    refine ⟨progress, htotal, ?_⟩
    exact runs_emitFiles_cons.2 ⟨contents, s.disk, hcontents, hholds.write_eq, hruns⟩

end Files

/-- Removing files adds nothing: a file that can be read afterwards could be read before. -/
theorem read?_of_removeFiles {rs : List Route} {r : Route} {d : Disk} {contents : String}
    (hroot : d.look? [] = some none)
    (h : (rs.foldl (fun d r => d.removeFile dir r) d).read? dir r = some contents) :
    d.read? dir r = some contents := by
  induction rs generalizing d with
  | nil => exact h
  | cons r' rs ih =>
    exact Disk.read?_of_removeFile hroot
      (ih ((Disk.changes_removeFile hroot).directories _ hroot) h)

/-- Files that have been removed cannot be read, and no other file has changed. -/
theorem removeFiles_spec (dir : List Step) (rs : List Route) {d : Disk}
    (hroot : d.look? [] = some none) :
    Changes (rs.map (placeOf dir)) d (rs.foldl (fun d r => d.removeFile dir r) d) ∧
      ∀ r ∈ rs, (rs.foldl (fun d r => d.removeFile dir r) d).read? dir r = none := by
  induction rs generalizing d with
  | nil => exact ⟨.refl _, List.forall_mem_nil _⟩
  | cons r rs ih =>
    have hfirst : Changes [placeOf dir r] d (d.removeFile dir r) := Disk.changes_removeFile hroot
    have hroot' := hfirst.directories _ hroot
    obtain ⟨hchanges, hgone⟩ := ih hroot'
    refine ⟨(hfirst.mono ?_).trans (hchanges.mono ?_), List.forall_mem_cons.2 ⟨?_, hgone⟩⟩
    · intro p hp
      rw [List.mem_singleton.1 hp]
      exact List.mem_cons_self
    · exact fun p hp => List.mem_cons_of_mem _ hp
    · rw [Option.eq_none_iff_forall_ne_some]
      intro contents h
      have hread := read?_of_removeFiles hroot' h
      rw [Disk.read?_removeFile hroot] at hread
      cases hread

/-! ### One emission -/

/-- Paths to the same file are spelled alike. -/
def SpelledAlike (dir : List Step) (paths : List String) : Prop :=
  ∀ p ∈ paths, ∀ q ∈ paths, placeOf dir (.ofText p) = placeOf dir (.ofText q) → p = q

/-- The paths that the list of an earlier emission names. -/
def listedPaths (previous : Option Manifest) : List String :=
  previous.elim [] Manifest.files

/-- What an emission leaves, given the list of the one before it. -/
structure Replaces (dir : List Step) (config : Config) (previous : Option Manifest)
    (pack : Datapack) (before after : Disk) : Prop where
  /-- Every file of the pack stands under its path with its contents. -/
  written : ∀ path file, pack.get? path = some file →
    ∃ contents, file.contents = .ok contents ∧ after.read? dir (.ofText path) = some contents
  /-- So does the list of these files. -/
  listed : after.read? dir (.ofText config.manifestName) = some (manifestOf pack config).text
  /-- Files that only the earlier list names are gone, if they are below the directory. -/
  gone : ∀ path ∈ listedPaths previous, isRelativeInside path = true →
    path ∉ (manifestOf pack config).files → after.read? dir (.ofText path) = none
  /-- No other file has been touched. -/
  untouched : ∀ place,
    (∀ path ∈ listedPaths previous ++ (manifestOf pack config).files,
      placeOf dir (.ofText path) ≠ place) →
    ∀ contents, after.look? place = some (some contents) ↔ before.look? place = some (some contents)

/-- The list of an emission is read by the next one. -/
theorem readManifest_of_holds {d : Disk} (h : Holds d dir (.ofText config.manifestName) m.text)
    (hm : m.files ≠ []) : readManifest d dir config = .ok (some m) := by
  unfold readManifest
  dsimp only
  rw [h.find?_eq]
  dsimp only
  rw [Manifest.ofText_text hm]

/-- No path of a list is stale for the same list. -/
theorem stalePaths_self (pack : Datapack) (config : Config) :
    stalePaths (some (manifestOf pack config)) (manifestOf pack config) = [] := by
  unfold stalePaths
  rw [List.filter_eq_nil_iff]
  intro path hpath
  rw [(Manifest.contains_iff (pairwise_manifestOf pack config) path).2 hpath]
  simp

theorem manifestOf_files_ne_nil (pack : Datapack) (config : Config) :
    (manifestOf pack config).files ≠ [] :=
  List.ne_nil_of_mem (mem_manifestOf.2 (.inl rfl))

/-- Stale paths are named by the earlier list and not by the new one. -/
theorem mem_stalePaths {previous : Option Manifest} {path : String} :
    path ∈ stalePaths previous (manifestOf pack config) ↔
      path ∈ listedPaths previous ∧ path ∉ (manifestOf pack config).files ∧
        isRelativeInside path = true := by
  have hcontains := Manifest.contains_iff (pairwise_manifestOf pack config) path
  cases previous with
  | none => simp [stalePaths, listedPaths]
  | some p => simp [stalePaths, listedPaths, ← hcontains]

/-- The files of a pack in order. -/
theorem mem_toList {path : String} {file : PackFile} :
    (path, file) ∈ pack.toList ↔ pack.get? path = some file :=
  Std.TreeMap.mem_toList_iff_getElem?_eq_some

theorem mem_files_of_mem_toList {f : String × PackFile} (h : f ∈ pack.toList) :
    f.1 ∈ (manifestOf pack config).files := by
  refine mem_manifestOf.2 (.inr ?_)
  rw [Datapack.paths, ← Std.TreeMap.map_fst_toList_eq_keys]
  exact List.mem_map_of_mem h

/-- Paths that are spelled alike and differ name different files. -/
theorem nodup_places (hspelled : SpelledAlike dir (manifestOf pack config).files) :
    (pack.toList.map fun f => placeOf dir (.ofText f.1)).Nodup := by
  have hpaths : pack.toList.Pairwise fun f g => f.1 ≠ g.1 :=
    Std.TreeMap.distinct_keys_toList.imp fun h heq => by
      rw [heq] at h
      exact h Std.ReflCmp.compare_self
  rw [List.Nodup, List.pairwise_map]
  refine hpaths.imp_of_mem ?_
  intro f g hf hg hne heq
  exact hne (hspelled _ (mem_files_of_mem_toList hf) _ (mem_files_of_mem_toList hg) heq)

/-- The files that stand at their places after an emission, and those that have changed. -/
theorem emit_spec {previous : Option Manifest} (hroot : s.disk.look? [] = some none)
    (hprevious : readManifest s.disk dir config = .ok previous)
    (hspelled : SpelledAlike dir (listedPaths previous ++ (manifestOf pack config).files))
    (h : Runs (emit pack dir config) s m s') :
    (∀ f ∈ pack.toList, ∃ contents, f.2.contents = .ok contents ∧
        Holds s'.disk dir (.ofText f.1) contents) ∧
      Holds s'.disk dir (.ofText config.manifestName) (manifestOf pack config).text ∧
      (∀ path ∈ stalePaths previous (manifestOf pack config),
        s'.disk.read? dir (.ofText path) = none) ∧
      Changes ((listedPaths previous ++ (manifestOf pack config).files).map
        fun path => placeOf dir (.ofText path)) s.disk s'.disk ∧
      s'.progress = ⟨pack.size + 1, pack.size + 1⟩ := by
  obtain ⟨hfree, rfl, previous', mid, disk, hprevious', hfiles, hwrite, rfl⟩ := runs_emit.1 h
  obtain rfl : previous = previous' := Except.ok.inj (hprevious.symm.trans hprevious')
  have hnew : SpelledAlike dir (manifestOf pack config).files := fun p hp q hq =>
    hspelled p (List.mem_append_right _ hp) q (List.mem_append_right _ hq)
  have hname : config.manifestName ∈ (manifestOf pack config).files := mem_manifestOf.2 (.inl rfl)
  -- First the files of the pack are written, then the list, then stale files are removed.
  obtain ⟨hall, hchanges, htotal⟩ := emitFiles_spec
    (s := ⟨s.disk, .start (pack.size + 1)⟩) hroot (nodup_places hnew) hfiles
  have hrootmid := hchanges.directories _ hroot
  obtain ⟨hlist, hlistchanges⟩ := Disk.holds_write hrootmid hwrite
  have hrootdisk := hlistchanges.directories _ hrootmid
  obtain ⟨hremoved, hgone⟩ := removeFiles_spec dir
    ((stalePaths previous (manifestOf pack config)).map Route.ofText) hrootdisk
  -- No stale path leads to a file that has been written.
  have hstay : ∀ path ∈ (manifestOf pack config).files, placeOf dir (.ofText path) ∉
      ((stalePaths previous (manifestOf pack config)).map Route.ofText).map (placeOf dir) := by
    intro path hpath hmem
    rw [List.map_map] at hmem
    obtain ⟨stale, hstale, heq⟩ := List.mem_map.1 hmem
    obtain ⟨hlisted, hnot, -⟩ := mem_stalePaths.1 hstale
    obtain rfl := hspelled stale (List.mem_append_left _ hlisted) path
      (List.mem_append_right _ hpath) heq
    exact hnot hpath
  have hother : ∀ f ∈ pack.toList, placeOf dir (.ofText f.1) ∉
      [placeOf dir (.ofText config.manifestName)] := by
    intro f hf hmem
    have heq := hnew _ (mem_files_of_mem_toList hf) _ hname (List.mem_singleton.1 hmem)
    have hget : pack.get? f.1 = some f.2 := mem_toList.1 hf
    rw [heq, hfree] at hget
    cases hget
  refine ⟨fun f hf => ?_, hlist.changes hremoved (hstay _ hname), fun path hpath => ?_, ?_, ?_⟩
  · obtain ⟨contents, hcontents, hholds⟩ := hall f hf
    exact ⟨contents, hcontents, (hholds.changes hlistchanges (hother f hf)).changes hremoved
      (hstay _ (mem_files_of_mem_toList hf))⟩
  · exact hgone _ (List.mem_map_of_mem hpath)
  · refine ((hchanges.mono ?_).trans (hlistchanges.mono ?_)).trans (hremoved.mono ?_)
    · intro p hp
      obtain ⟨f, hf, rfl⟩ := List.mem_map.1 hp
      exact List.mem_map.2 ⟨f.1, List.mem_append_right _ (mem_files_of_mem_toList hf), rfl⟩
    · intro p hp
      rw [List.mem_singleton.1 hp]
      exact List.mem_map.2 ⟨_, List.mem_append_right _ hname, rfl⟩
    · intro p hp
      rw [List.map_map] at hp
      obtain ⟨stale, hstale, rfl⟩ := List.mem_map.1 hp
      exact List.mem_map.2 ⟨stale, List.mem_append_left _ (mem_stalePaths.1 hstale).1, rfl⟩
  · show mid.progress.advance (pack.size + 1) = _
    unfold Progress.advance
    rw [htotal]
    rfl

/-- One emission leaves what it has to, and running it again changes nothing. -/
theorem leaves_of_emit {previous : Option Manifest} (hroot : s.disk.look? [] = some none)
    (hprevious : readManifest s.disk dir config = .ok previous)
    (hspelled : SpelledAlike dir (listedPaths previous ++ (manifestOf pack config).files))
    (h : Runs (emit pack dir config) s m s') :
    Replaces dir config previous pack s.disk s'.disk ∧
      readManifest s'.disk dir config = .ok (some (manifestOf pack config)) ∧
      Runs (emit pack dir config) s' m s' := by
  obtain ⟨hall, hlist, hgone, hchanges, hprogress⟩ := emit_spec hroot hprevious hspelled h
  obtain ⟨hfree, rfl, -⟩ := runs_emit.1 h
  have hread := readManifest_of_holds hlist (manifestOf_files_ne_nil pack config)
  refine ⟨⟨?_, hlist.read?_eq, ?_, ?_⟩, hread, ?_⟩
  · intro path file hget
    obtain ⟨contents, hcontents, hholds⟩ := hall (path, file) (mem_toList.2 hget)
    exact ⟨contents, hcontents, hholds.read?_eq⟩
  · intro path hlisted hinside hnot
    exact hgone path (mem_stalePaths.2 ⟨hlisted, hnot, hinside⟩)
  · intro place hplace contents
    refine hchanges.files place ?_ contents
    intro hmem
    obtain ⟨path, hpath, heq⟩ := List.mem_map.1 hmem
    exact hplace path hpath heq
  · obtain ⟨progress, htotal, hruns⟩ :=
      @runs_emitFiles _ ⟨s'.disk, .start (pack.size + 1)⟩ _ 0 hall
    refine runs_emit.2 ⟨hfree, rfl, _, _, _, hread, hruns, hlist.write_eq, ?_⟩
    rw [stalePaths_self]
    obtain ⟨disk, finished⟩ := s'
    obtain ⟨total, completed⟩ := progress
    cases htotal
    cases hprogress
    rfl

/-! ### Emissions that follow each other -/

/-- Emissions into one directory that follow each other, in each of which the paths to one file are
spelled as in the one before. -/
inductive Emissions (dir : List Step) (config : Config) (s : EmitState) :
    List Datapack → EmitState → Prop where
  /-- Before the first one. -/
  | start : Emissions dir config s [] s
  /-- One more. -/
  | next {packs : List Datapack} {pack : Datapack} {mid s' : EmitState} {m : Manifest}
      {previous : Option Manifest} (before : Emissions dir config s packs mid)
      (read : readManifest mid.disk dir config = .ok previous)
      (spelled : SpelledAlike dir (listedPaths previous ++ (manifestOf pack config).files))
      (runs : Runs (emit pack dir config) mid m s') : Emissions dir config s (packs ++ [pack]) s'

/-- After each emission the directory can be emitted to, and the list that is there is
the last one. -/
theorem Emissions.invariant {packs : List Datapack} (hroot : s.disk.look? [] = some none)
    (h : Emissions dir config s packs s') :
    s'.disk.look? [] = some none ∧ ∀ last ∈ packs.getLast?,
      readManifest s'.disk dir config = .ok (some (manifestOf last config)) := by
  induction h with
  | start =>
    refine ⟨hroot, fun last hlast => ?_⟩
    cases hlast
  | @next packs pack mid s' m previous before read spelled runs ih =>
    obtain ⟨-, -, -, hchanges, -⟩ := emit_spec ih.1 read spelled runs
    refine ⟨hchanges.directories _ ih.1, fun last hlast => ?_⟩
    rw [List.getLast?_concat] at hlast
    obtain rfl := Option.some.inj hlast
    exact (leaves_of_emit ih.1 read spelled runs).2.1

/-- An emission after others leaves the files of its pack and the list of them, removes those that
the one before has written and it does not write, and touches no other file.  Running it once more
changes nothing. -/
theorem Emissions.leaves_of_runs {packs : List Datapack} {mid : EmitState}
    {previous : Option Manifest} (hroot : s.disk.isDirectory [] = true)
    (hbefore : Emissions dir config s packs mid)
    (hinside : ∀ p ∈ packs, ∀ path ∈ p.paths, isRelativeInside path = true)
    (hread : readManifest mid.disk dir config = .ok previous)
    (hspelled : SpelledAlike dir (listedPaths previous ++ (manifestOf pack config).files))
    (hruns : Runs (emit pack dir config) mid m s') :
    m = manifestOf pack config ∧ Replaces dir config previous pack mid.disk s'.disk ∧
      (∀ last ∈ packs.getLast?, previous = some (manifestOf last config) ∧
        ∀ path ∈ (manifestOf last config).files, path ∉ m.files →
          s'.disk.read? dir (.ofText path) = none) ∧
      Runs (emit pack dir config) s' m s' := by
  obtain ⟨hroot, hlast⟩ := hbefore.invariant (Disk.isDirectory_iff.1 hroot)
  obtain ⟨hleaves, -, hagain⟩ := leaves_of_emit hroot hread hspelled hruns
  obtain ⟨-, rfl, -⟩ := runs_emit.1 hruns
  refine ⟨rfl, hleaves, fun last hmem => ?_, hagain⟩
  obtain rfl : previous = some (manifestOf last config) :=
    Except.ok.inj (hread.symm.trans (hlast last hmem))
  refine ⟨rfl, fun path hpath hnot => hleaves.gone path hpath ?_ hnot⟩
  obtain rfl | hpack := mem_manifestOf.1 hpath
  · exact absurd (mem_manifestOf.2 (.inl rfl)) hnot
  · exact hinside last (List.mem_of_getLast? hmem) path hpack

/-- A pack of one text. -/
def Datapack.ofText (path contents : String) : Datapack :=
  ⟨({} : Std.TreeMap String PackFile).insert path (.text contents)⟩

/-- A state before any emission. -/
def EmitState.blank : EmitState := ⟨{}, {}⟩

/-- The state after a pack of one text has been written to the directory `out`. -/
def EmitState.emitted (s : EmitState) (path contents : String) : EmitState :=
  ((emit (.ofText path contents) [.down "out"] {}).run.run s).2

/-- A pack follows one with another file: that file is gone, and the new one is there. -/
theorem Emissions.leaves_of_runs_other :
    ((EmitState.blank.emitted "a" "x").emitted "b" "y").disk.read? [.down "out"]
    (.ofText "a") = none ∧
      Replaces [.down "out"] {} (some (manifestOf (.ofText "a" "x") {})) (.ofText "b" "y")
        (EmitState.blank.emitted "a" "x").disk
        ((EmitState.blank.emitted "a" "x").emitted "b" "y").disk := by
  have hfirst :
      Runs (emit (.ofText "a" "x") [.down "out"] {}) .blank (manifestOf (.ofText "a" "x") {})
      (EmitState.blank.emitted "a" "x") := runs_of_toOption (by decide +kernel)
  have hsecond : Runs (emit (.ofText "b" "y") [.down "out"] {}) (EmitState.blank.emitted "a" "x")
      (manifestOf (.ofText "b" "y") {}) ((EmitState.blank.emitted "a" "x").emitted "b" "y") :=
    runs_of_toOption (by decide +kernel)
  have hnone : readManifest EmitState.blank.disk [.down "out"] {} = .ok none := by
    have hfind :
        EmitState.blank.disk.find? [.down "out"] (.ofText ({} : Config).manifestName) = none :=
      Option.isNone_iff_eq_none.1 (by decide +kernel)
    unfold readManifest
    dsimp only
    rw [hfind]
  have hbefore :
      Emissions [.down "out"] {} .blank [.ofText "a" "x"] (EmitState.blank.emitted "a" "x") :=
    .next .start hnone (by unfold SpelledAlike; decide +kernel) hfirst
  have hread := (hbefore.invariant (by decide +kernel)).2 _ rfl
  obtain ⟨-, hleaves, hgone, -⟩ := hbefore.leaves_of_runs (by decide +kernel)
    (List.forall_mem_singleton.2 (by decide +kernel)) hread
    (by unfold SpelledAlike; decide +kernel) hsecond
  exact ⟨(hgone _ rfl).2 "a" (by decide +kernel) (by decide +kernel), hleaves⟩

/-- The same file under two spellings: the new pack has a path without the needless separator of the
old one.  The file is written and then removed as a stale one. -/
theorem not_written_respelled :
    Runs (emit (.ofText "a//b" "x") [.down "out"] {}) .blank (manifestOf (.ofText "a//b" "x") {})
        (EmitState.blank.emitted "a//b" "x") ∧
      Runs (emit (.ofText "a/b" "y") [.down "out"] {}) (EmitState.blank.emitted "a//b" "x")
        (manifestOf (.ofText "a/b" "y") {})
        ((EmitState.blank.emitted "a//b" "x").emitted "a/b" "y") ∧
      isRelativeInside "a//b" = true ∧ isRelativeInside "a/b" = true ∧
      "a/b" ∈ (manifestOf (.ofText "a/b" "y") {}).files ∧
      ((EmitState.blank.emitted "a//b" "x").emitted "a/b" "y").disk.read? [.down "out"]
        (.ofText "a/b") = none :=
  ⟨runs_of_toOption (by decide +kernel), runs_of_toOption (by decide +kernel), by decide +kernel,
    by decide +kernel, by decide +kernel, by decide +kernel⟩

end Marionette
