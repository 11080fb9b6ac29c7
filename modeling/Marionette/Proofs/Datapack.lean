import Marionette.World.Basic

/-!
# Files of packs

- `Datapack.addFiles`: adds files in order; `addFunctions` and `extend` are cases of it.
- `Datapack.Holds`: the pack holds just some files; `Holds.addFiles`, `Holds.extend`: what it holds
  after more have been added.
- `Holds.exists_addFiles`, `Holds.exists_extend`: adding succeeds if the paths are distinct.
- `Datapack.IsNamed`: every function lies at the path of its name.
- `World.functions_ofPack`, `World.mem_functions_of_ofPack`: a world has the functions of its pack,
  and no others.
-/

namespace Marionette

namespace Datapack

variable {p q other : Datapack} {path : String} {file : PackFile}
  {files : List (String × PackFile)}

/-- Adds files in order. -/
def addFiles (p : Datapack) (files : List (String × PackFile)) : Except BakeError Datapack :=
  files.foldlM (fun p f => p.add f.1 f.2) p

/-- Functions as files. -/
def functionFiles (functions : List (FunctionPath × List Command)) : List (String × PackFile) :=
  functions.map fun f => (f.1.filePath, .function f.1 f.2)

/-- Nothing is found in an empty pack. -/
theorem get?_empty (key : String) : ({} : Datapack).get? key = none :=
  Std.TreeMap.getElem?_emptyc

/-- Functions are added as files. -/
theorem addFunctions_eq (p : Datapack) (functions : List (FunctionPath × List Command)) :
    p.addFunctions functions = p.addFiles (functionFiles functions) := by
  unfold addFunctions addFiles functionFiles
  rw [List.foldlM_map]
  rfl

/-- Files are added one by one. -/
theorem addFiles_cons (p : Datapack) (f : String × PackFile) (files : List (String × PackFile)) :
    p.addFiles (f :: files) = p.add f.1 f.2 >>= fun q => q.addFiles files :=
  List.foldlM_cons

theorem addFiles_singleton (p : Datapack) (f : String × PackFile) :
    p.addFiles [f] = p.add f.1 f.2 :=
  (addFiles_cons p f []).trans (bind_pure _)

/-- Adding files up to the first path that is taken, and giving up if there was one, is adding
them all. -/
theorem addUntilTaken_eq (p : Datapack) (files : List (String × PackFile)) :
    ((p.addUntilTaken files).2.map fun _ => (p.addUntilTaken files).1) = p.addFiles files := by
  induction files generalizing p with
  | nil => rfl
  | cons f rest ih =>
    obtain ⟨path, file⟩ := f
    unfold addFiles
    rw [addUntilTaken, List.foldlM_cons]
    cases hadd : p.add path file with
    | error e => rfl
    | ok added => exact ih added

/-- A pack is extended by the files of the other one, in the order of their paths. -/
theorem extend_eq (p other : Datapack) : p.extend other = p.addFiles other.toList :=
  addUntilTaken_eq p other.toList

/-! ### Adding files -/

/-- Lookup after a file was put in. -/
theorem get?_insert (p : Datapack) (path : String) (file : PackFile) (key : String) :
    (Datapack.mk (p.files.insert path file)).get? key =
      if key = path then some file else p.get? key := by
  unfold get?
  rw [Std.TreeMap.getElem?_insert]
  by_cases h : key = path
  · rw [if_pos h, if_pos (Std.LawfulEqCmp.compare_eq_iff_eq.2 h.symm)]
  · rw [if_neg h, if_neg fun hc => h (Std.LawfulEqCmp.compare_eq_iff_eq.1 hc).symm]

/-- A file at a new path is put in. -/
theorem add_eq (file : PackFile) (hnew : p.get? path = none) :
    p.add path file = .ok ⟨p.files.insert path file⟩ := by
  have hcontains : p.files.contains path = false := by
    rw [Std.TreeMap.contains_eq_isSome_getElem?, show p.files[path]? = none from hnew]
    rfl
  rw [add, hcontains]
  rfl

/-- If adding a file succeeds, then its path was new. -/
theorem new_of_add (h : p.add path file = .ok q) : p.get? path = none := by
  cases hget : p.get? path with
  | none => rfl
  | some old =>
    have hcontains : p.files.contains path = true := by
      rw [Std.TreeMap.contains_eq_isSome_getElem?, show p.files[path]? = some old from hget]
      rfl
    rw [add, hcontains] at h
    cases h

/-- Lookup after a file was added. -/
theorem get?_add (h : p.add path file = .ok q) (key : String) :
    q.get? key = if key = path then some file else p.get? key := by
  rw [add_eq file (new_of_add h)] at h
  cases h
  exact get?_insert p path file key

/-- The pack holds just these files. -/
def Holds (p : Datapack) (files : List (String × PackFile)) : Prop :=
  ∀ key file, p.get? key = some file ↔ (key, file) ∈ files

theorem holds_empty : Holds {} [] := by
  intro key file
  rw [get?_empty]
  simp

/-- A pack holds the files of its list. -/
theorem holds_toList (p : Datapack) : p.Holds p.toList :=
  fun _ _ => Std.TreeMap.mem_toList_iff_getElem?_eq_some.symm

/-- There is a file at every path of a pack. -/
theorem exists_of_mem_paths (h : path ∈ p.paths) : ∃ file, p.get? path = some file := by
  have hmem : path ∈ p.files := Std.TreeMap.mem_keys.1 h
  rw [Std.TreeMap.mem_iff_isSome_getElem?] at hmem
  exact Option.isSome_iff_exists.1 hmem

/-- Adding a file adds it to what the pack holds. -/
theorem Holds.add (hp : p.Holds files) (h : p.add path file = .ok q) :
    q.Holds (files ++ [(path, file)]) := by
  intro key other
  -- the path was new, so that the new file replaces no other one
  rw [get?_add h, List.mem_append, List.mem_singleton, Prod.mk.injEq, ← hp key other]
  have hnew := new_of_add h
  constructor
  · intro hget
    split at hget
    · exact .inr ⟨by assumption, (Option.some.inj hget).symm⟩
    · exact .inl hget
  · rintro (hget | ⟨rfl, rfl⟩)
    · rw [if_neg, hget]
      rintro rfl
      rw [hnew] at hget
      cases hget
    · exact if_pos rfl

/-- What has been added is there, and everything else is as before. -/
theorem Holds.addFiles {added : List (String × PackFile)} (hp : p.Holds files)
    (h : p.addFiles added = .ok q) : q.Holds (files ++ added) := by
  induction added generalizing p files with
  | nil =>
    cases h
    rwa [List.append_nil]
  | cons f rest ih =>
    unfold Datapack.addFiles at h
    rw [List.foldlM_cons] at h
    cases hadd : p.add f.1 f.2 with
    | error e =>
      rw [hadd] at h
      cases h
    | ok next =>
      rw [hadd] at h
      have hq := ih (hp.add hadd) h
      rwa [List.append_assoc] at hq

/-- Adding succeeds if the paths are new and distinct. -/
theorem Holds.exists_addFiles {added : List (String × PackFile)} (hp : p.Holds files)
    (hdistinct : ((files ++ added).map (·.1)).Nodup) :
    ∃ q, p.addFiles added = .ok q ∧ q.Holds (files ++ added) := by
  induction added generalizing p files with
  | nil => exact ⟨p, rfl, by rwa [List.append_nil]⟩
  | cons f rest ih =>
    have hnew : p.get? f.1 = none := by
      rw [Option.eq_none_iff_forall_ne_some]
      intro old hold
      rw [List.map_append, List.nodup_append] at hdistinct
      exact hdistinct.2.2 f.1 (List.mem_map.2 ⟨_, (hp _ _).1 hold, rfl⟩) f.1
        (List.mem_map_of_mem List.mem_cons_self) rfl
    have hadd := add_eq f.2 hnew
    obtain ⟨q, hq, hholds⟩ := ih (hp.add hadd) (by rwa [List.append_assoc])
    refine ⟨q, ?_, by rwa [List.append_assoc] at hholds⟩
    unfold Datapack.addFiles
    rw [List.foldlM_cons, hadd]
    exact hq

/-- An empty pack takes functions with distinct paths. -/
theorem exists_addFunctions {functions : List (FunctionPath × List Command)}
    (h : ((functionFiles functions).map (·.1)).Nodup) :
    ∃ q, ({} : Datapack).addFunctions functions = .ok q := by
  obtain ⟨q, hq, -⟩ := holds_empty.exists_addFiles h
  exact ⟨q, (addFunctions_eq _ _).trans hq⟩

/-- A pack holds all files of the pack that it was extended by. -/
theorem Holds.extend {added : List (String × PackFile)} (hp : p.Holds files)
    (ho : other.Holds added) (h : p.extend other = .ok q) : q.Holds (files ++ added) := by
  rw [extend_eq] at h
  intro key file
  rw [hp.addFiles h key file, List.mem_append, List.mem_append, ← ho key file,
    ← other.holds_toList key file]

/-- Extending succeeds if the packs have no path in common. -/
theorem Holds.exists_extend {added : List (String × PackFile)} (hp : p.Holds files)
    (ho : other.Holds added) (hdistinct : ((files ++ added).map (·.1)).Nodup) :
    ∃ q, p.extend other = .ok q ∧ q.Holds (files ++ added) := by
  have hpart := List.nodup_append.1 (List.map_append ▸ hdistinct)
  have hkeys : (other.toList.map (·.1)).Nodup := by
    refine List.Pairwise.map _ ?_ (Std.TreeMap.distinct_keys_toList (t := other.files))
    intro a b hab heq
    exact hab (Std.LawfulEqCmp.compare_eq_iff_eq.2 heq)
  have hnodup : ((files ++ other.toList).map (·.1)).Nodup := by
    rw [List.map_append, List.nodup_append]
    refine ⟨hpart.1, hkeys, fun a ha b hb => hpart.2.2 a ha b ?_⟩
    obtain ⟨f, hf, rfl⟩ := List.mem_map.1 hb
    exact List.mem_map_of_mem ((ho _ _).1 ((other.holds_toList _ _).2 hf))
  obtain ⟨q, hq, -⟩ := hp.exists_addFiles hnodup
  rw [← extend_eq] at hq
  exact ⟨q, hq, hp.extend ho hq⟩

/-! ### Functions of a pack -/

/-- Every function lies at the path of its name. -/
def IsNamed (files : List (String × PackFile)) : Prop :=
  ∀ key path body, (key, PackFile.function path body) ∈ files → key = path.filePath

/-- Functions as files lie at the paths of their names. -/
theorem isNamed_functionFiles (functions : List (FunctionPath × List Command)) :
    IsNamed (functionFiles functions) := by
  intro key path body hmem
  obtain ⟨f, -, hf⟩ := List.mem_map.1 hmem
  cases hf
  rfl

theorem IsNamed.append {added : List (String × PackFile)} (h : IsNamed files)
    (h' : IsNamed added) : IsNamed (files ++ added) := by
  intro key path body hmem
  rcases List.mem_append.1 hmem with hmem | hmem
  · exact h key path body hmem
  · exact h' key path body hmem

/-- The functions of a pack are those of its files. -/
theorem mem_functions {f : FunctionPath × List Command} :
    f ∈ p.functions ↔ ∃ key, p.get? key = some (.function f.1 f.2) := by
  unfold functions toList
  rw [List.mem_filterMap]
  constructor
  · rintro ⟨⟨key, file⟩, hmem, hf⟩
    cases file with
    | text contents => cases hf
    | function path body =>
      cases hf
      exact ⟨key, Std.TreeMap.mem_toList_iff_getElem?_eq_some.1 hmem⟩
  · rintro ⟨key, hkey⟩
    exact ⟨(key, .function f.1 f.2), Std.TreeMap.mem_toList_iff_getElem?_eq_some.2 hkey, rfl⟩

/-- No two functions of a pack have one name. -/
theorem Holds.distinct_functions (hp : p.Holds files) (hn : IsNamed files) :
    p.functions.Pairwise fun a b => (a.1 == b.1) = false := by
  unfold functions
  refine List.Pairwise.filterMap _ ?_
    (List.Pairwise.and_mem.1 (Std.TreeMap.distinct_keys_toList (t := p.files)))
  rintro ⟨k₁, f₁⟩ ⟨k₂, f₂⟩ ⟨hm₁, hm₂, hne⟩ a ha b hb
  have hk₁ := (hp _ _).1 ((p.holds_toList _ _).2 hm₁)
  have hk₂ := (hp _ _).1 ((p.holds_toList _ _).2 hm₂)
  cases f₁ with
  | text contents => cases ha
  | function path₁ body₁ =>
    cases f₂ with
    | text contents => cases hb
    | function path₂ body₂ =>
      cases ha
      cases hb
      rw [beq_eq_false_iff_ne]
      rintro rfl
      refine hne (Std.LawfulEqCmp.compare_eq_iff_eq.2 ?_)
      exact (hn k₁ path₁ body₁ hk₁).trans (hn k₂ path₁ body₂ hk₂).symm

end Datapack

namespace World

variable {p : Datapack} {w : World} {files : List (String × PackFile)}

/-- A world from a pack has its functions, and the functions that its two tags name. -/
theorem ofPack_eq (hw : ofPack p = .ok w) :
    ∃ ticks loads, readTag p "tick" = .ok ticks ∧ readTag p "load" = .ok loads ∧
      w = { functions := Std.HashMap.ofList p.functions, tickFunctions := ticks,
            loadFunctions := loads } := by
  unfold ofPack at hw
  cases htick : readTag p "tick" with
  | error e =>
    rw [htick] at hw
    cases hw
  | ok ticks =>
    cases hload : readTag p "load" with
    | error e =>
      rw [htick, hload] at hw
      cases hw
    | ok loads =>
      rw [htick, hload] at hw
      cases hw
      exact ⟨ticks, loads, rfl, rfl, rfl⟩

/-- A world has the functions of its pack. -/
theorem functions_ofPack {path : FunctionPath} {body : List Command} (key : String)
    (hp : p.Holds files) (hn : Datapack.IsNamed files) (hw : ofPack p = .ok w)
    (hmem : (key, PackFile.function path body) ∈ files) : w.functions[path]? = some body := by
  obtain ⟨ticks, loads, -, -, rfl⟩ := ofPack_eq hw
  exact Std.HashMap.getElem?_ofList_of_mem (beq_self_eq_true path) (hp.distinct_functions hn)
    (Datapack.mem_functions.2 ⟨key, (hp _ _).2 hmem⟩)

/-- A map that is filled from a list holds nothing else. -/
theorem mem_of_getElem?_insertMany {l : List (FunctionPath × List Command)}
    {m : Std.HashMap FunctionPath (List Command)} {path : FunctionPath} {body : List Command}
    (h : (m.insertMany l)[path]? = some body) : (path, body) ∈ l ∨ m[path]? = some body := by
  induction l generalizing m with
  | nil => exact .inr (by rwa [Std.HashMap.insertMany_nil] at h)
  | cons f rest ih =>
    rw [Std.HashMap.insertMany_cons] at h
    rcases ih h with hmem | hold
    · exact .inl (List.mem_cons_of_mem _ hmem)
    · rw [Std.HashMap.getElem?_insert] at hold
      by_cases hf : f.1 = path
      · subst hf
        rw [if_pos (beq_self_eq_true _)] at hold
        obtain rfl := Option.some.inj hold
        exact .inl List.mem_cons_self
      · rw [if_neg (by simpa using hf)] at hold
        exact .inr hold

/-- A world has no functions but those of its pack. -/
theorem mem_functions_of_ofPack {path : FunctionPath} {body : List Command} (hw : ofPack p = .ok w)
    (h : w.functions[path]? = some body) : (path, body) ∈ p.functions := by
  obtain ⟨ticks, loads, -, -, rfl⟩ := ofPack_eq hw
  rw [Std.HashMap.ofList_eq_insertMany_empty] at h
  rcases mem_of_getElem?_insertMany h with hmem | hold
  · exact hmem
  · rw [Std.HashMap.getElem?_empty] at hold
    cases hold

end World

end Marionette
