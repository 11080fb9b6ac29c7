import Marionette.Proofs.Outcome

/-!
# Paths of written files

The path of a file is put together from plain names, so that no file lies outside the directory that
the pack is written to, whatever text the names of an author hold.

- `IsPlainPath`: a path that is put together from plain names.
- `IsOrdinaryPath`: no segment of a path is empty, `.` or `..`.
- `Stage.isPlainPath_functions`, `Stage.isPlainPath_files`: the paths of the files of a pack.
- `paths_of_compile`: no two files that are compiled have one path, and every path is ordinary.
-/

namespace Marionette

/-- Plain names with single separators between them. -/
inductive IsPlainPath : String → Prop where
  | last {name : String} (h : IsPlainName name) : IsPlainPath name
  | cons {name rest : String} (h : IsPlainName name) (hrest : IsPlainPath rest) :
    IsPlainPath (name ++ "/" ++ rest)

/-- A path that does not leave its directory: no segment is empty, the directory itself or the one
above. -/
def IsOrdinaryPath (path : String) : Prop :=
  ∀ segment ∈ path.toList.splitOn '/', segment ≠ [] ∧ segment ≠ ['.'] ∧ segment ≠ ['.', '.']

namespace IsPlainPath

variable {path path' : String}

/-- The last name of a path can be continued. -/
theorem append (h : IsPlainPath path) {rest : String} (hrest : '/' ∉ rest.toList) :
    IsPlainPath (path ++ rest) := by
  induction h with
  | last h => exact .last (h.append hrest)
  | cons h _ ih =>
    rw [String.append_assoc]
    exact .cons h ih

theorem ordinary_of_isPlainName {name : String} (h : IsPlainName name) :
    name.toList ≠ [] ∧ name.toList ≠ ['.'] ∧ name.toList ≠ ['.', '.'] := by
  obtain ⟨c, hc, hdot⟩ := h.head
  refine ⟨?_, ?_, ?_⟩
  · intro heq
    rw [heq] at hc
    cases hc
  · intro heq
    rw [heq] at hc
    exact hdot (Option.some.inj hc).symm
  · intro heq
    rw [heq] at hc
    exact hdot (Option.some.inj hc).symm

/-- A path of plain names does not leave its directory. -/
theorem isOrdinaryPath (h : IsPlainPath path) : IsOrdinaryPath path := by
  induction h with
  | last h =>
    rw [IsOrdinaryPath, List.splitOn_eq_singleton h.separator, List.forall_mem_singleton]
    exact ordinary_of_isPlainName h
  | @cons name rest h _ ih =>
    have hsplit : (name ++ "/" ++ rest).toList = name.toList ++ '/' :: rest.toList := by
      simp [String.toList_append]
    rw [IsOrdinaryPath, hsplit, List.splitOn_append_cons_self_of_not_mem h.separator,
      List.forall_mem_cons]
    exact ⟨ordinary_of_isPlainName h, ih⟩

end IsPlainPath

/-- The file of a function lies below the directory of its name space. -/
theorem isPlainPath_filePath {f : FunctionPath} (hns : IsPlainName f.namespaceName)
    (hpath : IsPlainPath f.path) : IsPlainPath f.filePath := by
  obtain ⟨ns, path⟩ := f
  have heq : (FunctionPath.mk ns path).filePath =
      "data" ++ "/" ++ (ns ++ "/" ++ ("function" ++ "/" ++ (path ++ ".mcfunction"))) := by
    rw [← String.toList_inj, FunctionPath.toList_filePath]
    simp [String.toList_append]
  rw [heq]
  exact .cons (by decide) (.cons hns (.cons (by decide) (hpath.append (by decide))))

namespace ClipKey

/-- The part of a path that tells the functions of an animation apart is plain. -/
theorem isPlainPath_segment {tree : DispatchTree} {k : ClipKey} (h : k ∈ ofClip tree) :
    IsPlainPath k.segment := by
  have hbranch : ∀ lo hi : Nat, IsPlainName (lo.repr ++ "_" ++ hi.repr) := fun lo hi =>
    ((isPlainName_repr lo).append (by decide)).append (isPlainName_repr hi).separator
  rcases List.mem_append.1 h with h | h
  · rcases List.mem_append.1 h with h | h
    -- each kind of key: entry points, branches of both trees, frames with their effects, controls
    · rcases mem_ofTree h with rfl | rfl | ⟨lo, hi, rfl⟩ | ⟨lo, hi, rfl⟩
      · exact .last (by decide)
      · exact .last (by decide)
      · have heq : (branch lo hi).segment = "tree" ++ "/" ++ (lo.repr ++ "_" ++ hi.repr) := by
          rw [← String.toList_inj, toList_branch]
          simp
        rw [heq]
        exact .cons (by decide) (.last (hbranch lo hi))
      · have heq : (seekBranch lo hi).segment =
            "seek_tree" ++ "/" ++ (lo.repr ++ "_" ++ hi.repr) := by
          rw [← String.toList_inj, toList_seekBranch]
          simp
        rw [heq]
        exact .cons (by decide) (.last (hbranch lo hi))
    · obtain ⟨tick, rfl | rfl⟩ := mem_ofFrames h
      · have heq : (effects tick).segment = "frames" ++ "/" ++ (tick.repr ++ "_effects") := by
          rw [← String.toList_inj, toList_effects]
          simp
        rw [heq]
        exact .cons (by decide) (.last ((isPlainName_repr tick).append (by decide)))
      · have heq : (frame tick).segment = "frames" ++ "/" ++ tick.repr := by
          rw [← String.toList_inj, toList_frame]
          simp
        rw [heq]
        exact .cons (by decide) (.last (isPlainName_repr tick))
  · have hcontrols : ∀ name ∈ controlNames, IsPlainName name := by decide
    obtain ⟨name, hname, rfl⟩ := List.mem_map.1 h
    exact .last (hcontrols name hname)

end ClipKey

namespace Stage

variable {s : Stage} {clips : List CompiledClip}

/-- Names of functions are plain paths if the names of animations and variants are plain. -/
theorem isPlainPath_functions (hclips : ∀ c ∈ clips, IsPlainName c.clip.pathName)
    (hvariants : ∀ v ∈ s.rig.variants, IsPlainName v.2) :
    ∀ f ∈ s.functions clips, IsPlainPath f.1.path := by
  intro f hf
  rw [functions, List.append_assoc] at hf
  rcases List.mem_append.1 hf with hf | hf
  · obtain ⟨c, hc, hf⟩ := List.mem_flatMap.1 hf
    obtain ⟨k, hk, heq⟩ := namespaceName_clipFunctions hf
    have hpath : f.1.path = "animations" ++ "/" ++ (c.clip.pathName ++ "/" ++ k.segment) := by
      rw [heq, ← String.toList_inj, ClipPaths.toList_path_at]
      simp
    rw [hpath]
    exact .cons (by decide) (.cons (hclips c hc) (ClipKey.isPlainPath_segment hk))
  · have hnames : ∀ name ∈ rigNames, IsPlainName name := by decide
    have hmem := List.mem_map_of_mem (f := (·.1)) hf
    rw [map_fst_rigFunctions] at hmem
    rcases List.mem_append.1 hmem with hmem | hmem
    · obtain ⟨name, hname, heq⟩ := List.mem_map.1 hmem
      rw [← heq]
      exact .last (hnames name hname)
    · obtain ⟨v, hv, heq⟩ := List.mem_map.1 hmem
      have hpath : f.1.path = "variants" ++ "/" ++ (v.2 ++ "/" ++ "apply") := by
        rw [← heq, ← String.toList_inj, toList_path_variantApply]
        simp
      rw [hpath]
      exact .cons (by decide) (.cons (hvariants v hv) (.last (by decide)))

/-- So are the paths of all files. -/
theorem isPlainPath_files (hns : IsPlainName s.names.namespaceName)
    (hclips : ∀ c ∈ clips, IsPlainName c.clip.pathName)
    (hvariants : ∀ v ∈ s.rig.variants, IsPlainName v.2) (payload : String) :
    ∀ f ∈ s.files clips payload, IsPlainPath f.1 := by
  intro f hf
  rcases List.mem_append.1 ((s.perm_files clips payload).mem_iff.1 hf) with hf | hf
  · obtain ⟨g, hg, rfl⟩ := List.mem_map.1 hf
    refine isPlainPath_filePath ?_ (isPlainPath_functions hclips hvariants g hg)
    rwa [namespaceName_functions hg]
  · have hsummon : s!"data/{s.names.namespaceName}/rigbake/summon.snbt" =
        "data" ++ "/" ++ (s.names.namespaceName ++ "/" ++ ("rigbake" ++ "/" ++ "summon.snbt")) := by
      rw [← String.toList_inj, toList_summonFile]
      simp
    have htag : ∀ name, IsPlainName name →
        IsPlainPath ("data" ++ "/" ++
          ("minecraft" ++ "/" ++ ("tags" ++ "/" ++ ("function" ++ "/" ++ name)))) :=
      fun name h => .cons (by decide) (.cons (by decide) (.cons (by decide)
        (.cons (by decide) (.last h))))
    simp only [textFiles, List.mem_cons, List.not_mem_nil, or_false] at hf
    rcases hf with rfl | rfl | rfl | rfl
    · show IsPlainPath s!"data/{s.names.namespaceName}/rigbake/summon.snbt"
      rw [hsummon]
      exact .cons (by decide) (.cons hns (.cons (by decide) (.last (by decide))))
    · exact htag "tick.json" (by decide)
    · exact htag "load.json" (by decide)
    · exact .last (show IsPlainName "pack.mcmeta" by decide)

/-- The pack of an output lies in its directory. -/
theorem Compiles.isOrdinaryPath {o : Output} (h : s.Compiles o) (hrig : s.rig.IsBuilt) :
    ∀ path ∈ o.pack.paths, IsOrdinaryPath path := by
  intro path hpath
  obtain ⟨payload, hholds⟩ := holds_pack h.pack
  obtain ⟨file, hfile⟩ := Datapack.exists_of_mem_paths hpath
  have hns : IsPlainName s.names.namespaceName := h.namespaceName ▸ h.isStorageName.isPlainName
  have hfiles := isPlainPath_files hns h.isPlainName hrig.isPlainName_variant payload
  exact (hfiles _ ((hholds _ _).1 hfile)).isOrdinaryPath

end Stage

/-- Whatever text the names of an author hold, a compilation never ends because two files have one
path, and every path of a pack stays below the directory that the pack is written to. -/
theorem paths_of_compile (name : String) (nodes : List RigNode) (variants : List Variant)
    (animations : List Animation) (config : Config) :
    Ensures (Rig.build name nodes variants) fun rig =>
      (∀ path, compile rig animations config ≠ .error (.bake (.duplicateOutput path))) ∧
        Ensures (compile rig animations config) fun o =>
          ∀ path ∈ o.pack.paths, IsOrdinaryPath path := by
  refine Ensures.intro fun rig hbuild => ?_
  have hrig : rig.IsBuilt := ⟨name, nodes, variants, hbuild⟩
  constructor
  · intro path hclash
    rcases (Stage.failsOnly_compile hrig).apply hclash with hreason | hreason
    · exact absurd (show "codegen" = "config" from hreason) (by decide)
    · exact absurd (show "codegen" = "animation" from hreason) (by decide)
  · refine Ensures.intro fun o hcompile => ?_
    obtain ⟨s, rfl, -, hcompiles⟩ := Stage.exists_compiles hrig hcompile
    exact hcompiles.isOrdinaryPath hrig

end Marionette
