import Marionette.Proofs.Counters
import Marionette.Proofs.Seeking
import Mathlib.Data.List.Perm.Basic

/-!
# Animations are compiled on their own

Where no names collide, an animation is compiled in the same way whatever else is compiled with it:
its compiled form, its tree and its functions are those that it has alone.  Only the functions of
the rig that go over all animations know the others, and their order.

- `allocateClipNames_of_nodup`: names that do not collide are handed out as they are.
- `Stage.Makes`: what an animation is compiled to under its own name;
  `Stage.exists_compile_of_makes`: animations are compiled to that together.
- `Stage.mem_files_iff_of_isBelow`: the files below an animation do not depend on the others.
- `Stage.mem_files_iff_of_perm`: of the other files, only four depend on the order.
- `independence_of_compile`: so it is for everything that is compiled; `independence_of_dolly`: two
  animations of a camera.
-/

namespace Marionette

open Datapack (functionFiles)

/-! ### Names -/

/-- Where the safe forms of names are distinct, they are handed out as they are. -/
theorem allocateClipNames_of_free {paths storage : NameAllocator} {animations : List Animation}
    (hpaths : (animations.map (fun a => pathSafe a.name) ++ paths.taken).Nodup)
    (hstorage : (animations.map (fun a => storageSafe a.name) ++ storage.taken).Nodup) :
    (allocateClipNames paths storage animations).1 = animations.map fun a => .ofName a.name := by
  induction animations generalizing paths storage with
  | nil => rfl
  | cons a rest ih =>
    rw [List.map_cons, List.cons_append] at hpaths hstorage
    have hpath : pathSafe a.name ∉ paths.taken := fun h =>
      (List.nodup_cons.1 hpaths).1 (List.mem_append_right _ h)
    have hstored : storageSafe a.name ∉ storage.taken := fun h =>
      (List.nodup_cons.1 hstorage).1 (List.mem_append_right _ h)
    have hrest :
        (allocateClipNames ⟨pathSafe a.name :: paths.taken⟩ ⟨storageSafe a.name :: storage.taken⟩
        rest).1 = rest.map fun a => .ofName a.name :=
      ih (List.perm_middle.nodup_iff.2 hpaths) (List.perm_middle.nodup_iff.2 hstorage)
    rw [allocateClipNames, NameAllocator.allocate, if_neg hpath, NameAllocator.allocate,
      if_neg hstored]
    exact congrArg (_ :: ·) hrest

namespace Stage

variable {s : Stage} {rig : Rig} {animations animations' : List Animation} {config : Config}
    {o : Output}
  {clips clips' : List CompiledClip} {a : Animation} {c : CompiledClip}

/-! ### Compiling under the own name -/

/-- Under its own name, an animation is compiled to this. -/
def Makes (s : Stage) (a : Animation) (c : CompiledClip) : Prop :=
  ∃ own remarks, s.compileClip a (.ofName a.name) = .ok (c, own, remarks)

/-- It keeps the safe form of its name. -/
theorem Makes.pathName (h : s.Makes a c) : c.clip.pathName = pathSafe a.name := by
  obtain ⟨own, remarks, hc⟩ := h
  exact (takesOver_of_sample (compileClip_eq hc).1).pathName

/-- Where no names collide, the animations are compiled under their own names. -/
theorem compileClips_eq (hpaths : (animations.map fun a => pathSafe a.name).Nodup)
    (hstorage : (animations.map fun a => storageSafe a.name).Nodup) :
    s.compileClips animations = animations.mapM fun a => s.compileClip a (.ofName a.name) := by
  have hfree : ({} : NameAllocator).taken = [] := rfl
  have hnames : (allocateClipNames {} {} animations).1 = animations.map fun a =>
      .ofName a.name := by
    refine allocateClipNames_of_free ?_ ?_ <;> rw [hfree, List.append_nil]
    · exact hpaths
    · exact hstorage
  rw [compileClips, hnames, ← List.map_prod_left_eq_zip, List.mapM_map]
  rfl

/-- What a compilation without collisions has made. -/
theorem makes_of_compile (hpaths : (animations.map fun a => pathSafe a.name).Nodup)
    (hstorage : (animations.map fun a => storageSafe a.name).Nodup)
    (h : compile rig animations config = .ok o) :
    ∃ rest, config.check = .ok () ∧ restPoses rig config = .ok rest ∧
      List.Forall₂ (ofRig rig config rest).Makes animations o.clips ∧
      (ofRig rig config rest).pack o.clips = .ok o.pack ∧
      o.namespaceName = (ofRig rig config rest).names.namespaceName := by
  obtain ⟨rest, compiled, hcheck, hrest, hcompiled, hclips⟩ := exists_compileClips_of_compile h
  rw [compile_eq hcheck hrest hcompiled] at h
  obtain ⟨pack, hpack, rfl⟩ := exists_of_map_ok h
  rw [compileClips_eq hpaths hstorage] at hcompiled
  refine ⟨rest, hcheck, hrest, List.forall₂_map_right_iff.2 ?_, hpack, rfl⟩
  exact (forall₂_of_mapM_ok hcompiled).imp fun a c hc => ⟨c.2.1, c.2.2, hc⟩

theorem exists_mapM_of_makes (h : List.Forall₂ s.Makes animations clips) :
    ∃ compiled, (animations.mapM fun a => s.compileClip a (.ofName a.name)) = .ok compiled ∧
      compiled.map (·.1) = clips := by
  induction h with
  | nil => exact ⟨[], rfl, rfl⟩
  | @cons a c animations clips hc _ ih =>
    obtain ⟨own, remarks, hc⟩ := hc
    obtain ⟨compiled, hcompiled, rfl⟩ := ih
    refine ⟨(c, own, remarks) :: compiled, ?_, rfl⟩
    rw [List.mapM_cons, hc, hcompiled]
    rfl

/-- Animations whose names do not collide are compiled together to what they are compiled to under
their own names, if the poses at rest are finite. -/
theorem exists_compile_of_makes {rest : List Pose} (hrig : rig.IsBuilt)
    (hcheck : config.check = .ok ()) (hrest : restPoses rig config = .ok rest)
    (hfinite : (ofRig rig config rest).IsFiniteAtRest)
    (hpaths : (animations.map fun a => pathSafe a.name).Nodup)
    (hstorage : (animations.map fun a => storageSafe a.name).Nodup)
    (h : List.Forall₂ (ofRig rig config rest).Makes animations clips) :
    ∃ o, compile rig animations config = .ok o ∧ o.clips = clips ∧ AreCompiled clips ∧
      (ofRig rig config rest).pack clips = .ok o.pack := by
  obtain ⟨compiled, hcompiled, rfl⟩ := exists_mapM_of_makes h
  rw [← compileClips_eq hpaths hstorage] at hcompiled
  have hclips := areCompiled_of_forall₂ (forall₂_of_mapM_ok hcompiled)
  obtain ⟨pack, hpack⟩ :=
    exists_pack_of_isFiniteAtRest (s := ofRig rig config rest) hrig.nodup_variantNames
    hclips hfinite
  have hdone := compile_eq hcheck hrest hcompiled
  rw [hpack] at hdone
  exact ⟨_, hdone, rfl, hclips, hpack⟩

/-! ### Files of the pack -/

/-- Two packs have the same file at a path at which they hold the same. -/
theorem get?_eq_of_mem_iff {p q : Datapack} {files files' : List (String × PackFile)} {key : String}
    (hp : p.Holds files) (hq : q.Holds files')
    (h : ∀ file, (key, file) ∈ files ↔ (key, file) ∈ files') :
    p.get? key = q.get? key :=
  Option.ext fun file => (hp key file).trans ((h file).trans (hq key file).symm)

theorem toList_clipFile (ns name rest : String) :
    (s!"data/{ns}/function/animations/{name}/" ++ rest).toList =
      "data/".toList ++ (ns.toList ++ '/' :: ("function/".toList ++
        ("animations/".toList ++ (name.toList ++ '/' :: rest.toList)))) := by
  show ("data/" ++ ns ++ "/function/animations/" ++ name ++ "/" ++ rest).toList = _
  simp

/-- A function of which the file lies below an animation lies below it itself. -/
theorem isBelow_of_filePath {ns path rest : String} {clip : Clip}
    (h : (FunctionPath.mk ns path).filePath = s!"data/{ns}/function/animations/{clip.pathName}/" ++
      rest) :
    (FunctionPath.mk ns path).IsBelow (ClipPaths.ofClip ns clip).root := by
  have hl := congrArg String.toList h
  rw [FunctionPath.toList_filePath, toList_clipFile] at hl
  replace hl := List.append_cancel_left (List.append_cancel_left hl)
  have hpath : path.toList ++ ".mcfunction".toList =
      ("animations/".toList ++ (clip.pathName.toList ++ ['/'])) ++ rest.toList := by
    simpa using hl
  -- the end of a file name holds no separator, so nothing of what is before the segment is missing
  obtain ⟨segment, hsegment⟩ : ∃ segment, path.toList =
      ("animations/".toList ++ (clip.pathName.toList ++ ['/'])) ++ segment := by
    rcases List.append_eq_append_iff.1 hpath with ⟨left, hleft, hend⟩ | ⟨segment, hsegment, -⟩
    · have hnone : '/' ∉ left := fun hmem => by
        have hin : '/' ∈ ".mcfunction".toList := hend ▸ List.mem_append_left _ hmem
        revert hin
        decide
      rcases List.eq_nil_or_concat left with rfl | ⟨init, last, rfl⟩
      · exact ⟨[], by rw [List.append_nil, hleft, List.append_nil]⟩
      · rw [List.concat_eq_append, ← List.append_assoc, ← List.append_assoc] at hleft
        obtain rfl := List.singleton_inj.1 (List.append_inj' hleft rfl).2
        exact absurd (by simp) hnone
    · exact ⟨segment, hsegment⟩
  refine ⟨String.ofList segment, congrArg (FunctionPath.mk ns) (String.toList_inj.1 ?_)⟩
  rw [show path.toList = _ from hsegment]
  refine Eq.trans ?_ (ClipPaths.toList_path_at ns clip (.control (String.ofList segment))).symm
  simp [ClipKey.segment]

/-- No other file lies below an animation. -/
theorem clipFile_ne_textFile {name rest payload : String} (hns : '/' ∉ s.names.namespaceName.toList)
    {file : PackFile} :
    (s!"data/{s.names.namespaceName}/function/animations/{name}/" ++ rest, file) ∉ s.textFiles
      payload := by
  intro hmem
  have hl := List.mem_map_of_mem (f := fun file : String × PackFile => file.1.toList) hmem
  simp only [textFiles, List.map_cons, List.map_nil, List.mem_cons, List.not_mem_nil, or_false,
    toList_clipFile, toList_summonFile] at hl
  -- the lists of what runs at events lie beside the functions of the name space
  have htag : ∀ tail : List Char, "data/".toList ++ (s.names.namespaceName.toList ++ '/' ::
      ("function/".toList ++ ("animations/".toList ++ (name.toList ++ '/' :: rest.toList)))) ≠
        "data/".toList ++ ("minecraft".toList ++ '/' :: ("tags/".toList ++ tail)) := by
    intro tail heq
    have hend := (eq_of_append_separator hns (by decide) (List.append_cancel_left heq)).2
    simp at hend
  rcases hl with hl | hl | hl | hl
  · have hend := List.append_cancel_left (List.append_cancel_left hl)
    simp at hend
  · exact htag "function/tick.json".toList (hl.trans (by simp))
  · exact htag "function/load.json".toList (hl.trans (by simp))
  · simp at hl

/-- The files below an animation are those of its functions. -/
theorem mem_files_iff_of_isBelow (h : AreCompiled clips) (hns : '/' ∉ s.names.namespaceName.toList)
    (hc : c ∈ clips) {rest payload : String} {file : PackFile} :
    (s!"data/{s.names.namespaceName}/function/animations/{c.clip.pathName}/" ++ rest, file) ∈
        s.files clips payload ↔
      (s!"data/{s.names.namespaceName}/function/animations/{c.clip.pathName}/" ++ rest, file) ∈
        functionFiles (s.clipFunctions c.clip c.tree) := by
  rw [(s.perm_files clips payload).mem_iff, List.mem_append, or_iff_left (clipFile_ne_textFile hns)]
  constructor
  · intro hmem
    obtain ⟨⟨⟨ns, path⟩, body⟩, hf, heq⟩ := List.mem_map.1 hmem
    obtain rfl : ns = s.names.namespaceName := namespaceName_functions hf
    have hbelow := isBelow_of_filePath (congrArg Prod.fst heq)
    exact heq ▸ List.mem_map_of_mem (mem_clipFunctions_of_isBelow h hc hf hbelow)
  · intro hmem
    obtain ⟨f, hf, heq⟩ := List.mem_map.1 hmem
    exact heq ▸ List.mem_map_of_mem (mem_functions_of_clip hc hf)

/-- The functions of the rig that go over all animations. -/
def surveys (s : Stage) : List FunctionPath :=
  ["load", "on_tick", "init_instance", "pause_all"].map s.function

/-- All other functions are there whatever the order of the animations is. -/
theorem mem_functions_of_subset (h : clips ⊆ clips') {f : GeneratedFunction}
    (hf : f ∈ s.functions clips) (hother : f.1 ∉ s.surveys) : f ∈ s.functions clips' := by
  simp only [surveys, List.map_cons, List.map_nil, List.mem_cons, List.not_mem_nil, or_false,
    not_or] at hother
  obtain ⟨hload, htick, hinit, hpause⟩ := hother
  rcases List.mem_append.1 hf with hf | hf
  · rcases List.mem_append.1 hf with hf | hf
    · obtain ⟨c, hc, hf⟩ := List.mem_flatMap.1 hf
      exact mem_functions_of_clip (h hc) hf
    · refine mem_functions_of_tick ?_
      simp only [tickFunctions, List.mem_cons, List.not_mem_nil, or_false] at hf ⊢
      rcases hf with rfl | rfl | rfl | rfl
      · exact absurd rfl hload
      · exact .inr (.inl rfl)
      · exact absurd rfl htick
      · exact .inr (.inr (.inr rfl))
  · refine mem_functions_of_instance ?_
    rcases List.mem_append.1 hf with hf | hf
    · refine List.mem_append_left _ ?_
      simp only [List.mem_cons, List.not_mem_nil, or_false] at hf ⊢
      rcases hf with rfl | rfl | rfl | rfl | rfl
      · exact .inl rfl
      · exact absurd rfl hinit
      · exact .inr (.inr (.inl rfl))
      · exact absurd rfl hpause
      · exact .inr (.inr (.inr (.inr rfl)))
    · exact List.mem_append_right _ hf

/-- So are all other files. -/
theorem mem_files_of_subset (h : clips ⊆ clips') {key payload : String} {file : PackFile}
    (hmem : (key, file) ∈ s.files clips payload) (hother : key ∉ s.surveys.map (·.filePath)) :
    (key, file) ∈ s.files clips' payload := by
  refine (s.perm_files clips' payload).mem_iff.2 (List.mem_append.2 ?_)
  rcases List.mem_append.1 ((s.perm_files clips payload).mem_iff.1 hmem) with hmem | htext
  · obtain ⟨f, hf, heq⟩ := List.mem_map.1 hmem
    have hkey : f.1.filePath = key := congrArg Prod.fst heq
    exact .inl (heq ▸ List.mem_map_of_mem (mem_functions_of_subset h hf fun hsurvey =>
      hother (hkey ▸ List.mem_map_of_mem hsurvey)))
  · exact .inr htext

/-- Those functions are there as well, but what they do may differ. -/
theorem exists_mem_files_of_survey {key : String} (h : key ∈ s.surveys.map (·.filePath))
    (clips : List CompiledClip) (payload : String) :
    ∃ file, (key, file) ∈ s.files clips payload := by
  obtain ⟨path, hpath, rfl⟩ := List.mem_map.1 h
  have hnames : path ∈ (s.functions clips).map (·.1) := by
    rw [functions, List.append_assoc, List.map_append, map_fst_rigFunctions]
    refine List.mem_append_right _ (List.mem_append_left _ ?_)
    obtain ⟨name, hname, rfl⟩ := List.mem_map.1 hpath
    have hrig : ∀ name ∈ ["load", "on_tick", "init_instance", "pause_all"],
      name ∈ rigNames := by decide
    exact List.mem_map_of_mem (hrig name hname)
  obtain ⟨f, hf, rfl⟩ := List.mem_map.1 hnames
  exact ⟨.function f.1 f.2, (s.perm_files clips payload).mem_iff.2
    (List.mem_append_left _ (List.mem_map_of_mem hf))⟩

/-! ### Two packs -/

section Packs

variable {p q : Datapack}

/-- The files below an animation are the same in two packs that both have it. -/
theorem get?_eq_of_clip (hp : s.pack clips = .ok p) (hq : s.pack clips' = .ok q)
    (h : AreCompiled clips) (h' : AreCompiled clips') (hns : '/' ∉ s.names.namespaceName.toList)
    (hc : c ∈ clips) (hc' : c ∈ clips') (rest : String) :
    p.get? (s!"data/{s.names.namespaceName}/function/animations/{c.clip.pathName}/" ++ rest) =
      q.get? (s!"data/{s.names.namespaceName}/function/animations/{c.clip.pathName}/" ++ rest) := by
  obtain ⟨payload, -, hholds⟩ := holds_pack_render hp
  obtain ⟨payload', -, hholds'⟩ := holds_pack_render hq
  exact get?_eq_of_mem_iff hholds hholds' fun file =>
    (mem_files_iff_of_isBelow h hns hc).trans (mem_files_iff_of_isBelow h' hns hc').symm

/-- Two packs with the same animations have the same files, except those that go over
all of them. -/
theorem get?_eq_of_perm (hp : s.pack clips = .ok p) (hq : s.pack clips' = .ok q)
    (h : clips.Perm clips') {key : String} (hother : key ∉ s.surveys.map (·.filePath)) :
    p.get? key = q.get? key := by
  obtain ⟨payload, hpayload, hholds⟩ := holds_pack_render hp
  obtain ⟨payload', hpayload', hholds'⟩ := holds_pack_render hq
  obtain rfl := Except.ok.inj (hpayload.symm.trans hpayload')
  exact get?_eq_of_mem_iff hholds hholds' fun file =>
    ⟨fun hmem => mem_files_of_subset h.subset hmem hother,
      fun hmem => mem_files_of_subset h.symm.subset hmem hother⟩

/-- And they have files at the same paths. -/
theorem isSome_get?_of_perm (hp : s.pack clips = .ok p) (hq : s.pack clips' = .ok q)
    (h : clips.Perm clips') (key : String) : (p.get? key).isSome = (q.get? key).isSome := by
  by_cases hsurvey : key ∈ s.surveys.map (·.filePath)
  · have hthere : ∀ {clips p}, s.pack clips = .ok p → (p.get? key).isSome = true := by
      intro clips p hp
      obtain ⟨payload, -, hholds⟩ := holds_pack_render hp
      obtain ⟨file, hfile⟩ := exists_mem_files_of_survey hsurvey clips payload
      rw [(hholds key file).2 hfile, Option.isSome_some]
    rw [hthere hp, hthere hq]
  · rw [get?_eq_of_perm hp hq h hsurvey]

end Packs

end Stage

/-- Animations of which the names do not collide are compiled on their own, for everything that is
compiled.  Each of them is compiled alone to the same animation, the same tree and the same files
below it.  And they are compiled in any other order, with files at the same paths, which are the
same except those of the four functions that go over all animations. -/
theorem independence_of_compile (name : String) (nodes : List RigNode) (variants : List Variant)
    (animations : List Animation) (config : Config)
    (hpaths : (animations.map fun a => pathSafe a.name).Nodup)
    (hstorage : (animations.map fun a => storageSafe a.name).Nodup) :
    Ensures (Rig.build name nodes variants) fun rig =>
      Ensures (compile rig animations config) fun o =>
        (∀ (i : Nat) (a : Animation), animations[i]? = some a → ∃ c alone,
          o.clips[i]? = some c ∧ compile rig [a] config = .ok alone ∧ alone.clips = [c] ∧
          ∀ rest,
            alone.pack.get?
              (s!"data/{o.namespaceName}/function/animations/{pathSafe a.name}/" ++ rest) =
              o.pack.get?
                (s!"data/{o.namespaceName}/function/animations/{pathSafe a.name}/" ++ rest)) ∧
        ∀ reordered, reordered.Perm animations → ∃ o',
          compile rig reordered config = .ok o' ∧ o'.clips.Perm o.clips ∧
          (∀ path, (o'.pack.get? path).isSome = (o.pack.get? path).isSome) ∧
          ∀ path, path ∉ ["load", "on_tick", "init_instance", "pause_all"].map
              (fun name => (FunctionPath.mk o.namespaceName name).filePath) →
            o'.pack.get? path = o.pack.get? path := by
  refine Ensures.intro fun rig hbuild => Ensures.intro fun o hcompile => ?_
  have hrig : rig.IsBuilt := ⟨name, nodes, variants, hbuild⟩
  obtain ⟨s, rfl, rfl, hcompiles⟩ := Stage.exists_compiles hrig hcompile
  obtain ⟨rest, hcheck, hrest, hmakes, hpack, hns⟩ :=
    Stage.makes_of_compile hpaths hstorage hcompile
  have hfinite := Stage.isFiniteAtRest_of_pack hpack
  have hseparator : '/' ∉ o.namespaceName.toList := hcompiles.isStorageName.isPlainName.separator
  rw [hns] at hseparator
  constructor
  -- an animation alone is made in the same way, so that it compiles to the same clip
  · intro i a ha
    obtain ⟨hi, rfl⟩ := List.getElem?_eq_some_iff.1 ha
    have hi' : i < o.clips.length := hmakes.length_eq ▸ hi
    have hc := hmakes.get hi hi'
    rw [List.get_eq_getElem, List.get_eq_getElem] at hc
    have hone : List.Forall₂ (Stage.ofRig s.rig s.config rest).Makes [animations[i]] [o.clips[i]] :=
      .cons hc .nil
    have hpath : ([animations[i]].map fun a => pathSafe a.name).Nodup := List.nodup_singleton _
    have hstored : ([animations[i]].map fun a => storageSafe a.name).Nodup := List.nodup_singleton _
    obtain ⟨alone, halone, hclips, hcompiled, hpack'⟩ :=
      Stage.exists_compile_of_makes hrig hcheck hrest hfinite hpath hstored hone
    refine ⟨_, alone, List.getElem?_eq_getElem hi', halone, hclips, fun tail => ?_⟩
    rw [← hc.pathName, hns]
    exact Stage.get?_eq_of_clip hpack' hpack hcompiled hcompiles.areCompiled hseparator
      List.mem_cons_self
      (List.getElem_mem hi') tail
  · intro reordered hperm
    -- animations in another order are made into the same clips, in that order
    obtain ⟨clips, hmakes', hclips⟩ := List.perm_comp_forall₂ hperm hmakes
    obtain ⟨o', hcompile', rfl, -, hpack'⟩ :=
      Stage.exists_compile_of_makes hrig hcheck hrest hfinite
      ((hperm.map _).nodup_iff.2 hpaths) ((hperm.map _).nodup_iff.2 hstorage) hmakes'
    refine ⟨o', hcompile', hclips, Stage.isSome_get?_of_perm hpack' hpack hclips,
      fun path hother => ?_⟩
    -- only the four functions that survey all animations see the order
    refine Stage.get?_eq_of_perm hpack' hpack hclips fun hsurvey => hother ?_
    rw [hns]
    rwa [Stage.surveys, List.map_map] at hsurvey

/-- Two animations of a camera, the second of them alone, and both the other way round. -/
theorem independence_of_dolly : ∃ (o alone o' : Output) (c : CompiledClip),
    Rig.build "dolly" [⟨⟨1⟩, "camera", none, .camera, {}⟩] [] = .ok dolly ∧
    ([pan, tilt].map fun a => pathSafe a.name).Nodup ∧
    ([pan, tilt].map fun a => storageSafe a.name).Nodup ∧
    compile dolly [pan, tilt] {} = .ok o ∧ o.clips[1]? = some c ∧
    compile dolly [tilt] {} = .ok alone ∧ alone.clips = [c] ∧
    (∀ rest, alone.pack.get?
      (s!"data/{o.namespaceName}/function/animations/{pathSafe tilt.name}/" ++ rest) =
      o.pack.get? (s!"data/{o.namespaceName}/function/animations/{pathSafe tilt.name}/" ++ rest)) ∧
    compile dolly [tilt, pan] {} = .ok o' ∧
    o'.pack.get? (FunctionPath.mk o.namespaceName "tick").filePath =
      o.pack.get? (FunctionPath.mk o.namespaceName "tick").filePath := by
  obtain ⟨p, t, -, -, hpan, htilt, -⟩ := exists_sample_dolly
  obtain ⟨o, hcompile, -⟩ := exists_compile_dolly hpan htilt
  have hpaths : ([pan, tilt].map fun a => pathSafe a.name).Nodup := by decide
  have hstorage : ([pan, tilt].map fun a => storageSafe a.name).Nodup := by decide
  -- under names of their own, nothing of the rig and the animations is computed
  obtain ⟨nodes, hnodes⟩ : ∃ nodes : List RigNode, nodes = [⟨⟨1⟩, "camera", none, .camera, {}⟩] :=
    ⟨_, rfl⟩
  obtain ⟨animations, hanimations⟩ : ∃ animations, animations = [pan, tilt] := ⟨_, rfl⟩
  obtain ⟨rig, hrig⟩ : ∃ rig, rig = dolly := ⟨_, rfl⟩
  have hbuild : Rig.build "dolly" [⟨⟨1⟩, "camera", none, .camera, {}⟩] [] = .ok dolly := rfl
  rw [← hnodes, ← hrig] at hbuild
  rw [← hanimations] at hpaths hstorage
  rw [← hanimations, ← hrig] at hcompile
  have hsecond : animations[1]? = some tilt := by rw [hanimations]; rfl
  have hperm : [tilt, pan].Perm animations := hanimations ▸ .swap pan tilt []
  obtain ⟨hclips, hpacks⟩ :=
    ((independence_of_compile "dolly" nodes [] animations {} hpaths hstorage).apply hbuild).apply
      hcompile
  obtain ⟨c, alone, hc, halone, hone, hfiles⟩ := hclips 1 tilt hsecond
  obtain ⟨o', hcompile', -, -, hothers⟩ := hpacks [tilt, pan] hperm
  have hother : (FunctionPath.mk o.namespaceName "tick").filePath ∉
      ["load", "on_tick", "init_instance", "pause_all"].map
        fun name => (FunctionPath.mk o.namespaceName name).filePath := by
    intro hmem
    obtain ⟨name, hname, heq⟩ := List.mem_map.1 hmem
    rw [FunctionPath.filePath_inj heq] at hname
    revert hname
    decide
  have htick := hothers _ hother
  rw [hrig] at hbuild hcompile halone hcompile'
  rw [hanimations] at hpaths hstorage hcompile
  exact ⟨o, alone, o', c, hnodes ▸ hbuild, hpaths, hstorage, hcompile, hc, halone, hone,
    hfiles, hcompile', htick⟩

end Marionette
