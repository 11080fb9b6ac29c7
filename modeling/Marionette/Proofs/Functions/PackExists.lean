import Marionette.Proofs.Datum.Printer
import Marionette.Proofs.Functions.Pack
import Marionette.Proofs.Functions.Paths

/-!
# Making the pack of a rig

Making a pack fails only where two files have one path or where data cannot be written.  Neither
happens for animations that are compiled for one rig whose poses at rest are finite.

- `AreCompiled`: animations that are compiled for one rig.
- `Stage.nodup_functions`, `Stage.nodup_files`: all functions and all files have paths of their own.
- `Stage.exists_render_summonPayload_iff`: when the data of a new instance can be written.
- `Stage.isFiniteAtRest_of_pack`, `Stage.exists_unwritable`: making the pack fails where the poses
  at rest are not finite.
- `Stage.exists_pack`: elsewhere, making the pack and its world succeeds.
-/

namespace Marionette

open Datapack (functionFiles)

/-- The tree of an animation is built from its frames. -/
def CompiledClip.IsBuilt (c : CompiledClip) : Prop :=
  c.tree = .build c.clip.frames c.clip.duration

/-- Animations that are compiled for one rig. -/
structure AreCompiled (clips : List CompiledClip) : Prop where
  built : ∀ c ∈ clips, c.IsBuilt
  pathName : ∀ c ∈ clips, '/' ∉ c.clip.pathName.toList
  nodup_pathNames : (clips.map (·.clip.pathName)).Nodup
  nodup_storageNames : (clips.map (·.clip.storageName)).Nodup

/-- A single animation is compiled for one rig if its own tree and name are right. -/
theorem areCompiled_singleton {c : CompiledClip} (hbuilt : c.IsBuilt)
    (hname : '/' ∉ c.clip.pathName.toList) : AreCompiled [c] where
  built := fun c' hc' => List.mem_singleton.1 hc' ▸ hbuilt
  pathName := fun c' hc' => List.mem_singleton.1 hc' ▸ hname
  nodup_pathNames := by simp
  nodup_storageNames := by simp

namespace FunctionPath

variable {ns path path' : String}

/-- The file of a function is made of its namespace and its path. -/
theorem toList_filePath (ns path : String) :
    (FunctionPath.mk ns path).filePath.toList =
      "data/".toList ++
      (ns.toList ++ ("/function/".toList ++ (path.toList ++ ".mcfunction".toList))) := by
  show ("data/" ++ ns ++ "/function/" ++ path ++ ".mcfunction").toList = _
  simp

/-- Two functions of a namespace do not share a file. -/
theorem filePath_inj
    (h : (FunctionPath.mk ns path).filePath = (FunctionPath.mk ns path').filePath) :
    path = path' := by
  have hl := congrArg String.toList h
  rw [toList_filePath, toList_filePath] at hl
  have hpath := List.append_cancel_left (List.append_cancel_left (List.append_cancel_left hl))
  exact String.toList_inj.1 (List.append_cancel_right hpath)

end FunctionPath

namespace ClipPaths

variable {ns : String} {clip clip' : Clip} {k k' : ClipKey}

/-- The path of a function of an animation. -/
theorem toList_path_at (ns : String) (clip : Clip) (k : ClipKey) :
    ((ofClip ns clip).at k).path.toList =
      "animations/".toList ++ (clip.pathName.toList ++ '/' :: k.segment.toList) := by
  show ("animations/" ++ clip.pathName ++ "/" ++ k.segment).toList = _
  simp

/-- Such a path tells which animation it is and which function, as the name of the animation has
no separator. -/
theorem at_inj (hclip : '/' ∉ clip.pathName.toList) (hclip' : '/' ∉ clip'.pathName.toList)
    (h : (ofClip ns clip).at k = (ofClip ns clip').at k') :
    clip.pathName = clip'.pathName ∧ k.segment = k'.segment := by
  have hl := congrArg (fun f : FunctionPath => f.path.toList) h
  rw [toList_path_at, toList_path_at] at hl
  obtain ⟨hname, hsegment⟩ := eq_of_append_separator hclip hclip' (List.append_cancel_left hl)
  exact ⟨String.toList_inj.1 hname, String.toList_inj.1 hsegment⟩

end ClipPaths

namespace Stage

variable {s : Stage} {clips : List CompiledClip} {p : Datapack} {old : List (String × PackFile)}

/-- Each function of an animation has a key. -/
theorem namespaceName_clipFunctions {c : CompiledClip} {f : GeneratedFunction}
    (hf : f ∈ s.clipFunctions c.clip c.tree) :
    ∃ k ∈ ClipKey.ofClip c.tree, f.1 = (ClipPaths.ofClip s.names.namespaceName c.clip).at k := by
  have hmem := (s.map_fst_clipFunctions_sublist c.clip c.tree).subset (List.mem_map_of_mem hf)
  obtain ⟨k, hk, heq⟩ := List.mem_map.1 hmem
  exact ⟨k, hk, heq.symm⟩

/-- The functions of the animations are distinct. -/
theorem nodup_clipFunctions (h : AreCompiled clips) :
    ((clips.flatMap fun c => s.clipFunctions c.clip c.tree).map (·.1)).Nodup := by
  rw [List.map_flatMap]
  refine List.pairwise_flatMap.2 ⟨fun c hc => ?_, ?_⟩
  · refine List.Nodup.sublist (s.map_fst_clipFunctions_sublist c.clip c.tree) ?_
    have hkeys : (ClipKey.ofClip c.tree).Nodup := h.built c hc ▸ ClipKey.nodup_ofClip _ _
    refine List.pairwise_map.2 (hkeys.imp_of_mem fun hk hk' hne heq => hne ?_)
    exact ClipKey.segment_inj (ClipKey.isSingle_of_mem_ofClip hk)
      (ClipKey.isSingle_of_mem_ofClip hk')
        (ClipPaths.at_inj (h.pathName c hc) (h.pathName c hc) heq).2
  · have hnames := List.pairwise_map.1 h.nodup_pathNames
    refine hnames.imp_of_mem fun {c c'} hc hc' hne => ?_
    intro x hx y hy heq
    obtain ⟨f, hf, rfl⟩ := List.mem_map.1 hx
    obtain ⟨f', hf', rfl⟩ := List.mem_map.1 hy
    obtain ⟨k, -, hk⟩ := namespaceName_clipFunctions hf
    obtain ⟨k', -, hk'⟩ := namespaceName_clipFunctions hf'
    rw [hk, hk'] at heq
    exact hne (ClipPaths.at_inj (h.pathName c hc) (h.pathName c' hc') heq).1

/-- The names of the functions of the rig itself, without those that show variants. -/
def rigNames : List String :=
  ["load", "tick", "on_tick", "tween_step", "summon", "init_instance", "remove", "pause_all",
    "sync_interpolation"]

/-- The paths of the functions of the rig. -/
theorem map_fst_rigFunctions (s : Stage) (clips : List Clip) :
    (s.tickFunctions clips ++ s.instanceFunctions clips).map (·.1) =
      rigNames.map s.function ++ s.rig.variants.map fun v => s.variantApply v.2 := by
  simp only [tickFunctions, instanceFunctions, rigNames, List.map_cons, List.map_nil, List.map_map,
    List.cons_append, List.nil_append]
  rfl

/-- The path of the function for a variant. -/
theorem toList_path_variantApply (s : Stage) (name : String) :
    (s.variantApply name).path.toList = "variants/".toList ++ (name.toList ++ "/apply".toList) := by
  show ("variants/" ++ name ++ "/apply").toList = _
  simp

/-- The functions of the rig itself are distinct. -/
theorem nodup_rigFunctions (hv : (s.rig.variants.map (·.2)).Nodup) (clips : List Clip) :
    ((s.tickFunctions clips ++ s.instanceFunctions clips).map (·.1)).Nodup := by
  have hnames : rigNames.Nodup := by decide
  have hsingle : ∀ name ∈ rigNames, '/' ∉ name.toList := by decide
  rw [map_fst_rigFunctions]
  refine List.nodup_append.2 ⟨?_, ?_, ?_⟩
  · refine List.Pairwise.map _ (fun a b hab heq => hab ?_) hnames
    exact congrArg FunctionPath.path heq
  · refine List.pairwise_map.2 ((List.pairwise_map.1 hv).imp fun hne heq => hne ?_)
    have hl := congrArg (fun f : FunctionPath => f.path.toList) heq
    rw [toList_path_variantApply, toList_path_variantApply] at hl
    exact String.toList_inj.1 (List.append_cancel_right (List.append_cancel_left hl))
  · intro a ha b hb heq
    obtain ⟨name, hname, rfl⟩ := List.mem_map.1 ha
    obtain ⟨v, -, rfl⟩ := List.mem_map.1 hb
    have hl := congrArg (fun f : FunctionPath => f.path.toList) heq
    rw [toList_path_variantApply] at hl
    refine hsingle name hname ?_
    show '/' ∈ (s.function name).path.toList
    rw [hl]
    simp

/-- All functions are distinct. -/
theorem nodup_functions (hv : (s.rig.variants.map (·.2)).Nodup) (h : AreCompiled clips) :
    ((s.functions clips).map (·.1)).Nodup := by
  rw [functions, List.append_assoc, List.map_append]
  refine List.nodup_append.2 ⟨nodup_clipFunctions h, nodup_rigFunctions hv _, ?_⟩
  intro a ha b hb heq
  obtain ⟨f, hf, rfl⟩ := List.mem_map.1 ha
  obtain ⟨c, -, hf⟩ := List.mem_flatMap.1 hf
  obtain ⟨k, -, hk⟩ := namespaceName_clipFunctions hf
  rw [hk] at heq
  have hl := congrArg (fun f : FunctionPath => f.path.toList) heq
  rw [ClipPaths.toList_path_at] at hl
  rw [map_fst_rigFunctions] at hb
  rcases List.mem_append.1 hb with hb | hb
  · obtain ⟨name, hname, rfl⟩ := List.mem_map.1 hb
    have hsingle : ∀ name ∈ rigNames, '/' ∉ name.toList := by decide
    refine hsingle name hname ?_
    show '/' ∈ (s.function name).path.toList
    rw [← hl]
    simp
  · obtain ⟨v, -, rfl⟩ := List.mem_map.1 hb
    rw [toList_path_variantApply] at hl
    simp at hl

/-- All functions lie in one name space. -/
theorem namespaceName_functions {f : GeneratedFunction} (hf : f ∈ s.functions clips) :
    f.1.namespaceName = s.names.namespaceName := by
  rw [functions, List.append_assoc] at hf
  rcases List.mem_append.1 hf with hf | hf
  · obtain ⟨c, -, hf⟩ := List.mem_flatMap.1 hf
    obtain ⟨k, -, hk⟩ := namespaceName_clipFunctions hf
    rw [hk]
    rfl
  · have hmem := List.mem_map_of_mem (f := (·.1)) hf
    rw [map_fst_rigFunctions] at hmem
    rcases List.mem_append.1 hmem with hmem | hmem
    · obtain ⟨name, -, hname⟩ := List.mem_map.1 hmem
      rw [← hname]
      rfl
    · obtain ⟨v, -, hv⟩ := List.mem_map.1 hmem
      rw [← hv]
      rfl

/-- The other files of the pack. -/
def textFiles (s : Stage) (payload : String) : List (String × PackFile) :=
  [(s!"data/{s.names.namespaceName}/rigbake/summon.snbt", .text (payload ++ "\n")),
    ("data/minecraft/tags/function/tick.json", .text ((s.functionTag "tick").pretty ++ "\n")),
    ("data/minecraft/tags/function/load.json", .text ((s.functionTag "load").pretty ++ "\n")),
    ("pack.mcmeta", .text (s.packMeta.pretty ++ "\n"))]

/-- The files of a rig, in whatever order they come, are its functions and four texts. -/
theorem perm_files (s : Stage) (clips : List CompiledClip) (payload : String) :
    (s.files clips payload).Perm
      (functionFiles (s.functions clips) ++ s.textFiles payload) := by
  have hfunctions : functionFiles (s.functions clips) =
      clips.flatMap (fun c => functionFiles (s.clipFunctions c.clip c.tree)) ++
        functionFiles (s.tickFunctions (clips.map (·.clip))) ++
        functionFiles (s.instanceFunctions (clips.map (·.clip))) := by
    simp only [functionFiles, functions, List.map_append, List.map_flatMap]
  rw [hfunctions, files, rigFiles, textFiles]
  simp only [List.append_assoc, List.cons_append, List.nil_append]
  refine List.Perm.append_left _ (List.Perm.append_left _ ?_)
  exact List.perm_middle.symm

/-- Every function has its file in the pack. -/
theorem get?_of_mem_functions (h : s.pack clips = .ok p) {f : GeneratedFunction}
    (hf : f ∈ s.functions clips) : p.get? f.1.filePath = some (.function f.1 f.2) := by
  obtain ⟨payload, hholds⟩ := holds_pack h
  refine (hholds _ _).2 ((s.perm_files clips payload).mem_iff.2 ?_)
  exact List.mem_append_left _ (List.mem_map_of_mem hf)

/-- Conversely, a file with a function is the file of one of the functions. -/
theorem mem_functions_of_get? (h : s.pack clips = .ok p) {path : String} {f : FunctionPath}
    {commands : List Command} (hfile : p.get? path = some (.function f commands)) :
    (f, commands) ∈ s.functions clips ∧ path = f.filePath := by
  obtain ⟨payload, hholds⟩ := holds_pack h
  have hmem := (s.perm_files clips payload).mem_iff.1 ((hholds _ _).1 hfile)
  rcases List.mem_append.1 hmem with hmem | hmem
  · obtain ⟨⟨f', commands'⟩, hg, heq⟩ := List.mem_map.1 hmem
    cases heq
    exact ⟨hg, rfl⟩
  · simp [textFiles] at hmem

/-- The path of the text that can be used for summoning. -/
theorem toList_summonFile (ns : String) :
    s!"data/{ns}/rigbake/summon.snbt".toList =
      "data/".toList ++ (ns.toList ++ "/rigbake/summon.snbt".toList) := by
  show ("data/" ++ ns ++ "/rigbake/summon.snbt").toList = _
  simp

/-- The four texts lie at different paths. -/
theorem nodup_textFiles (s : Stage) (payload : String) :
    ((s.textFiles payload).map (·.1)).Nodup := by
  have hend : ∀ ns : String, (s!"data/{ns}/rigbake/summon.snbt".toList).getLast? = some 't' := by
    intro ns
    rw [toList_summonFile, ← List.append_assoc, List.getLast?_append]
    simp
  have hsummon : ∀ text ∈ ["data/minecraft/tags/function/tick.json",
      "data/minecraft/tags/function/load.json", "pack.mcmeta"],
      s!"data/{s.names.namespaceName}/rigbake/summon.snbt" ≠ text := by
    intro text htext heq
    have hlast := heq ▸ hend s.names.namespaceName
    simp only [List.mem_cons, List.not_mem_nil, or_false] at htext
    rcases htext with rfl | rfl | rfl <;> revert hlast <;> decide
  refine List.nodup_cons.2 ⟨fun hmem => hsummon _ hmem rfl, ?_⟩
  show ["data/minecraft/tags/function/tick.json", "data/minecraft/tags/function/load.json",
    "pack.mcmeta"].Nodup
  decide

/-- No function lies at the path of another file. -/
theorem filePath_ne_textFile {ns path text : String} (payload : String)
    (hns : s.names.namespaceName = ns) (h : text ∈ (s.textFiles payload).map (·.1)) :
    (FunctionPath.mk ns path).filePath ≠ text := by
  subst hns
  intro heq
  have hl := congrArg (fun t => t.toList.reverse) heq
  simp only [FunctionPath.toList_filePath] at hl
  simp only [textFiles, List.map_cons, List.map_nil, List.mem_cons, List.not_mem_nil, or_false] at h
  rcases h with rfl | rfl | rfl | rfl
  · rw [toList_summonFile] at hl
    simp at hl
  · simp at hl
  · simp at hl
  · simp at hl

/-- Distinct functions of one name space lie at distinct paths. -/
theorem nodup_functionFiles {ns : String} {functions : List GeneratedFunction}
    (hns : ∀ f ∈ functions, f.1.namespaceName = ns) (h : (functions.map (·.1)).Nodup) :
    ((functionFiles functions).map (·.1)).Nodup := by
  rw [functionFiles, List.map_map]
  refine List.pairwise_map.2 ((List.pairwise_map.1 h).imp_of_mem ?_)
  intro f f' hf hf' hne heq
  obtain ⟨⟨ns, path⟩, body⟩ := f
  obtain ⟨⟨ns', path'⟩, body'⟩ := f'
  obtain rfl : ns = ns' := (hns _ hf).trans (hns _ hf').symm
  exact hne (congrArg (FunctionPath.mk ns) (FunctionPath.filePath_inj heq))

/-- The paths of all files are distinct. -/
theorem nodup_files (hv : (s.rig.variants.map (·.2)).Nodup) (h : AreCompiled clips)
    (payload : String) : ((s.files clips payload).map (·.1)).Nodup := by
  rw [((s.perm_files clips payload).map _).nodup_iff, List.map_append]
  refine List.nodup_append.2 ⟨?_, s.nodup_textFiles payload, ?_⟩
  · exact nodup_functionFiles (fun f => namespaceName_functions) (nodup_functions hv h)
  · intro a ha b hb
    rw [functionFiles, List.map_map] at ha
    obtain ⟨f, hf, rfl⟩ := List.mem_map.1 ha
    exact filePath_ne_textFile payload (namespaceName_functions hf).symm hb

/-- The functions of a single animation never have a path in common. -/
theorem exists_clipPack {c : CompiledClip} (hbuilt : c.IsBuilt)
    (hname : '/' ∉ c.clip.pathName.toList) : ∃ own, s.clipPack c.clip c.tree = .ok own := by
  have hdistinct := nodup_clipFunctions (s := s) (areCompiled_singleton hbuilt hname)
  rw [List.flatMap_singleton] at hdistinct
  have hns : ∀ f ∈ s.clipFunctions c.clip c.tree, f.1.namespaceName = s.names.namespaceName := by
    intro f hf
    obtain ⟨k, -, hk⟩ := namespaceName_clipFunctions hf
    rw [hk]
    rfl
  exact Datapack.exists_addFunctions (nodup_functionFiles hns hdistinct)

/-- The pack of the rig alone can be built. -/
theorem exists_rigPack {clips : List Clip}
    (hpayload : ∃ t, s.summonPayload.render .indented = .ok t)
    (hdistinct : ∀ payload, ((s.rigFiles clips payload).map (·.1)).Nodup) :
    ∃ p payload, s.rigPack clips = .ok p ∧ p.Holds (s.rigFiles clips payload) := by
  obtain ⟨payload, hrender⟩ := hpayload
  -- each step adds a part of the files, and the parts so far have distinct paths
  have hnodup := hdistinct payload
  rw [rigFiles] at hnodup
  have h₃ := hnodup.sublist ((List.sublist_append_left _ _).map _)
  have h₁ := h₃.sublist ((List.sublist_append_left _ _).map _)
  have h₀ := h₁.sublist ((List.sublist_append_left _ _).map _)
  obtain ⟨p₁, hp₁, holds₁⟩ := Datapack.holds_empty.exists_addFiles h₀
  obtain ⟨p₂, hp₂, holds₂⟩ := holds₁.exists_addFiles h₁
  obtain ⟨p₃, hp₃, holds₃⟩ := holds₂.exists_addFiles h₃
  obtain ⟨p₄, hp₄, holds₄⟩ := holds₃.exists_addFiles hnodup
  refine ⟨p₄, payload, ?_, holds₄⟩
  have hticks := (Datapack.addFunctions_eq _ (s.tickFunctions clips)).trans hp₁
  have hinstance := (Datapack.addFunctions_eq _ (s.instanceFunctions clips)).trans hp₃
  rw [Datapack.addFiles_singleton] at hp₂
  rw [Datapack.addFiles_cons] at hp₄
  obtain ⟨p₅, hp₅, hp₄⟩ := exists_of_bind_ok hp₄
  rw [Datapack.addFiles_cons] at hp₄
  obtain ⟨p₆, hp₆, hp₄⟩ := exists_of_bind_ok hp₄
  rw [Datapack.addFiles_singleton] at hp₄
  rw [rigPack, hticks, hrender]
  simp only [Datapack.addText, Datapack.addJson]
  show (orFail (p₁.add _ _) >>= _) = _
  rw [hp₂]
  show (orFail (p₂.addFunctions _) >>= _) = _
  rw [hinstance]
  show (orFail (p₃.add _ _) >>= _) = _
  rw [hp₅]
  show (orFail (p₅.add _ _) >>= _) = _
  rw [hp₆]
  show orFail (p₆.add _ _) = _
  rw [hp₄]
  rfl

/-- The packs of animations can be added one by one. -/
theorem exists_addClips (hp : p.Holds old)
    (h : ((old ++ clips.flatMap fun c => functionFiles (s.clipFunctions c.clip c.tree)).map
      (·.1)).Nodup) :
    ∃ q, s.addClips p clips = .ok q := by
  induction clips generalizing p old with
  | nil => exact ⟨p, rfl⟩
  | cons c rest ih =>
    rw [List.flatMap_cons, ← List.append_assoc] at h
    -- the files so far and those of this animation have distinct paths, as all files have
    have hhere := h.sublist ((List.sublist_append_left _ _).map _)
    have hown : ((functionFiles (s.clipFunctions c.clip c.tree)).map (·.1)).Nodup :=
      hhere.sublist ((List.sublist_append_right _ _).map _)
    obtain ⟨own, hown⟩ : ∃ own, s.clipPack c.clip c.tree = .ok own :=
      Datapack.exists_addFunctions hown
    obtain ⟨next, hnext, holds⟩ := hp.exists_extend (holds_clipPack hown) hhere
    obtain ⟨q, hq⟩ := ih holds h
    refine ⟨q, ?_⟩
    rw [addClips, List.foldlM_cons, hown]
    show (p.extend own >>= fun p => s.addClips p rest) = .ok q
    rw [hnext]
    exact hq

/-- The matrix of every node with an entity is finite at rest, in single precision. -/
def IsFiniteAtRest (s : Stage) : Prop :=
  ∀ p ∈ s.rig.slots.toList.zip s.rest, p.1.node.kind.hasEntity = true →
    ∀ x ∈ p.2.matrix.toList, (toSingle x).isFinite = true

/-- The data of an item is finite. -/
theorem isFinite_itemData (model : String) : (itemData model).IsFinite := by
  simp [itemData, Datum.IsFinite, Datum.EntriesFinite]

/-- What an entity contains, apart from its pose, is finite. -/
theorem isFinite_contents (s : Stage) (node : RigNode) : ∀ e ∈ s.contents node, e.2.IsFinite := by
  intro e he
  unfold contents at he
  split at he
  · obtain ⟨model, -, rfl⟩ := List.mem_map.1 he
    exact isFinite_itemData model
  · rw [List.mem_singleton.1 he]
    exact isFinite_itemData _
  · rw [List.mem_singleton.1 he]
    simp [Datum.IsFinite, Datum.EntriesFinite]
  · rw [List.mem_singleton.1 he]
    simp [Datum.IsFinite]
  · cases he
  · cases he

/-- The data of an entity can be written if and only if its pose is finite. -/
theorem isFinite_passenger_iff {slot : Slot} {pose : Pose} {data : Compound}
    (h : s.passenger? slot pose = some data) :
    (Datum.compound data).IsFinite ↔
      ∀ x ∈ pose.matrix.toList, (toSingle x).isFinite = true := by
  dsimp only [passenger?] at h
  cases hentity : slot.node.kind.hasEntity with
  | false =>
    rw [hentity] at h
    cases h
  | true =>
    rw [hentity] at h
    cases h
    -- there is an entity: apart from the matrix its data is always finite
    have hmatrix : (transformation pose.matrix).IsFinite ↔
        ∀ x ∈ pose.matrix.toList, (toSingle x).isFinite = true := by
      simp [transformation, Datum.floats, Datum.IsFinite, Datum.allFinite_iff]
    rw [Datum.IsFinite, Datum.entriesFinite_iff, ← hmatrix]
    constructor
    · exact fun hall => hall ("transformation", transformation pose.matrix) (by simp)
    · intro hpose e he
      simp only [List.mem_append, List.mem_cons, List.not_mem_nil, or_false] at he
      rcases he with ((rfl | rfl) | he) | rfl | rfl
      · simp [Datum.IsFinite]
      · simp [Datum.strings, Datum.IsFinite, Datum.AllFinite]
      · exact isFinite_contents s slot.node e he
      · exact hpose
      · simp [Datum.IsFinite]

/-- The data of a new instance can be written if and only if the poses at rest are finite. -/
theorem exists_render_summonPayload_iff :
    (∃ t, s.summonPayload.render .indented = .ok t) ↔ s.IsFiniteAtRest := by
  have hentries : (∀ e ∈ s.summonPayload, e.2.IsFinite) ↔
      ∀ data ∈ (s.rig.slots.toList.zip s.rest).filterMap fun p => s.passenger? p.1 p.2,
        (Datum.compound data).IsFinite := by
    rw [summonPayload, List.forall_mem_cons, List.forall_mem_singleton, Datum.IsFinite,
      Datum.allFinite_iff, List.forall_mem_map]
    exact and_iff_right (by simp [Datum.strings, Datum.IsFinite, Datum.AllFinite])
  rw [Compound.exists_render_iff, hentries]
  constructor
  · intro hall p hp hentity
    have hdata : ∃ data, s.passenger? p.1 p.2 = some data := by
      rw [passenger?, hentity]
      exact ⟨_, rfl⟩
    obtain ⟨data, hdata⟩ := hdata
    exact (isFinite_passenger_iff hdata).1 (hall data (List.mem_filterMap.2 ⟨p, hp, hdata⟩))
  · intro hfinite data hmem
    obtain ⟨p, hp, hdata⟩ := List.mem_filterMap.1 hmem
    refine (isFinite_passenger_iff hdata).2 (hfinite p hp ?_)
    by_cases hentity : p.1.node.kind.hasEntity = true
    · exact hentity
    · rw [passenger?, if_neg hentity] at hdata
      cases hdata

/-- A pack is made only where the poses at rest are finite. -/
theorem isFiniteAtRest_of_pack (h : s.pack clips = .ok p) : s.IsFiniteAtRest := by
  obtain ⟨clipsPack, -, h⟩ := exists_of_bind_ok h
  obtain ⟨rigPack, hrig, -⟩ := exists_of_bind_ok h
  obtain ⟨ticks, -, hrig⟩ := exists_of_bind_ok hrig
  obtain ⟨payload, hpayload, -⟩ := exists_of_bind_ok hrig
  exact exists_render_summonPayload_iff.1 ⟨payload, orUnwritable_eq_ok.1 hpayload⟩

/-- Making the pack succeeds where the poses at rest can be written. -/
theorem exists_pack_of_isFiniteAtRest (hv : (s.rig.variants.map (·.2)).Nodup)
    (h : AreCompiled clips) (hfinite : s.IsFiniteAtRest) : ∃ p, s.pack clips = .ok p := by
  have hnodup := fun payload => nodup_files hv h payload
  have hrig : ∀ payload, ((s.rigFiles (clips.map (·.clip)) payload).map (·.1)).Nodup :=
    fun payload => (hnodup payload).sublist ((List.sublist_append_right _ _).map _)
  have hclips := (hnodup "").sublist ((List.sublist_append_left _ _).map _)
  obtain ⟨rigPack, payload, hrigPack, holdsRig⟩ :=
    exists_rigPack (exists_render_summonPayload_iff.2 hfinite) hrig
  obtain ⟨clipsPack, hclipsPack⟩ := exists_addClips Datapack.holds_empty hclips
  have holdsClips := holds_addClips Datapack.holds_empty hclipsPack
  obtain ⟨p, hp, -⟩ := holdsClips.exists_extend holdsRig (hnodup payload)
  refine ⟨p, ?_⟩
  rw [pack, hclipsPack, hrigPack]
  show orFail (clipsPack.extend rigPack) = _
  rw [hp]
  rfl

/-- Elsewhere it fails because they cannot be written. -/
theorem exists_unwritable (hv : (s.rig.variants.map (·.2)).Nodup) (h : AreCompiled clips)
    (hfinite : ¬ s.IsFiniteAtRest) : ∃ f, s.pack clips = .error (.unwritable f) := by
  have hnodup := nodup_files hv h ""
  have hclips := hnodup.sublist ((List.sublist_append_left _ _).map _)
  obtain ⟨clipsPack, hclipsPack⟩ := exists_addClips Datapack.holds_empty hclips
  have hrig := hnodup.sublist ((List.sublist_append_right _ _).map _)
  rw [rigFiles, List.append_assoc, List.append_assoc] at hrig
  obtain ⟨ticks, hticks⟩ :=
    Datapack.exists_addFunctions (hrig.sublist ((List.sublist_append_left _ _).map _))
  rw [← exists_render_summonPayload_iff] at hfinite
  cases hrender : s.summonPayload.render .indented with
  | ok t => exact absurd ⟨t, hrender⟩ hfinite
  | error f =>
    have hrigPack : s.rigPack (clips.map (·.clip)) = .error (.unwritable f) := by
      rw [rigPack, hticks, hrender]
      rfl
    exact ⟨f, by rw [pack, hclipsPack, hrigPack]; rfl⟩

/-- Making the pack and its world succeeds where the poses at rest can be written. -/
theorem exists_pack (hns : IsStorageName s.names.namespaceName)
    (hv : (s.rig.variants.map (·.2)).Nodup) (h : AreCompiled clips)
    (hfinite : s.IsFiniteAtRest) :
    ∃ p w, s.pack clips = .ok p ∧ World.ofPack p = .ok w := by
  obtain ⟨p, hpack⟩ := exists_pack_of_isFiniteAtRest hv h hfinite
  obtain ⟨htick, hload⟩ := readTag_pack hns hpack
  refine ⟨p, ⟨.ofList p.functions, [s.function "tick"], [s.function "load"], #[], {}, {}, {}, #[],
    defaultMaxDepth, 0⟩, hpack, ?_⟩
  rw [World.ofPack, htick, hload]
  rfl

/-- A rig without nodes. -/
def nodeless : Stage := ⟨⟨"rig", #[], []⟩, {}, ⟨"rig"⟩, []⟩

/-- Making the pack of a single animation of a rig without nodes succeeds. -/
theorem exists_pack_nodeless (c : CompiledClip) (hbuilt : c.IsBuilt)
    (hname : '/' ∉ c.clip.pathName.toList) :
    ∃ p w, nodeless.pack [c] = .ok p ∧ World.ofPack p = .ok w := by
  exact exists_pack ⟨by decide, List.all_eq_true.1 rfl⟩ List.nodup_nil
    (areCompiled_singleton hbuilt hname)
    fun b hb => nomatch hb

end Stage

end Marionette
