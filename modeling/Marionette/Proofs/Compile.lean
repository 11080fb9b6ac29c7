import Marionette.Proofs.Config
import Marionette.Proofs.Instance.Playback
import Marionette.Proofs.Sampling.Lossless

/-!
# What is compiled

- `Config.isStorageName_of_check`: the name space of settings that are not refused is safe.
- `allocateClipNames_eq`: the names of animations are handed out in order.
- `Stage.Compiles`: an output is the pack of a rig with animations that are compiled for it.
- `Stage.exists_compiles`: every compilation that succeeds ends in such an output.
- `Stage.Compiles.exists_summons`: an output can be loaded and asked for an instance that is ready
  to play.
-/

namespace Marionette

/-! ### Names -/

/-- Tweens of settings that are not refused take a tick at least, and their name space is not
refused. -/
theorem Config.bounds_of_check {c : Config} (h : c.check = .ok ()) :
    1 ≤ c.tweenDuration ∧ c.checkNamespace = .ok () := by
  obtain ⟨-, -, htween, hnamespace, -⟩ := check_eq_ok_iff.1 h
  exact ⟨Nat.one_le_iff_ne_zero.2 htween, hnamespace⟩

/-- A name space that is set in settings that are not refused is safe. -/
theorem Config.isStorageName_of_check {c : Config} {name : String} (h : c.check = .ok ())
    (hname : c.namespaceName = some name) : IsStorageName name := by
  obtain ⟨-, hnamespace⟩ := bounds_of_check h
  rw [checkNamespace_eq, hname] at hnamespace
  dsimp only at hnamespace
  refine Classical.byContradiction fun hunsafe => ?_
  rw [if_neg hunsafe] at hnamespace
  cases hnamespace

/-- The name of a single animation is free. -/
theorem allocateClipNames_singleton (a : Animation) :
    (allocateClipNames {} {} [a]).1 = [⟨pathSafe a.name, storageSafe a.name⟩] := by
  simp [allocateClipNames, NameAllocator.allocate]

/-- The names of animations are handed out in order. -/
theorem allocateClipNames_eq (paths storage : NameAllocator) (animations : List Animation) :
    (allocateClipNames paths storage animations).1.map (·.path) =
        paths.allocateAll (animations.map fun a => pathSafe a.name) ∧
      (allocateClipNames paths storage animations).1.map (·.storage) =
        storage.allocateAll (animations.map fun a => storageSafe a.name) := by
  induction animations generalizing paths storage with
  | nil => exact ⟨rfl, rfl⟩
  | cons a animations ih =>
    obtain ⟨hpaths, hstorage⟩ := ih (paths.allocate (pathSafe a.name)).2
      (storage.allocate (storageSafe a.name)).2
    constructor
    · exact congrArg ((paths.allocate (pathSafe a.name)).1.1 :: ·) hpaths
    · exact congrArg ((storage.allocate (storageSafe a.name)).1.1 :: ·) hstorage

theorem length_allocateClipNames (paths storage : NameAllocator) (animations : List Animation) :
    (allocateClipNames paths storage animations).1.length = animations.length := by
  have hnames := congrArg List.length (allocateClipNames_eq paths storage animations).1
  rwa [List.length_map, NameAllocator.length_allocateAll, List.length_map] at hnames

/-- The path names that are handed out are plain. -/
theorem isPlainName_path {paths storage : NameAllocator} {animations : List Animation}
    {names : ClipNames} (h : names ∈ (allocateClipNames paths storage animations).1) :
    IsPlainName names.path := by
  have hpath : names.path ∈ paths.allocateAll (animations.map fun a => pathSafe a.name) := by
    rw [← (allocateClipNames_eq paths storage animations).1]
    exact List.mem_map_of_mem h
  refine paths.isPlainName_of_mem_allocateAll ?_ _ hpath
  intro base hbase
  obtain ⟨a, -, rfl⟩ := List.mem_map.1 hbase
  exact isPlainName_pathSafe a.name

namespace Stage

variable {s : Stage} {rig : Rig} {animations : List Animation} {config : Config} {o : Output}

/-- An output is the pack of a rig with animations that are compiled for it. -/
structure Compiles (s : Stage) (o : Output) : Prop where
  namespaceName : s.names.namespaceName = o.namespaceName
  isStorageName : IsStorageName o.namespaceName
  rest : restPoses s.rig s.config = .ok s.rest
  areCompiled : AreCompiled o.clips
  isPlainName : ∀ c ∈ o.clips, IsPlainName c.clip.pathName
  isSparse : ∀ c ∈ o.clips, c.clip.IsSparse
  duration_le : ∀ c ∈ o.clips, c.clip.duration ≤ 2147483647
  still : ∀ c ∈ o.clips, ∀ uuid ∉ c.clip.modifiedNodes, ∀ tick, c.clip.entryAt? uuid tick = none
  pack : s.pack o.clips = .ok o.pack

/-- What an animation is compiled to. -/
theorem compileClip_eq {a : Animation} {names : ClipNames} {c : CompiledClip} {pack : Datapack}
    {remarks : List Diagnostic} (h : s.compileClip a names = .ok (c, pack, remarks)) :
    sample s.rig a s.config names = .ok (c.clip, remarks) ∧ c.IsBuilt ∧
      s.clipPack c.clip c.tree = .ok pack := by
  obtain ⟨⟨clip, w⟩, hclip, h⟩ := exists_of_bind_ok h
  obtain ⟨own, hown, h⟩ := exists_of_bind_ok h
  cases h
  exact ⟨hclip, rfl, hown⟩

/-- Adding packs that were made before is the same as making them on the way. -/
theorem addClips_eq (p : Datapack) {compiled : List (CompiledClip × Datapack × List Diagnostic)}
    (h : ∀ c ∈ compiled, s.clipPack c.1.clip c.1.tree = .ok c.2.1) :
    s.addClips p (compiled.map (·.1)) = compiled.foldlM (fun pack c => pack.extend c.2.1) p := by
  induction compiled generalizing p with
  | nil => rfl
  | cons c rest ih =>
    have hc := h c List.mem_cons_self
    have hrest : ∀ next, s.addClips next (rest.map (·.1)) = _ := fun next =>
      ih next fun c' hc' => h c' (List.mem_cons_of_mem _ hc')
    rw [addClips, List.map_cons, List.foldlM_cons, List.foldlM_cons, hc]
    exact bind_congr hrest

/-- Animations that are compiled with names that were handed out are compiled for one rig. -/
theorem areCompiled_of_forall₂ {paths storage : NameAllocator}
    {compiled : List (CompiledClip × Datapack × List Diagnostic)}
    (h : List.Forall₂ (fun p c => s.compileClip p.1 p.2 = .ok c)
      (animations.zip (allocateClipNames paths storage animations).1) compiled) :
    AreCompiled (compiled.map (·.1)) := by
  have hnames : (animations.zip (allocateClipNames paths storage animations).1).map Prod.snd =
      (allocateClipNames paths storage animations).1 :=
    List.map_snd_zip (Nat.le_of_eq (length_allocateClipNames _ _ _))
  -- clips and allocated names belong together, one by one
  have hclips : List.Forall₂ (fun names c => names.path = c.1.clip.pathName ∧
      names.storage = c.1.clip.storageName ∧ c.1.IsBuilt)
      (allocateClipNames paths storage animations).1 compiled := by
    rw [← hnames]
    refine List.forall₂_map_left_iff.2 (h.imp ?_)
    rintro ⟨a, names⟩ ⟨c, pack, remarks⟩ hc
    obtain ⟨hclip, hbuilt, -⟩ := compileClip_eq hc
    have hsame := takesOver_of_sample hclip
    exact ⟨hsame.pathName.symm, hsame.storageName.symm, hbuilt⟩
  obtain ⟨hpaths, hstorage⟩ := allocateClipNames_eq paths storage animations
  constructor
  case built =>
    intro c hc
    obtain ⟨r, hr, rfl⟩ := List.mem_map.1 hc
    obtain ⟨-, -, -, -, hbuilt⟩ := exists_of_mem_right hclips hr
    exact hbuilt
  case pathName =>
    intro c hc
    obtain ⟨r, hr, rfl⟩ := List.mem_map.1 hc
    obtain ⟨names, hmem, hpath, -⟩ := exists_of_mem_right hclips hr
    rw [← hpath]
    exact (isPlainName_path hmem).separator
  case nodup_pathNames =>
    have hsame := map_eq_map_of_forall₂ (hclips.imp fun _ _ hc => hc.1)
    rw [hpaths] at hsame
    rw [List.map_map, Function.comp_def, ← hsame]
    exact (paths.nodup_allocateAll _).1
  case nodup_storageNames =>
    have hsame := map_eq_map_of_forall₂ (hclips.imp fun _ _ hc => hc.2.1)
    rw [hstorage] at hsame
    rw [List.map_map, Function.comp_def, ← hsame]
    exact (storage.nodup_allocateAll _).1

/-- The stage on which the animations of a rig are compiled. -/
def ofRig (rig : Rig) (config : Config) (rest : List Pose) : Stage :=
  ⟨rig, config, ⟨config.namespaceName.getD (storageSafe rig.name)⟩, rest⟩

/-- Compiles animations in order, under names that are handed out for them. -/
def compileClips (s : Stage) (animations : List Animation) :
    Except BakeError (List (CompiledClip × Datapack × List Diagnostic)) :=
  (animations.zip (allocateClipNames {} {} animations).1).mapM fun p => s.compileClip p.1 p.2

/-- What is left to do once all animations are compiled is making the pack of the rig with them. -/
theorem finish_eq {α : Type} {compiled : List (CompiledClip × Datapack × List Diagnostic)}
    (make : Datapack → α) (h : ∀ c ∈ compiled, s.clipPack c.1.clip c.1.tree = .ok c.2.1) :
    (do
      let pack ← orFail (compiled.foldlM (fun pack c => pack.extend c.2.1) ({} : Datapack))
      let rigPack ← s.rigPack ((compiled.map (·.1)).map (·.clip))
      let pack ← orFail (pack.extend rigPack)
      return make pack) = (s.pack (compiled.map (·.1))).map make := by
  rw [Stage.pack, addClips_eq {} h]
  generalize compiled.foldlM (fun pack c => pack.extend c.2.1) ({} : Datapack) = clipsPack
  generalize s.rigPack ((compiled.map (·.1)).map (·.clip)) = rigPack
  cases clipsPack with
  | error e => rfl
  | ok clipsPack =>
    cases rigPack with
    | error f => rfl
    | ok rigPack =>
      show (orFail (clipsPack.extend rigPack) >>= _) = (orFail (clipsPack.extend rigPack)).map _
      cases clipsPack.extend rigPack <;> rfl

theorem clipPack_of_compileClips {compiled : List (CompiledClip × Datapack × List Diagnostic)}
    (h : s.compileClips animations = .ok compiled) :
    ∀ c ∈ compiled, s.clipPack c.1.clip c.1.tree = .ok c.2.1 := by
  intro c hc
  obtain ⟨p, -, hclip⟩ := exists_of_mem_right (forall₂_of_mapM_ok h) hc
  exact (compileClip_eq hclip).2.2

/-- Once all animations are compiled, a compilation ends in the pack of the rig with them. -/
theorem compile_eq {rest : List Pose} {compiled : List (CompiledClip × Datapack × List Diagnostic)}
    (hcheck : config.check = .ok ()) (hrest : restPoses rig config = .ok rest)
    (hcompiled : (ofRig rig config rest).compileClips animations = .ok compiled) :
    compile rig animations config =
      ((ofRig rig config rest).pack (compiled.map (·.1))).map fun pack =>
        ⟨config.namespaceName.getD (storageSafe rig.name), pack, compiled.map (·.1),
          (allocateClipNames {} {} animations).2 ++ compiled.flatMap fun c => c.2.2⟩ := by
  rw [← finish_eq _ (clipPack_of_compileClips hcompiled)]
  unfold compile
  rw [hcheck, hrest]
  show (orFail ((ofRig rig config rest).compileClips animations) >>= _) = _
  rw [hcompiled]
  rfl

/-- Animations that are compiled were sampled under names that were handed out. -/
theorem exists_sample_of_compileClips
    {compiled : List (CompiledClip × Datapack × List Diagnostic)}
    (h : s.compileClips animations = .ok compiled) :
    ∀ c ∈ compiled.map (·.1), ∃ a ∈ animations,
      ∃ names ∈ (allocateClipNames {} {} animations).1, ∃ remarks,
        sample s.rig a s.config names = .ok (c.clip, remarks) := by
  intro c hc
  obtain ⟨r, hr, rfl⟩ := List.mem_map.1 hc
  obtain ⟨p, hp, hclip⟩ := exists_of_mem_right (forall₂_of_mapM_ok h) hr
  exact ⟨p.1, (List.of_mem_zip hp).1, p.2, (List.of_mem_zip hp).2, r.2.2, (compileClip_eq hclip).1⟩

/-- What a compilation that succeeds has done before it makes the pack. -/
theorem exists_compileClips_of_compile (h : compile rig animations config = .ok o) :
    ∃ rest compiled, config.check = .ok () ∧ restPoses rig config = .ok rest ∧
      (ofRig rig config rest).compileClips animations = .ok compiled ∧
      o.clips = compiled.map (·.1) := by
  have hdone := h
  obtain ⟨_, hcheck, h⟩ := exists_of_bind_ok h
  obtain ⟨rest, hrest, h⟩ := exists_of_bind_ok h
  obtain ⟨compiled, hcompiled, -⟩ := exists_of_bind_ok h
  rw [orFail_eq_ok] at hcheck hrest hcompiled
  replace hcompiled : (ofRig rig config rest).compileClips animations = .ok compiled := hcompiled
  rw [compile_eq hcheck hrest hcompiled] at hdone
  obtain ⟨pack, -, rfl⟩ := exists_of_map_ok hdone
  exact ⟨rest, compiled, hcheck, hrest, hcompiled, rfl⟩

/-- Every animation was sampled to the one that stands at its place in the output. -/
theorem forall₂_sample_of_compile (h : compile rig animations config = .ok o) :
    List.Forall₂ (fun a c => ∃ names remarks, sample rig a config names = .ok (c.clip, remarks))
      animations o.clips := by
  obtain ⟨rest, compiled, -, -, hcompiled, hclips⟩ := exists_compileClips_of_compile h
  have hfst : (animations.zip (allocateClipNames {} {} animations).1).map Prod.fst = animations :=
    List.map_fst_zip (Nat.le_of_eq (length_allocateClipNames _ _ _).symm)
  rw [hclips, List.forall₂_map_right_iff, ← hfst, List.forall₂_map_left_iff]
  exact (forall₂_of_mapM_ok hcompiled).imp fun p c hclip => ⟨p.2, c.2.2, (compileClip_eq hclip).1⟩

/-- The animations of an output were sampled under names that were handed out. -/
theorem exists_sample_of_compile (h : compile rig animations config = .ok o) :
    ∀ c ∈ o.clips, ∃ a ∈ animations, ∃ names ∈ (allocateClipNames {} {} animations).1, ∃ remarks,
      sample rig a config names = .ok (c.clip, remarks) := by
  obtain ⟨rest, compiled, -, -, hcompiled, hclips⟩ := exists_compileClips_of_compile h
  exact hclips ▸ exists_sample_of_compileClips hcompiled

/-- Every compilation that succeeds ends in an output that is compiled for its rig. -/
theorem exists_compiles (hrig : rig.IsBuilt) (h : compile rig animations config = .ok o) :
    ∃ s : Stage, s.rig = rig ∧ s.config = config ∧ s.Compiles o := by
  have hsampled := exists_sample_of_compile h
  obtain ⟨rest, compiled, hcheck, hrest, hcompiled, -⟩ := exists_compileClips_of_compile h
  rw [compile_eq hcheck hrest hcompiled] at h
  obtain ⟨pack, hpack, rfl⟩ := exists_of_map_ok h
  refine ⟨ofRig rig config rest, rfl, rfl, rfl, ?_, hrest,
    areCompiled_of_forall₂ (forall₂_of_mapM_ok hcompiled), ?_, ?_, ?_, ?_, hpack⟩
  · cases hname : config.namespaceName with
    | none => exact isStorageName_storageSafe rig.name
    | some name => exact config.isStorageName_of_check hcheck hname
  · intro c hc
    obtain ⟨_, -, _, hnames, _, hsample⟩ := hsampled c hc
    rw [(takesOver_of_sample hsample).pathName]
    exact isPlainName_path hnames
  · intro c hc
    obtain ⟨_, -, _, -, _, hsample⟩ := hsampled c hc
    exact sample_isSparse hrig hsample
  · intro c hc
    obtain ⟨_, -, _, -, _, hsample⟩ := hsampled c hc
    rw [(takesOver_of_sample hsample).duration]
    exact Animation.duration_le_of_check (check_of_sample hsample)
  · intro c hc
    obtain ⟨_, -, _, -, _, hsample⟩ := hsampled c hc
    exact entryAt?_of_sample hrig hsample

/-- The pack of an output can be loaded and asked for an instance, which is then ready to play every
animation of the output. -/
theorem Compiles.exists_summons (h : s.Compiles o) (hrig : s.rig.IsBuilt)
    (answers : Std.HashMap String Bool) :
    ∃ (home : World) (hosts : s.Hosts o.clips home) (w : World),
      s.Summons o.clips answers home.entities.size w ∧
      ∀ c ∈ o.clips, c.clip.duration + c.clip.loopDelay ≤ 2147483647 →
        (newInstance hosts).Ready c w (startScene hosts) := by
  have hfinite := isFiniteAtRest_of_pack h.pack
  have hns : IsStorageName s.names.namespaceName := h.namespaceName ▸ h.isStorageName
  obtain ⟨home, hosts, w, hsummons, -, -, hready⟩ :=
    Stage.exists_summons hns hrig.nodup_variantNames h.areCompiled hfinite answers
  exact ⟨home, hosts, w, hsummons, hready⟩

end Stage

end Marionette
