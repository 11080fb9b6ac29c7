import Marionette.Proofs.Lines.Rig
import Marionette.Proofs.Lines.Sampling
import Marionette.Proofs.Outcome
import Marionette.Proofs.Safety

/-!
# One command is one line

Texts of an author get into function files.  The commands and the conditions of animations are
checked, and safe names stay on a line; but names that go into comments, the entity type of the root
and the items and blocks of the nodes are written as they are.

- `Stage.isOneLine_of_build`, `Stage.isOneLine_of_compile`: what the author has to keep on a line,
  and what is on a line anyway.
- `lines_of_compile`: then every function is written with one line for each command, none of them
  empty; `lines_of_greeting`: an animation that says something under a condition.
- `exists_load_comment`: the name of a rig is written into a comment as it is.
- `not_isLine_load`: a rig whose name has several lines is compiled, and the rest of its name
  becomes a command.
-/

namespace Marionette

/-! ### Safe names -/

/-- Names that are handed out for names on a line are on a line. -/
theorem NameAllocator.isLine_of_mem_allocateAll (a : NameAllocator) {bases : List String}
    (hbases : ∀ base ∈ bases, IsLine base) : ∀ name ∈ a.allocateAll bases, IsLine name := by
  intro name hname
  obtain ⟨base, hbase, rfl | ⟨n, rfl⟩⟩ := a.mem_allocateAll_cases hname
  · exact hbases _ hbase
  · exact ((hbases base hbase).append (by decide)).append (isLine_repr n)

theorem isLine_storageSafe (name : String) : IsLine (storageSafe name) :=
  (isStorageName_storageSafe name).isLine

theorem isLine_pathSafe (name : String) : IsLine (pathSafe name) := by
  intro c hc
  have hchar := isPathChar_of_mem_pathSafe hc
  constructor <;> (rintro rfl; exact absurd hchar (by decide))

theorem Rig.isLine_of_mem_allocateNames {a : NameAllocator} {names : List String} :
    ∀ name ∈ allocateNames a names, IsLine name := by
  rw [allocateNames_eq]
  refine a.isLine_of_mem_allocateAll fun base hbase => ?_
  obtain ⟨name, -, rfl⟩ := List.mem_map.1 hbase
  exact isLine_storageSafe name

theorem isLine_of_mem_allocateClipNames {paths storage : NameAllocator}
    {animations : List Animation} {names : ClipNames}
    (h : names ∈ (allocateClipNames paths storage animations).1) :
    IsLine names.path ∧ IsLine names.storage := by
  obtain ⟨hpaths, hstorage⟩ := allocateClipNames_eq paths storage animations
  constructor
  · refine paths.isLine_of_mem_allocateAll ?_ _ (hpaths ▸ List.mem_map_of_mem h)
    intro base hbase
    obtain ⟨a, -, rfl⟩ := List.mem_map.1 hbase
    exact isLine_pathSafe a.name
  · refine storage.isLine_of_mem_allocateAll ?_ _ (hstorage ▸ List.mem_map_of_mem h)
    intro base hbase
    obtain ⟨a, -, rfl⟩ := List.mem_map.1 hbase
    exact isLine_storageSafe a.name

/-! ### What is built and compiled -/

/-- What an author has to keep on a line: names that are written into comments and selectors, items
and blocks, and commands of the root that no condition stands in front of, which must not consist of
slashes. -/
structure Blueprint.IsOneLine (b : Blueprint) : Prop where
  name : IsLine b.name
  rootEntity : IsLine b.settings.rootEntity
  nodes : ∀ n ∈ b.nodes, n.kind.HasNoReturn
  variants : ∀ v ∈ b.variants, v.IsOneLine
  animations : ∀ a ∈ b.animations, IsLine a.name ∧ a.SaysSomething

namespace Stage

variable {s : Stage} {b : Blueprint} {o : Output} {clips : List CompiledClip} {p : Datapack}

/-- The rig of such a blueprint stays on lines. -/
theorem isOneLine_of_build (hb : b.IsOneLine) (hrig : b.rig = .ok s.rig)
    (hconfig : s.config = b.settings) (hns : IsLine s.names.namespaceName) : s.IsOneLine := by
  obtain ⟨-, hslots, hvariants⟩ := Rig.build_eq hrig
  refine ⟨hns, Rig.name_of_build hrig ▸ hb.name, hconfig ▸ hb.rootEntity, ?_, ?_⟩
  · rw [hslots]
    intro slot hslot
    obtain ⟨⟨node, storageName⟩, hmem, rfl⟩ := List.mem_map.1 hslot
    obtain ⟨hnode, hname⟩ := List.of_mem_zip hmem
    exact ⟨Rig.isLine_of_mem_allocateNames _ hname, hb.nodes _ (Rig.mem_of_mem_ordered _ hnode)⟩
  · rw [hvariants]
    intro v hv
    obtain ⟨hvariant, hname⟩ := List.of_mem_zip hv
    exact ⟨Rig.isLine_of_mem_allocateNames _ hname, hb.variants _ hvariant⟩

/-- So do its animations, and the frames that are looked up. -/
theorem isOneLine_of_compile {rig : Rig} (hb : b.IsOneLine) (hrig : rig.IsBuilt)
    (h : compile rig b.animations b.settings = .ok o) :
    ∀ c ∈ o.clips, c.clip.IsOneLine ∧ ∀ f ∈ c.tree.frames, f.IsOneLine := by
  obtain ⟨s, -, -, hcompiles⟩ := exists_compiles hrig h
  intro c hc
  obtain ⟨a, ha, names, hnames, remarks, hsample⟩ := exists_sample_of_compile h c hc
  obtain ⟨hname, hsays⟩ := hb.animations a ha
  obtain ⟨hpath, hstorage⟩ := isLine_of_mem_allocateClipNames hnames
  have hsame := takesOver_of_sample hsample
  have hframes := Clip.isOneLine_frames_of_sample hsays hsample
  refine ⟨⟨hsame.name ▸ hname, hsame.pathName ▸ hpath, hsame.storageName ▸ hstorage, hframes⟩, ?_⟩
  have hsparse := hcompiles.isSparse c hc
  rw [hcompiles.areCompiled.built c hc]
  exact fun f hf =>
    hframes f (DispatchTree.mem_of_mem_frames_build hsparse.nodup hsparse.lt hf)

/-- The output of a blueprint is compiled for its rig. -/
theorem exists_compiles_of_blueprint (h : compileBlueprint b = .ok o) :
    ∃ s : Stage, b.rig = .ok s.rig ∧ s.config = b.settings ∧ s.Compiles o ∧
      compile s.rig b.animations b.settings = .ok o := by
  obtain ⟨rig, hbuild, hcompile⟩ := exists_of_bind_ok h
  rw [orFail_eq_ok] at hbuild
  obtain ⟨s, rfl, hconfig, hcompiles⟩ := exists_compiles ⟨_, _, _, hbuild⟩ hcompile
  exact ⟨s, hbuild, hconfig, hcompiles, hcompile⟩

/-- All generated functions are in the pack. -/
theorem mem_pack_of_mem_functions (h : s.pack clips = .ok p) :
    ∀ f ∈ s.functions clips, f ∈ p.functions :=
  fun f hf => Datapack.mem_functions.2 ⟨f.1.filePath, get?_of_mem_functions h hf⟩

end Stage

/-- Every function of a blueprint that is compiled is written with one line for each command, none
of them empty, if the author keeps to lines where texts are written as they are, and as long as its
floats have a text. -/
theorem lines_of_compile (b : Blueprint) (hb : b.IsOneLine) :
    Ensures (compileBlueprint b) fun o =>
      ∀ f ∈ o.pack.functions, (∀ c ∈ f.2, c.IsFinite) →
        ∃ lines : List String,
          (PackFile.function f.1 f.2).contents =
            .ok (String.join (lines.map fun line => line ++ "\n")) ∧
          List.Forall₂ (fun c line => c.text = .ok line ∧ line ≠ "" ∧ IsLine line) f.2 lines := by
  refine Ensures.intro fun o h f hf hfinite => ?_
  obtain ⟨s, hbuild, hconfig, hcompiles, hcompile⟩ := Stage.exists_compiles_of_blueprint h
  have hns : IsLine s.names.namespaceName :=
    hcompiles.namespaceName ▸ hcompiles.isStorageName.isLine
  have hfits := Stage.fits_functions (Stage.isOneLine_of_build hb hbuild hconfig hns)
    (Stage.isOneLine_of_compile hb ⟨_, _, _, hbuild⟩ hcompile)
  exact PackFile.exists_lines f.1
    (hfits f (Stage.mem_functions_of_pack hcompiles.pack f hf)) hfinite

theorem compileBlueprint_eq {b : Blueprint} {rig : Rig} (h : b.rig = .ok rig) :
    compileBlueprint b = compile rig b.animations b.settings := by
  rw [compileBlueprint, h]
  rfl

/-- A rig without nodes and an animation that says something once somebody is near. -/
def greeting : Blueprint where
  name := "rig"
  animations := [{
    name := "greet"
    length := 0.1
    commandKeys := [⟨0, ["say hello", "/tag @s add met"], some "if entity @p"⟩] }]

/-- What the animation is sampled to. -/
theorem exists_sample_greeting : ∃ r frame,
    sample Stage.nodeless.rig greeting.animations[0] {} ⟨"greet", "greet"⟩ = .ok r ∧
    r.1.frameAt? 0 = some frame ∧ frame.variant = none ∧
    frame.commands = some ⟨["say hello", "/tag @s add met"], some "if entity @p"⟩ := by
  have hcomputed : ((sample Stage.nodeless.rig greeting.animations[0] {}
      ⟨"greet", "greet"⟩).toOption.any fun r => (r.1.frameAt? 0).any fun frame =>
        decide (frame.variant = none) && decide (frame.commands =
          some ⟨["say hello", "/tag @s add met"], some "if entity @p"⟩)) = true := by
    decide +kernel
  obtain ⟨r, hr, htest⟩ := exists_ok_of_any hcomputed
  obtain ⟨frame, hframe, hfits⟩ := (Option.any_eq_true _ _).1 htest
  rw [Bool.and_eq_true, decide_eq_true_eq, decide_eq_true_eq] at hfits
  exact ⟨r, frame, hr, hframe, hfits.1, hfits.2⟩

/-- It is compiled, and its first frame has both commands. -/
theorem exists_compile_greeting : ∃ (o : Output) (c : CompiledClip) (frame : Frame),
    compileBlueprint greeting = .ok o ∧ c ∈ o.clips ∧ c.clip.frameAt? 0 = some frame ∧
    frame.variant = none ∧
    frame.commands = some ⟨["say hello", "/tag @s add met"], some "if entity @p"⟩ := by
  obtain ⟨r, frame, hr, hframe, hvariant, hcommands⟩ := exists_sample_greeting
  have hbuilt : Stage.nodeless.rig.IsBuilt := ⟨"rig", [], [], rfl⟩
  have hrest : restPoses Stage.nodeless.rig {} = .ok [] := rfl
  have hsampled : List.Forall₂ (fun p r => sample Stage.nodeless.rig p.1 {} p.2 = .ok r)
      (greeting.animations.zip (allocateClipNames {} {} greeting.animations).1) [r] :=
    .cons hr .nil
  obtain ⟨o, hcompile, hclips⟩ :=
    Stage.exists_compile hbuilt rfl hrest (fun b hb => nomatch hb) hsampled
  have hrun : compileBlueprint greeting = compile Stage.nodeless.rig greeting.animations {} :=
    compileBlueprint_eq rfl
  refine ⟨o, ⟨r.1, .build r.1.frames r.1.duration⟩, frame, hrun.trans hcompile, ?_, hframe,
    hvariant, hcommands⟩
  rw [hclips]
  exact List.mem_singleton_self _

/-- Under its condition, every command of the author is a line of its own. -/
theorem lines_of_greeting : ∃ (o : Output) (f : GeneratedFunction) (lines : List String),
    compileBlueprint greeting = .ok o ∧ f ∈ o.pack.functions ∧
    f.2 = [.execute [.raw "if entity @p"] (.raw "say hello"),
      .execute [.raw "if entity @p"] (.raw "tag @s add met")] ∧
    (PackFile.function f.1 f.2).contents =
      .ok (String.join (lines.map fun line => line ++ "\n")) ∧
    List.Forall₂ (fun c line => c.text = .ok line ∧ line ≠ "" ∧ IsLine line) f.2 lines := by
  have hb : greeting.IsOneLine :=
    ⟨by decide, by decide, nofun, nofun,
      List.forall_mem_singleton.2 ⟨by decide, List.forall_mem_singleton.2 nofun⟩⟩
  have hnodes : greeting.nodes = [] := rfl
  obtain ⟨o, c, frame, h, hc, hframe, hvariant, hcommands⟩ := exists_compile_greeting
  -- the blueprint gets a name, so that nothing tries to compute its pack
  generalize greeting = b at *
  obtain ⟨s, hbuild, -, hcompiles, -⟩ := Stage.exists_compiles_of_blueprint h
  -- the frame is a leaf of the tree
  have hsparse := hcompiles.isSparse c hc
  have hfound : c.tree.findFrame? 0 = some frame := by
    rw [hcompiles.areCompiled.built c hc,
      DispatchTree.findFrame?_build_of_nodup hsparse.nodup hsparse.lt]
    exact hframe
  have hleaf : frame ∈ c.tree.frames := DispatchTree.mem_frames_of_findFrame? hfound
  -- two commands need a function of their own
  have heffects : s.effects frame = [
      ⟨.execute [.raw "if entity @p"] (.raw "say hello"), true⟩,
      ⟨.execute [.raw "if entity @p"] (.raw "tag @s add met"), true⟩] := by
    have hslots : s.rig.slots.toList = [] := by
      rw [(Rig.build_eq hbuild).2.1, hnodes]
      rfl
    rw [Stage.effects, Stage.variantEffects, Stage.rootEffects, hvariant, hcommands, hslots]
    rfl
  obtain ⟨before, after, hframes⟩ := List.append_of_mem hleaf
  have hleaves := (Stage.mem_framesFrom s (.ofClip s.names.namespaceName c.clip) frame
    (s.rig.slots.toList.map fun slot => (slot, false)) before after).2
  rw [← hframes, Stage.effectCall, heffects] at hleaves
  have hfunction := Stage.mem_pack_of_mem_functions hcompiles.pack _
    (Stage.mem_functions_of_leaf hc (hleaves _ (List.mem_singleton_self _)))
  obtain ⟨lines, hcontents, hfit⟩ := Ensures.apply (lines_of_compile _ hb) h _ hfunction
    (List.forall_mem_cons.2 ⟨trivial, List.forall_mem_singleton.2 trivial⟩)
  exact ⟨o, _, lines, h, hfunction, rfl, hcontents, hfit⟩

/-- The name of a rig is written into a comment as it is. -/
theorem exists_load_comment {b : Blueprint} {o : Output} (h : compileBlueprint b = .ok o) :
    ∃ f ∈ o.pack.functions, f.1 = ⟨o.namespaceName, "load"⟩ ∧
      .comment s!"runtime state of rig '{b.name}'" ∈ f.2 := by
  obtain ⟨s, hbuild, -, hcompiles, -⟩ := Stage.exists_compiles_of_blueprint h
  refine ⟨(s.function "load", s.loadBody (o.clips.map (·.clip))), ?_, ?_, ?_⟩
  · exact Stage.mem_pack_of_mem_functions hcompiles.pack _ (Stage.mem_functions_of_tick (.head _))
  · exact congrArg (FunctionPath.mk · "load") hcompiles.namespaceName
  · rw [← Rig.name_of_build hbuild]
    exact List.mem_cons_self

/-- A rig without nodes and animations is always compiled under default settings. -/
theorem exists_compile_still (name : String) : ∃ o, compileBlueprint { name := name } = .ok o := by
  obtain ⟨rig, hbuild, hslots⟩ : ∃ rig, Rig.build name [] [] = .ok rig ∧ rig.slots = #[] :=
    ⟨_, rfl, rfl⟩
  have hrest : restPoses rig {} = .ok [] := by
    rw [restPoses, hslots]
    rfl
  have hfinite : (Stage.ofRig rig {} []).IsFiniteAtRest := by
    intro b hb
    rw [Stage.ofRig, List.zip_nil_right] at hb
    nomatch hb
  have hsampled : List.Forall₂ (fun p r => sample rig p.1 {} p.2 = .ok r)
      ([].zip (allocateClipNames {} {} []).1) [] := .nil
  obtain ⟨o, hcompile, -⟩ := Stage.exists_compile ⟨name, [], [], hbuild⟩ rfl hrest hfinite
    hsampled
  have hrun : compileBlueprint { name := name } = compile rig [] {} :=
    compileBlueprint_eq hbuild
  exact ⟨o, hrun.trans hcompile⟩

/-- A rig whose name has several lines is compiled, and what follows its first line becomes a
command of its own. -/
theorem not_isLine_load : ∃ (o : Output) (f : GeneratedFunction) (c : Command),
    compileBlueprint { name := "a\nkill @e" } = .ok o ∧ f ∈ o.pack.functions ∧ c ∈ f.2 ∧
    c.text = .ok "# runtime state of rig 'a\nkill @e'" ∧
    ¬IsLine "# runtime state of rig 'a\nkill @e'" := by
  obtain ⟨o, h⟩ := exists_compile_still "a\nkill @e"
  obtain ⟨f, hf, -, hc⟩ := exists_load_comment h
  exact ⟨o, f, _, h, hf, hc, rfl, by decide⟩

end Marionette
