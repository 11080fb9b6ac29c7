import Marionette.Proofs.Datapack
import Marionette.Compile
import Marionette.Proofs.Functions.Basic
import Marionette.Proofs.Json.Texts
import Marionette.Proofs.Names
import Marionette.Proofs.Results

/-!
# The pack of a rig

- `Stage.pack`: the pack of a rig with compiled animations, which is what `compile` ends in.
- `Stage.functions`: all its functions; `Stage.files`: all its files.
- `Stage.installs_ofPack`: a world of the pack has all its functions.
- `Stage.events_ofPack`: and it runs the right ones at its events.
-/

namespace Marionette

open Datapack (functionFiles)

namespace Stage

variable {s : Stage} {clips : List CompiledClip} {p q : Datapack} {payload : String}
  {old : List (String × PackFile)}

/-- All functions of a rig with compiled animations. -/
def functions (s : Stage) (clips : List CompiledClip) : List GeneratedFunction :=
  clips.flatMap (fun c => s.clipFunctions c.clip c.tree) ++
    s.tickFunctions (clips.map (·.clip)) ++ s.instanceFunctions (clips.map (·.clip))

section Functions

variable {c : CompiledClip} {f : GeneratedFunction}

theorem mem_functions_of_clip (hc : c ∈ clips) (hf : f ∈ s.clipFunctions c.clip c.tree) :
    f ∈ s.functions clips :=
  List.mem_append_left _ (List.mem_append_left _ (List.mem_flatMap.2 ⟨c, hc, hf⟩))

theorem mem_functions_of_leaf (hc : c ∈ clips)
    (hf : f ∈ s.leafFunctions (.ofClip s.names.namespaceName c.clip) c.tree) :
    f ∈ s.functions clips :=
  mem_functions_of_clip hc (List.mem_append_left _ (List.mem_append_right _ hf))

theorem mem_functions_of_control (hc : c ∈ clips)
    (hf : f ∈ s.controlFunctions (.ofClip s.names.namespaceName c.clip) c.clip) :
    f ∈ s.functions clips :=
  mem_functions_of_clip hc (List.mem_append_right _ hf)

theorem mem_functions_of_tick (hf : f ∈ s.tickFunctions (clips.map (·.clip))) :
    f ∈ s.functions clips :=
  List.mem_append_left _ (List.mem_append_right _ hf)

theorem mem_functions_of_instance (hf : f ∈ s.instanceFunctions (clips.map (·.clip))) :
    f ∈ s.functions clips :=
  List.mem_append_right _ hf

/-- The functions that show the variants. -/
theorem mem_functions_of_variant {v : Variant × String} (hv : v ∈ s.rig.variants) :
    (s.variantApply v.2, s.variantBody v.1) ∈ s.functions clips :=
  mem_functions_of_instance (List.mem_append_right _ (List.mem_map_of_mem hv))

end Functions

/-- Adds the packs of compiled animations in order. -/
def addClips (s : Stage) (p : Datapack) (clips : List CompiledClip) : Except BakeError Datapack :=
  clips.foldlM (fun p c => do p.extend (← s.clipPack c.clip c.tree)) p

/-- The pack of a rig with compiled animations: those of the animations in order, and then that of
the rig. -/
def pack (s : Stage) (clips : List CompiledClip) : Except Failure Datapack := do
  let clipsPack ← orFail (s.addClips {} clips)
  let rigPack ← s.rigPack (clips.map (·.clip))
  orFail (clipsPack.extend rigPack)

/-! ### The files of the pack -/

/-- The files of the rig itself. -/
def rigFiles (s : Stage) (clips : List Clip) (payload : String) : List (String × PackFile) :=
  functionFiles (s.tickFunctions clips) ++
    [(s!"data/{s.names.namespaceName}/rigbake/summon.snbt", .text (payload ++ "\n"))] ++
    functionFiles (s.instanceFunctions clips) ++
    [("data/minecraft/tags/function/tick.json", .text ((s.functionTag "tick").pretty ++ "\n")),
      ("data/minecraft/tags/function/load.json", .text ((s.functionTag "load").pretty ++ "\n")),
      ("pack.mcmeta", .text (s.packMeta.pretty ++ "\n"))]

/-- All files of the pack. -/
def files (s : Stage) (clips : List CompiledClip) (payload : String) :
    List (String × PackFile) :=
  clips.flatMap (fun c => functionFiles (s.clipFunctions c.clip c.tree)) ++
    s.rigFiles (clips.map (·.clip)) payload

theorem holds_rigPack {clips : List Clip} (h : s.rigPack clips = .ok p) :
    ∃ payload, Compound.render .indented s.summonPayload = .ok payload ∧
      p.Holds (s.rigFiles clips payload) := by
  obtain ⟨p₁, h₁, h⟩ := exists_of_bind_ok h
  obtain ⟨payload, hpayload, h⟩ := exists_of_bind_ok h
  obtain ⟨p₂, h₂, h⟩ := exists_of_bind_ok h
  obtain ⟨p₃, h₃, h⟩ := exists_of_bind_ok h
  obtain ⟨p₄, h₄, h⟩ := exists_of_bind_ok h
  obtain ⟨p₅, h₅, h₆⟩ := exists_of_bind_ok h
  rw [orFail_eq_ok, Datapack.addFunctions_eq] at h₁ h₃
  rw [orFail_eq_ok] at h₂ h₄ h₅ h₆
  have hp₁ := Datapack.holds_empty.addFiles h₁
  have hp₃ := (hp₁.add h₂).addFiles h₃
  have hp₆ := ((hp₃.add h₄).add h₅).add h₆
  refine ⟨payload, orUnwritable_eq_ok.1 hpayload, ?_⟩
  rw [rigFiles]
  simpa only [List.nil_append, List.append_assoc, List.cons_append] using hp₆

theorem holds_clipPack {c : CompiledClip} (h : s.clipPack c.clip c.tree = .ok p) :
    p.Holds (functionFiles (s.clipFunctions c.clip c.tree)) := by
  rw [clipPack, Datapack.addFunctions_eq] at h
  exact Datapack.holds_empty.addFiles h

theorem holds_addClips (hp : p.Holds old) (h : s.addClips p clips = .ok q) :
    q.Holds (old ++ clips.flatMap fun c => functionFiles (s.clipFunctions c.clip c.tree)) := by
  induction clips generalizing p old with
  | nil =>
    cases h
    simpa using hp
  | cons c rest ih =>
    rw [addClips, List.foldlM_cons] at h
    obtain ⟨next, hnext, h⟩ := exists_of_bind_ok h
    obtain ⟨own, hown, hnext⟩ := exists_of_bind_ok hnext
    have hq := ih (hp.extend (holds_clipPack hown) hnext) h
    rw [List.flatMap_cons, ← List.append_assoc]
    exact hq

/-- The pack holds just these files, with the data of a new instance written out. -/
theorem holds_pack_render (h : s.pack clips = .ok p) :
    ∃ payload, Compound.render .indented s.summonPayload = .ok payload ∧
      p.Holds (s.files clips payload) := by
  obtain ⟨clipsPack, hclips, h⟩ := exists_of_bind_ok h
  obtain ⟨rigPack, hrig, h⟩ := exists_of_bind_ok h
  rw [orFail_eq_ok] at hclips h
  obtain ⟨payload, hpayload, hholds⟩ := holds_rigPack hrig
  have hown := holds_addClips Datapack.holds_empty hclips
  rw [List.nil_append] at hown
  exact ⟨payload, hpayload, hown.extend hholds h⟩

theorem holds_pack (h : s.pack clips = .ok p) : ∃ payload, p.Holds (s.files clips payload) := by
  obtain ⟨payload, -, hholds⟩ := holds_pack_render h
  exact ⟨payload, hholds⟩

theorem isNamed_files (s : Stage) (clips : List CompiledClip) (payload : String) :
    Datapack.IsNamed (s.files clips payload) := by
  have hclips : Datapack.IsNamed
      (clips.flatMap fun c => functionFiles (s.clipFunctions c.clip c.tree)) := by
    intro key path body hmem
    obtain ⟨c, -, hc⟩ := List.mem_flatMap.1 hmem
    exact Datapack.isNamed_functionFiles _ key path body hc
  have htexts : ∀ texts : List (String × String),
      Datapack.IsNamed (texts.map fun t => (t.1, PackFile.text t.2)) := by
    intro texts key path body hmem
    obtain ⟨t, -, ht⟩ := List.mem_map.1 hmem
    cases ht
  refine hclips.append (.append (.append (.append (Datapack.isNamed_functionFiles _) ?_)
    (Datapack.isNamed_functionFiles _)) ?_)
  · exact htexts [(_, _)]
  · exact htexts [(_, _), (_, _), (_, _)]

/-- A world of the pack has all its functions. -/
theorem installs_ofPack {w : World} (h : s.pack clips = .ok p) (hw : World.ofPack p = .ok w) :
    w.Installs (s.functions clips) := by
  obtain ⟨payload, hholds⟩ := holds_pack h
  intro f hf
  refine World.functions_ofPack f.1.filePath hholds (s.isNamed_files clips payload) hw ?_
  unfold Stage.files rigFiles functionFiles
  simp only [List.mem_append, List.mem_flatMap, List.mem_map]
  rcases List.mem_append.1 hf with hf | hf
  · rcases List.mem_append.1 hf with hf | hf
    · obtain ⟨c, hc, hf⟩ := List.mem_flatMap.1 hf
      exact .inl ⟨c, hc, f, hf, rfl⟩
    · exact .inr (.inl (.inl (.inl ⟨f, hf, rfl⟩)))
  · exact .inr (.inl (.inr ⟨f, hf, rfl⟩))

/-! ### What runs at events -/

/-- A name of a function is read as it is written. -/
theorem functionId_text {f : FunctionPath} (file : String) (hns : IsStorageName f.namespaceName)
    (hpath : f.path ≠ "") : World.functionId file f.text = .ok f := by
  have hcolon : ∀ c ∈ f.namespaceName.toList, (c != ':') = true := by
    intro c hc
    have hstorage := hns.isStorageChar c hc
    rw [bne_iff_ne]
    rintro rfl
    revert hstorage
    decide
  have htext : f.text.toList = f.namespaceName.toList ++ ':' :: f.path.toList := by
    simp [FunctionPath.text]
  have hread : FunctionPath.ofText? f.text = some f := by
    rw [FunctionPath.ofText?, htext, List.dropWhile_append_of_pos hcolon,
      List.takeWhile_append_of_pos hcolon]
    simp
  have hns' := hns.ne_empty
  simp [World.functionId, hread, Option.filter, hns', hpath]

/-- A list with a single function is read as it is written. -/
theorem readTag_functionTag (name : String) (hns : IsStorageName s.names.namespaceName)
    (hname : name ≠ "")
    (hp : p.get? (World.tagFile name) = some (.text ((s.functionTag name).pretty ++ "\n"))) :
    World.readTag p name = .ok [s.function name] := by
  have hid : World.functionId (World.tagFile name) (s.function name).text = .ok (s.function name) :=
    functionId_text _ hns hname
  have hdecode : Decoder.ofRecordText ["values"] 1
      (fun j => Json.field j "values" (Decoder.list Decoder.text))
      ((s.functionTag name).pretty ++ "\n") = .ok [(s.function name).text] := by
    have hread := Json.readRecord?_pretty "values" (s.function name).text []
    rw [List.map_cons, List.map_nil] at hread
    rw [Decoder.ofRecordText, functionTag, hread]
    rfl
  rw [World.readTag, hp]
  simp only [hdecode]
  rw [List.mapM_cons, List.mapM_nil, hid]
  rfl

/-- The pack runs `tick` at every tick, and `load` at the start. -/
theorem readTag_pack (hns : IsStorageName s.names.namespaceName) (h : s.pack clips = .ok p) :
    World.readTag p "tick" = .ok [s.function "tick"] ∧
      World.readTag p "load" = .ok [s.function "load"] := by
  obtain ⟨payload, hholds⟩ := holds_pack h
  constructor
  · have hfile : World.tagFile "tick" = "data/minecraft/tags/function/tick.json" := by
      show "data/minecraft/tags/function/" ++ "tick" ++ ".json" = _
      simp only [String.reduceAppend]
    refine readTag_functionTag "tick" hns (by simp) ?_
    rw [hfile, hholds]
    exact List.mem_append_right _ (List.mem_append_right _ List.mem_cons_self)
  · have hfile : World.tagFile "load" = "data/minecraft/tags/function/load.json" := by
      show "data/minecraft/tags/function/" ++ "load" ++ ".json" = _
      simp only [String.reduceAppend]
    refine readTag_functionTag "load" hns (by simp) ?_
    rw [hfile, hholds]
    exact List.mem_append_right _ (List.mem_append_right _
      (List.mem_cons_of_mem _ List.mem_cons_self))

/-- What a world of the pack runs at its events; nothing has happened in it yet. -/
theorem events_ofPack {w : World} (hns : IsStorageName s.names.namespaceName)
    (h : s.pack clips = .ok p) (hw : World.ofPack p = .ok w) :
    w = { functions := w.functions, tickFunctions := [s.function "tick"],
          loadFunctions := [s.function "load"] } := by
  obtain ⟨ticks, loads, hticks, hloads, rfl⟩ := World.ofPack_eq hw
  obtain ⟨htick, hload⟩ := readTag_pack hns h
  obtain rfl := Except.ok.inj (hticks.symm.trans htick)
  obtain rfl := Except.ok.inj (hloads.symm.trans hload)
  rfl

end Stage

end Marionette
