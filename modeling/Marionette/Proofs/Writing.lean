import Marionette.Proofs.Lines
import Marionette.Proofs.Writing.Functions

/-!
# Output that can be written

Poses are checked to be finite as doubles.  They are written in single precision, which ends
earlier, and nothing is checked for it: a pose at rest beyond that range stops the compilation, and
a pose of a frame beyond it stops the writing of the function of the frame.

- `Stage.unwritable_iff`: which compilations stop for data without a text.
- `Stage.Compiles.exists_contents_iff`: which files of an output can be written.
- `writes_of_compile`: both for everything that is compiled.
- `not_written_far`: a rig and an animation that are finite and cannot be written.
-/

namespace Marionette

open Datapack (functionFiles)

/-- The file that the function of a frame is written to. -/
def Output.framePath (o : Output) (c : CompiledClip) (f : Frame) : String :=
  ((ClipPaths.ofClip o.namespaceName c.clip).frame f.tick).filePath

namespace Stage

variable {s : Stage} {rig : Rig} {animations : List Animation} {config : Config} {o : Output}

/-! ### Compiling -/

/-- A compilation is refused, or it comes to making the pack. -/
theorem compile_cases (rig : Rig) (animations : List Animation) (config : Config) :
    (∃ e, compile rig animations config = .error (.bake e)) ∨
      ∃ rest compiled, config.check = .ok () ∧ restPoses rig config = .ok rest ∧
        (ofRig rig config rest).compileClips animations = .ok compiled := by
  cases hcheck : config.check with
  | error e =>
    refine .inl ⟨e, ?_⟩
    unfold compile
    rw [hcheck]
    rfl
  | ok _ =>
    cases hrest : restPoses rig config with
    | error e =>
      refine .inl ⟨e, ?_⟩
      unfold compile
      rw [hcheck, hrest]
      rfl
    | ok rest =>
      cases hcompiled : (ofRig rig config rest).compileClips animations with
      | error e =>
        refine .inl ⟨e, ?_⟩
        unfold compile
        rw [hcheck, hrest]
        show (orFail ((ofRig rig config rest).compileClips animations) >>= _) = _
        rw [hcompiled]
        rfl
      | ok compiled => exact .inr ⟨rest, compiled, rfl, rfl, hcompiled⟩

theorem isFiniteAtRest_iff : s.IsFiniteAtRest ↔
    ∀ b ∈ s.rig.slots.toList.zip s.rest, b.1.node.kind.hasEntity = true → b.2.IsWritable :=
  forall₂_congr fun _ _ => imp_congr_right fun _ => Pose.isWritable_iff.symm

/-- A compilation stops for data without a text if and only if there is no reason against it and the
rest pose of a display entity is out of range. -/
theorem unwritable_iff (hrig : rig.IsBuilt) :
    (∃ fault, compile rig animations config = .error (.unwritable fault)) ↔
      (∀ e, compile rig animations config ≠ .error (.bake e)) ∧
        ∃ rest, restPoses rig config = .ok rest ∧
          ¬∀ b ∈ rig.slots.toList.zip rest, b.1.node.kind.hasEntity = true → b.2.IsWritable := by
  rcases compile_cases rig animations config
    with ⟨e, he⟩ | ⟨rest, compiled, hcheck, hrest, hcompiled⟩
  · -- refused
    constructor
    · rintro ⟨fault, hfault⟩
      cases he.symm.trans hfault
    · rintro ⟨hnot, -⟩
      exact absurd he (hnot e)
  · have hdone := compile_eq hcheck hrest hcompiled
    have hclips := areCompiled_of_forall₂ (forall₂_of_mapM_ok hcompiled)
    have hfinite := (ofRig rig config rest).isFiniteAtRest_iff
    by_cases h : (ofRig rig config rest).IsFiniteAtRest
    · -- in range
      obtain ⟨pack, hpack⟩ := exists_pack_of_isFiniteAtRest hrig.nodup_variantNames hclips h
      rw [hdone, hpack]
      constructor
      · rintro ⟨fault, hfault⟩
        cases hfault
      · rintro ⟨-, rest', hrest', hnot⟩
        obtain rfl : rest = rest' := Except.ok.inj (hrest.symm.trans hrest')
        exact absurd (hfinite.1 h) hnot
    · -- out of range
      obtain ⟨fault, hfault⟩ := exists_unwritable hrig.nodup_variantNames hclips h
      rw [hdone, hfault]
      exact iff_of_true ⟨fault, rfl⟩ ⟨nofun, rest, hrest, mt hfinite.2 h⟩

/-! ### Writing -/

theorem Compiles.mem_frames_iff (h : s.Compiles o) {c : CompiledClip} (hc : c ∈ o.clips)
    {f : Frame} :
    f ∈ c.tree.frames ↔ f ∈ c.clip.frames := by
  have hsparse := h.isSparse c hc
  rw [h.areCompiled.built c hc]
  constructor
  · exact DispatchTree.mem_of_mem_frames_build hsparse.nodup hsparse.lt
  · intro hf
    refine @DispatchTree.mem_frames_of_findFrame? _ f.tick _ ?_
    rw [DispatchTree.findFrame?_build_of_nodup hsparse.nodup hsparse.lt]
    exact (DispatchTree.find?_tick_eq_some_iff hsparse.nodup).2 ⟨hf, rfl⟩

/-- The function of a frame is in the pack. -/
theorem Compiles.get?_framePath (h : s.Compiles o) {c : CompiledClip} (hc : c ∈ o.clips) {f : Frame}
    (hf : f ∈ c.clip.frames) : ∃ before,
      o.pack.get? (o.framePath c f) = some (.function
        ((ClipPaths.ofClip s.names.namespaceName c.clip).frame f.tick)
        (s.frameBody (.ofClip s.names.namespaceName c.clip)
          (s.flagsAfter (s.rig.slots.toList.map fun slot => (slot, false)) before) f)) := by
  obtain ⟨before, after, hframes⟩ := List.append_of_mem ((h.mem_frames_iff hc).2 hf)
  have hbody := (s.mem_framesFrom (.ofClip s.names.namespaceName c.clip) f
    (s.rig.slots.toList.map fun slot => (slot, false)) before after).1
  rw [← hframes] at hbody
  have hfile := get?_of_mem_functions h.pack (mem_functions_of_leaf hc hbody)
  refine ⟨before, ?_⟩
  rw [Output.framePath, ← h.namespaceName]
  exact hfile

/-- A file can be written unless it is the function of a frame that takes a display entity out of
range. -/
theorem Compiles.exists_contents_iff (h : s.Compiles o) {path : String} {file : PackFile}
    (hfile : o.pack.get? path = some file) :
    (∃ text, file.contents = .ok text) ↔
      ∀ c ∈ o.clips, ∀ f ∈ c.clip.frames, o.framePath c f = path → s.rig.TakesWritable f := by
  constructor
  · rintro htext c hc f hf rfl
    obtain ⟨before, hbody⟩ := h.get?_framePath hc hf
    obtain rfl := Option.some.inj (hfile.symm.trans hbody)
    exact (isFinite_frameBody_iff before).1 ((PackFile.exists_contents_iff _ _).1 htext)
  · intro hframes
    cases file with
    | text contents => exact ⟨contents, rfl⟩
    | function f commands =>
      obtain ⟨hmem, rfl⟩ := mem_functions_of_get? h.pack hfile
      rw [PackFile.exists_contents_iff]
      -- only frames, variants and the summoning carry data, and of these only frames can be
      -- infinite here
      rcases data_functions_cases hmem with
        hnone | ⟨c, hc, before, frame, after, hall, heq⟩ | heq | ⟨v, -, heq⟩
      · rw [hnone]
        exact List.forall_mem_nil _
      · cases heq
        refine (isFinite_frameBody_iff before).2 (hframes c hc frame ?_ ?_)
        · exact (h.mem_frames_iff hc).1 (hall ▸ List.mem_append_right _ List.mem_cons_self)
        · rw [Output.framePath, ← h.namespaceName]
      · cases heq
        rw [data_summonBody, List.forall_mem_singleton]
        exact isFinite_summonPayload_iff.2 (isFiniteAtRest_of_pack h.pack)
      · cases heq
        intro data hdata
        obtain ⟨model, rfl⟩ := data_variantBody hdata
        exact List.forall_mem_singleton.2 (isFinite_itemData model)

end Stage

/-- A compilation ends in an output or with a reason, unless the pose of a display entity at rest is
out of the range of single precision; and every file of an output can be written, unless it is the
function of a frame that takes a display entity to such a pose. -/
theorem writes_of_compile {rig : Rig} (hrig : rig.IsBuilt) (animations : List Animation)
    (config : Config) :
    ((∃ fault, compile rig animations config = .error (.unwritable fault)) ↔
      (∀ e, compile rig animations config ≠ .error (.bake e)) ∧
        ∃ rest, restPoses rig config = .ok rest ∧
          ¬∀ b ∈ rig.slots.toList.zip rest, b.1.node.kind.hasEntity = true → b.2.IsWritable) ∧
    Ensures (compile rig animations config) fun o =>
      ∀ path file, o.pack.get? path = some file →
        ((∃ text, file.contents = .ok text) ↔
          ∀ c ∈ o.clips, ∀ f ∈ c.clip.frames, o.framePath c f = path → rig.TakesWritable f) := by
  refine ⟨Stage.unwritable_iff hrig, Ensures.intro fun o h path file hfile => ?_⟩
  obtain ⟨s, rfl, -, hcompiles⟩ := Stage.exists_compiles hrig h
  exact hcompiles.exists_contents_iff hfile

/-- A rig of one bone that stands at a place. -/
def mast (origin : Vec3) : Rig :=
  ⟨"mast", #[⟨⟨⟨1⟩, "mast", none, .bone none, { origin := origin }⟩, "mast", none⟩], []⟩

/-- The bone is lifted from its place. -/
def lift (height : Float) : Animation where
  name := "lift"
  length := 0.05
  animators := [{ node := ⟨1⟩, position := [{ time := 0, value := ⟨0, height, 0⟩ }] }]

theorem build_mast (origin : Vec3) :
    Rig.build "mast" [⟨⟨1⟩, "mast", none, .bone none, { origin := origin }⟩] [] =
      .ok (mast origin) := by
  have hname : Rig.allocateNames {} ["mast"] = ["mast"] := by decide +kernel
  simp [Rig.build, Rig.firstRepeated, Rig.ordered, Rig.preorder, hname, mast]
  rfl

theorem isBuilt_mast (origin : Vec3) : (mast origin).IsBuilt :=
  ⟨"mast", [⟨⟨1⟩, "mast", none, .bone none, { origin := origin }⟩], [], build_mast origin⟩

/-- The pose of the bone can be written, if the frame has one. -/
def Frame.liftsWritable (f : Frame) : Bool :=
  (f.entry? ⟨1⟩).all fun e => e.pose.matrix.toList.all fun x => (toSingle x).isFinite

theorem Frame.liftsWritable_iff {f : Frame} :
    f.liftsWritable = true ↔ (mast .zero).TakesWritable f := by
  have hslots : ∀ slot ∈ (mast .zero).slots.toList, slot.node.uuid = ⟨1⟩ := by
    intro slot hslot
    obtain rfl := List.mem_singleton.1 hslot
    rfl
  unfold liftsWritable
  constructor
  · intro h slot hslot _ e he
    rw [hslots slot hslot] at he
    rw [he] at h
    exact Pose.isWritable_iff.2 (List.all_eq_true.1 h)
  · intro h
    cases he : f.entry? ⟨1⟩ with
    | none => rfl
    | some e =>
      exact List.all_eq_true.2 (Pose.isWritable_iff.1 (h _ List.mem_cons_self rfl e he))

/-- The rig is compiled with an animation that can be sampled. -/
theorem exists_compile_mast {a : Animation} {p : Clip × List Diagnostic}
    (h : sample (mast .zero) a {} ⟨pathSafe a.name, storageSafe a.name⟩ = .ok p) :
    ∃ o, compile (mast .zero) [a] {} = .ok o ∧
      o.clips = [⟨p.1, .build p.1.frames p.1.duration⟩] := by
  -- the rest pose is in range
  have hfinite : ((restPoses (mast .zero) {}).toOption.any fun rest => rest.all fun pose =>
      pose.matrix.toList.all fun x => (toSingle x).isFinite) = true := by
    decide +kernel
  obtain ⟨rest, hrest, hfinite⟩ := exists_ok_of_any hfinite
  have hsampled : List.Forall₂ (fun p r => sample (mast .zero) p.1 {} p.2 = .ok r)
      ([a].zip (allocateClipNames {} {} [a]).1) [p] := by
    rw [allocateClipNames_singleton]
    exact .cons h .nil
  exact Stage.exists_compile (isBuilt_mast .zero) rfl hrest
    (fun b hb _ => List.all_eq_true.1 (List.all_eq_true.1 hfinite b.2 (List.of_mem_zip hb).2))
    hsampled

/-- The animation is compiled to a clip with a frame.  All its frames can be written, or none. -/
theorem exists_compile_lift {height : Float} {writable : Bool}
    (h : ((sample (mast .zero) (lift height) {} ⟨"lift", "lift"⟩).toOption.any fun p =>
      !p.1.frames.isEmpty && p.1.frames.all fun f => f.liftsWritable == writable) = true) :
    ∃ o c f, compile (mast .zero) [lift height] {} = .ok o ∧ c ∈ o.clips ∧ f ∈ c.clip.frames ∧
      ∀ c ∈ o.clips, ∀ f ∈ c.clip.frames, (mast .zero).TakesWritable f ↔ writable = true := by
  obtain ⟨p, hsample, hframes⟩ := exists_ok_of_any h
  rw [Bool.and_eq_true, Bool.not_eq_true', List.isEmpty_eq_false_iff, List.all_eq_true] at hframes
  obtain ⟨hne, hall⟩ := hframes
  have hname : pathSafe "lift" = "lift" ∧ storageSafe "lift" = "lift" := by decide +kernel
  have hsafe : sample (mast .zero) (lift height) {}
      ⟨pathSafe (lift height).name, storageSafe (lift height).name⟩ = .ok p := by
    rw [show (lift height).name = "lift" from rfl, hname.1, hname.2]
    exact hsample
  obtain ⟨o, hcompile, hclips⟩ := exists_compile_mast hsafe
  obtain ⟨f, hf⟩ := List.exists_mem_of_ne_nil _ hne
  refine ⟨o, ⟨p.1, .build p.1.frames p.1.duration⟩, f, hcompile, ?_, hf, ?_⟩
  · rw [hclips]
    exact List.mem_singleton_self _
  · intro c hc g hg
    rw [hclips] at hc
    obtain rfl := List.mem_singleton.1 hc
    rw [← Frame.liftsWritable_iff, beq_iff_eq.1 (hall g hg)]

/-- A bone is lifted by one block: every file of the output can be written, and there is one for a
frame. -/
theorem writes_of_compile_lift : (mast .zero).IsBuilt ∧
    ∃ o, compile (mast .zero) [lift 16] {} = .ok o ∧ (∃ c ∈ o.clips, c.clip.frames ≠ []) ∧
      ∀ path file, o.pack.get? path = some file → ∃ text, file.contents = .ok text := by
  have hcomputed : ((sample (mast .zero) (lift 16) {} ⟨"lift", "lift"⟩).toOption.any fun p =>
      !p.1.frames.isEmpty && p.1.frames.all fun f => f.liftsWritable == true) = true := by
    decide +kernel
  obtain ⟨o, c, f, hcompile, hc, hf, hframes⟩ := exists_compile_lift hcomputed
  refine ⟨isBuilt_mast .zero, o, hcompile, ⟨c, hc, List.ne_nil_of_mem hf⟩,
    fun path file hfile => ?_⟩
  have hbuilt := isBuilt_mast .zero
  -- under names of their own, nothing of the rig and the animation is computed
  generalize mast .zero = rig at hbuilt hcompile hframes
  generalize lift 16 = a at hcompile
  have hwrites := (writes_of_compile hbuilt [a] {}).2.apply hcompile path file hfile
  exact hwrites.2 fun c hc f hf _ => (hframes c hc f hf).2 rfl

/-- The numbers of a rig and of an animation may be finite while the output cannot be written: a
pose at rest stops the compilation, and the pose of a frame stops the writing of its function. -/
theorem not_written_far : (1e40 : Float).isFinite = true ∧
    (∃ fault, compile (mast ⟨1e40, 0, 0⟩) [] {} = .error (.unwritable fault)) ∧
    ∃ o path file fault, compile (mast .zero) [lift 1e40] {} = .ok o ∧
      o.pack.get? path = some file ∧ file.contents = .error fault := by
  refine ⟨by decide +kernel, ?_, ?_⟩
  · -- at rest
    have hcomputed : ((restPoses (mast ⟨1e40, 0, 0⟩) {}).toOption.any fun rest =>
        ((mast ⟨1e40, 0, 0⟩).slots.toList.zip rest).any fun b =>
          b.1.node.kind.hasEntity && !b.2.matrix.toList.all fun x =>
            (toSingle x).isFinite) = true := by
      decide +kernel
    obtain ⟨rest, hrest, hfar⟩ := exists_ok_of_any hcomputed
    obtain ⟨b, hb, hfar⟩ := List.any_eq_true.1 hfar
    rw [Bool.and_eq_true, Bool.not_eq_true', List.all_eq_false] at hfar
    obtain ⟨hentity, x, hx, hfar⟩ := hfar
    have hnot : ¬(Stage.ofRig (mast ⟨1e40, 0, 0⟩) {} rest).IsFiniteAtRest :=
      fun hfinite => hfar (hfinite b hb hentity x hx)
    have hcompiled : (Stage.ofRig (mast ⟨1e40, 0, 0⟩) {} rest).compileClips [] = .ok [] := rfl
    obtain ⟨fault, hfault⟩ := Stage.exists_unwritable (isBuilt_mast ⟨1e40, 0, 0⟩).nodup_variantNames
      (Stage.areCompiled_of_forall₂ (forall₂_of_mapM_ok hcompiled)) hnot
    refine ⟨fault, ?_⟩
    rw [Stage.compile_eq rfl hrest hcompiled]
    exact congrArg (Except.map _) hfault
  · -- a frame
    have hcomputed : ((sample (mast .zero) (lift 1e40) {} ⟨"lift", "lift"⟩).toOption.any fun p =>
        !p.1.frames.isEmpty && p.1.frames.all fun f => f.liftsWritable == false) = true := by
      decide +kernel
    obtain ⟨o, c, f, hcompile, hc, hf, hframes⟩ := exists_compile_lift hcomputed
    obtain ⟨s, hrig, -, hcompiles⟩ := Stage.exists_compiles (isBuilt_mast .zero) hcompile
    obtain ⟨file, hfile⟩ : ∃ file, o.pack.get? (o.framePath c f) = some file :=
      ⟨_, (hcompiles.get?_framePath hc hf).choose_spec⟩
    cases hcontents : file.contents with
    | error fault => exact ⟨o, o.framePath c f, file, fault, hcompile, hfile, hcontents⟩
    | ok text =>
      have hwritable := (hcompiles.exists_contents_iff hfile).1 ⟨text, hcontents⟩ c hc f hf rfl
      rw [hrig] at hwritable
      cases (hframes c hc f hf).1 hwritable

end Marionette
