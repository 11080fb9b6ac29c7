import Marionette.Proofs.Compile
import Marionette.Proofs.Refusals

/-!
# How a compilation ends

A compilation ends with a pack, with a reason about the settings or about an animation, or because
the rig has no finite pose at rest.  It never ends because two files have one path.

- `Stage.refuses_compileClip`: an animation fails only for its own reasons.
- `Failure.IsExpected`, `failsOnly_compile`: why a compilation can fail.
- `exists_compile`: it succeeds once all animations are sampled and the poses at rest are finite.
-/

namespace Marionette

open Animation (Refuses)

/-- The failure gives a reason about settings or an animation, or is about data without a text. -/
def Failure.IsExpected : Failure → Prop
  | .bake e => e.IsAbout "config" ∨ e.IsAbout "animation"
  | .unwritable _ => True

theorem failsOnly_orFail {α : Type} {x : Except BakeError α}
    (h : FailsOnly (fun e => e.IsAbout "config" ∨ e.IsAbout "animation") x) :
    FailsOnly Failure.IsExpected (orFail x) := by
  cases x with
  | ok a => exact .ok a
  | error e => exact h

namespace Stage

variable {s : Stage} {rig : Rig} {animations : List Animation} {config : Config} {rest : List Pose}

/-- An animation whose name is a single segment fails only for reasons about animations. -/
theorem refuses_compileClip {a : Animation} {names : ClipNames} (hname : '/' ∉ names.path.toList) :
    Refuses (s.compileClip a names) := by
  refine (refuses_sample names).bind fun c hc => ?_
  obtain ⟨clip, remarks⟩ := c
  have hown : '/' ∉ clip.pathName.toList := (takesOver_of_sample hc).pathName ▸ hname
  obtain ⟨own, hown⟩ := s.exists_clipPack
    (c := ⟨clip, .build clip.frames clip.duration⟩) rfl hown
  exact FailsOnly.bind (.of_eq_ok hown) fun _ _ => .ok _

theorem refuses_compileClips (s : Stage) (animations : List Animation) :
    Refuses (s.compileClips animations) :=
  .mapM fun _ hp => refuses_compileClip ((isPlainName_path (List.of_mem_zip hp).2).separator)

/-- Making the pack fails only where the poses at rest are not finite. -/
theorem failsOnly_pack {clips : List CompiledClip} (hv : (s.rig.variants.map (·.2)).Nodup)
    (h : AreCompiled clips) : FailsOnly Failure.IsExpected (s.pack clips) := by
  by_cases hfinite : s.IsFiniteAtRest
  · obtain ⟨p, hp⟩ := exists_pack_of_isFiniteAtRest hv h hfinite
    exact .of_eq_ok hp
  · obtain ⟨f, hf⟩ := exists_unwritable hv h hfinite
    rw [hf]
    trivial

/-- A compilation fails only for reasons about settings or animations, or because the rig has no
finite pose at rest. -/
theorem failsOnly_compile (hrig : rig.IsBuilt) :
    FailsOnly Failure.IsExpected (compile rig animations config) := by
  refine (failsOnly_orFail (config.refuses_check.imp fun _ => .inl)).bind fun _ hcheck => ?_
  refine (failsOnly_orFail (refuses_restPoses.imp fun _ => .inr)).bind fun rest hrest => ?_
  let s : Stage := ofRig rig config rest
  refine (failsOnly_orFail ((s.refuses_compileClips animations).imp fun _ => .inr)).bind
    fun compiled hcompiled => ?_
  have hclips : s.compileClips animations = .ok compiled := orFail_eq_ok.1 hcompiled
  have hpack : FailsOnly Failure.IsExpected (s.pack (compiled.map (·.1))) :=
    failsOnly_pack hrig.nodup_variantNames (areCompiled_of_forall₂ (forall₂_of_mapM_ok hclips))
  have hfinish := fun make : Datapack → Output =>
    finish_eq make (clipPack_of_compileClips hclips)
  exact (congrArg (FailsOnly Failure.IsExpected) (hfinish _)).mpr hpack.map

/-- An animation that is sampled is compiled. -/
theorem exists_compileClip {a : Animation} {names : ClipNames} {clip : Clip}
    {remarks : List Diagnostic} (hname : '/' ∉ names.path.toList)
    (h : sample s.rig a s.config names = .ok (clip, remarks)) :
    ∃ own, s.compileClip a names =
      .ok (⟨clip, .build clip.frames clip.duration⟩, own, remarks) := by
  obtain ⟨own, hown⟩ := s.exists_clipPack (c := ⟨clip, .build clip.frames clip.duration⟩) rfl
    ((takesOver_of_sample h).pathName ▸ hname)
  refine ⟨own, ?_⟩
  unfold compileClip
  rw [h]
  exact congrArg (· >>= fun own => pure (_, own, remarks)) hown

theorem exists_compileClips {named : List (Animation × ClipNames)}
    {sampled : List (Clip × List Diagnostic)} (hnames : ∀ p ∈ named, '/' ∉ p.2.path.toList)
    (h : List.Forall₂ (fun p r => sample s.rig p.1 s.config p.2 = .ok r) named sampled) :
    ∃ compiled, (named.mapM fun p => s.compileClip p.1 p.2) = .ok compiled ∧
      compiled.map (·.1) = sampled.map fun r => ⟨r.1, .build r.1.frames r.1.duration⟩ := by
  induction h with
  | nil => exact ⟨[], rfl, rfl⟩
  | @cons p r named sampled hr _ ih =>
    obtain ⟨hname, hrest⟩ := List.forall_mem_cons.1 hnames
    obtain ⟨own, hown⟩ := s.exists_compileClip hname hr
    obtain ⟨compiled, hcompiled, hclips⟩ := ih hrest
    refine ⟨(⟨r.1, .build r.1.frames r.1.duration⟩, own, r.2) :: compiled, ?_, ?_⟩
    · rw [List.mapM_cons, hown, hcompiled]
      rfl
    · rw [List.map_cons, List.map_cons, hclips]

/-- A compilation succeeds once all animations are sampled and the poses at rest are finite. -/
theorem exists_compile {sampled : List (Clip × List Diagnostic)} (hrig : rig.IsBuilt)
    (hcheck : config.check = .ok ()) (hrest : restPoses rig config = .ok rest)
    (hfinite : (ofRig rig config rest).IsFiniteAtRest)
    (h : List.Forall₂ (fun p r => sample rig p.1 config p.2 = .ok r)
      (animations.zip (allocateClipNames {} {} animations).1) sampled) :
    ∃ o, compile rig animations config = .ok o ∧
      o.clips = sampled.map fun r => ⟨r.1, .build r.1.frames r.1.duration⟩ := by
  obtain ⟨compiled, hcompiled, hclips⟩ := (ofRig rig config rest).exists_compileClips
    (fun p hp => (isPlainName_path (List.of_mem_zip hp).2).separator) h
  obtain ⟨pack, hpack⟩ := exists_pack_of_isFiniteAtRest hrig.nodup_variantNames
    (areCompiled_of_forall₂ (forall₂_of_mapM_ok hcompiled)) hfinite
  have hdone := compile_eq hcheck hrest hcompiled
  rw [hpack] at hdone
  exact ⟨_, hdone, hclips⟩

end Stage

end Marionette
