import Marionette.Functions.Rig
import Marionette.Proofs.Functions.Basic

/-!
# Functions of frames

The function of a frame updates poses and then runs what happens beside them.  None of its commands
changes a score or a tag, so running it leaves everything that a dispatch tree asks for.

- `Stage.flagsAfter`: which nodes took their last pose at once, after some frames; `flagsAfter_eq`:
  each node for itself.
- `Stage.mem_framesFrom`: the function of a frame is among those of all frames.
- `Stage.cosmetic_variantApply`, `Stage.cosmetic_frame`: what these functions do changes looks only.
-/

namespace Marionette

namespace Stage

variable {s : Stage} {paths : ClipPaths} {frame : Frame} {c : Command}

/-- Which nodes took their last pose at once, after frames in order. -/
def flagsAfter (s : Stage) (flags : List (Slot × Bool)) (frames : List Frame) :
    List (Slot × Bool) :=
  frames.foldl (fun flags frame => (s.updates frame flags).2) flags

/-- What the flag of a node becomes at a frame. -/
def flagAfter (slot : Slot) (flag : Bool) (frame : Frame) : Bool :=
  match frame.entry? slot.node.uuid with
  | none => flag
  | some entry => if slot.node.kind.isMatrix then entry.pose.marker.isInstant else flag

/-- Each node has a flag of its own. -/
theorem updates_snd (s : Stage) (frame : Frame) (flags : List (Slot × Bool)) :
    (s.updates frame flags).2 = flags.map fun p => (p.1, flagAfter p.1 p.2 frame) := by
  induction flags with
  | nil => rfl
  | cons flag rest ih =>
    simp only [updates, List.map_cons, flagAfter]
    cases frame.entry? flag.1.node.uuid with
    | none => exact congrArg _ ih
    | some entry => exact congrArg _ ih

theorem flagsAfter_eq (s : Stage) (flags : List (Slot × Bool)) (frames : List Frame) :
    s.flagsAfter flags frames = flags.map fun p => (p.1, frames.foldl (flagAfter p.1) p.2) := by
  induction frames generalizing flags with
  | nil => exact (List.map_id _).symm
  | cons frame rest ih =>
    rw [flagsAfter, List.foldl_cons]
    refine (ih _).trans ?_
    rw [updates_snd, List.map_map]
    rfl

/-- The flags follow the nodes. -/
theorem map_fst_flagsAfter (s : Stage) (flags : List (Slot × Bool)) (frames : List Frame) :
    (s.flagsAfter flags frames).map (·.1) = flags.map (·.1) := by
  rw [flagsAfter_eq, List.map_map]
  rfl

/-- The commands of the function of a frame. -/
def frameBody (s : Stage) (paths : ClipPaths) (flags : List (Slot × Bool)) (frame : Frame) :
    List Command :=
  (s.updates frame flags).1 ++ (s.effectCall paths frame).1

/-- The function of a frame, and the function of what happens beside its poses. -/
theorem mem_framesFrom (s : Stage) (paths : ClipPaths) (frame : Frame) (flags : List (Slot × Bool))
    (before after : List Frame) :
    (paths.frame frame.tick, s.frameBody paths (s.flagsAfter flags before) frame) ∈
        s.framesFrom paths flags (before ++ frame :: after) ∧
      ∀ g ∈ (s.effectCall paths frame).2,
      g ∈ s.framesFrom paths flags (before ++ frame :: after) := by
  induction before generalizing flags with
  | nil =>
    simp only [List.nil_append, framesFrom, frameBody, flagsAfter, List.foldl_nil]
    refine ⟨?_, fun g hg => ?_⟩
    · exact List.mem_append_left _ (List.mem_append_right _ List.mem_cons_self)
    · exact List.mem_append_left _ (List.mem_append_left _ hg)
  | cons first before ih =>
    obtain ⟨hbody, heffects⟩ := ih (s.updates first flags).2
    exact ⟨List.mem_append_right _ hbody, fun g hg => List.mem_append_right _ (heffects g hg)⟩

/-- Conversely, every function of frames is that of a frame or of what happens beside its poses. -/
theorem mem_framesFrom_cases {frames : List Frame} {flags : List (Slot × Bool)}
    {g : GeneratedFunction} (hg : g ∈ s.framesFrom paths flags frames) :
    ∃ before frame after, frames = before ++ frame :: after ∧
      (g = (paths.frame frame.tick, s.frameBody paths (s.flagsAfter flags before) frame) ∨
        g ∈ (s.effectCall paths frame).2) := by
  induction frames generalizing flags with
  | nil => cases hg
  | cons frame rest ih =>
    simp only [framesFrom, List.mem_append, List.mem_singleton] at hg
    rcases hg with (hg | rfl) | hg
    · exact ⟨[], frame, rest, rfl, .inr hg⟩
    · exact ⟨[], frame, rest, rfl, .inl rfl⟩
    · obtain ⟨before, later, after, rfl, hcases⟩ := ih hg
      exact ⟨frame :: before, later, after, rfl, hcases⟩

/-- An update of the poses is that of a node with an entry. -/
theorem mem_updates {flags : List (Slot × Bool)} {c : Command}
    (hc : c ∈ (s.updates frame flags).1) :
    ∃ b ∈ flags, ∃ entry, frame.entry? b.1.node.uuid = some entry ∧
      c ∈ (s.nodeUpdate b.1 entry.pose b.2).toList := by
  induction flags with
  | nil => cases hc
  | cons flag rest ih =>
    have hlater (hc : c ∈ (s.updates frame rest).1) :
        ∃ b ∈ flag :: rest, ∃ entry, frame.entry? b.1.node.uuid = some entry ∧
          c ∈ (s.nodeUpdate b.1 entry.pose b.2).toList := by
      obtain ⟨b, hb, h⟩ := ih hc
      exact ⟨b, List.mem_cons_of_mem _ hb, h⟩
    simp only [updates] at hc
    split at hc
    · exact hlater hc
    · rename_i entry hentry
      rcases List.mem_append.1 hc with hc | hc
      · exact ⟨flag, List.mem_cons_self, entry, hentry, hc⟩
      · exact hlater hc

/-- What happens beside the poses: a variant is shown, or a line of the author runs, as the root or
where a node stands. -/
theorem effects_cases {e : Effect} (he : e ∈ s.effects frame) :
    (∃ effect, frame.variant = some effect ∧ ∃ v ∈ s.rig.variants,
      e.command = conditioned [] effect.condition (.function (s.variantApply v.2))) ∨
    (∃ effect, frame.commands = some effect ∧ ∃ line ∈ effect.commands,
      e.command = conditioned [] effect.condition (rawLine line)) ∨
    ∃ slot ∈ s.rig.slots.toList, ∃ pose effect,
      frame.entry? slot.node.uuid = some ⟨pose, some effect⟩ ∧ ∃ line ∈ effect.commands,
        e.command = conditioned (s.locatorClauses slot pose) effect.condition (rawLine line) := by
  rcases List.mem_append.1 he with he | he
  · rcases List.mem_append.1 he with he | he
    · unfold variantEffects at he
      split at he
      · cases he
      · rename_i effect heffect
        obtain ⟨v, hmem, rfl⟩ := List.mem_map.1 he
        obtain ⟨uuid, -, huuid⟩ := List.mem_filterMap.1 hmem
        exact .inl ⟨effect, heffect, v, List.mem_of_find?_eq_some huuid, rfl⟩
    · unfold rootEffects at he
      split at he
      · cases he
      · rename_i effect heffect
        obtain ⟨line, hline, rfl⟩ := List.mem_map.1 he
        exact .inr (.inl ⟨effect, heffect, line, hline, rfl⟩)
  · obtain ⟨slot, hslot, he⟩ := List.mem_flatMap.1 he
    unfold nodeEffects at he
    split at he
    · rename_i pose effect hentry
      obtain ⟨line, hline, rfl⟩ := List.mem_map.1 he
      exact .inr (.inr ⟨slot, hslot, pose, effect, hentry, line, hline, rfl⟩)
    · cases he

/-- What happens beside the poses is nothing, a single command, or a function. -/
theorem effectCall_cases (s : Stage) (paths : ClipPaths) (frame : Frame) :
    (s.effects frame = [] ∧ s.effectCall paths frame = ([], [])) ∨
      (∃ command, s.effects frame = [⟨command, false⟩] ∧
        s.effectCall paths frame = ([s.guardedEffect command], [])) ∨
      s.effectCall paths frame =
        ([.execute [s.unlessSuppressed] (.function (paths.effects frame.tick))],
          [(paths.effects frame.tick, (s.effects frame).map (·.command))]) := by
  unfold effectCall
  split
  · rename_i heq
    exact .inl ⟨heq, rfl⟩
  · rename_i command heq
    exact .inr (.inl ⟨command, heq, rfl⟩)
  · exact .inr (.inr rfl)

/-- The function of what happens beside the poses has just these commands. -/
theorem mem_effectCall {g : GeneratedFunction} (hg : g ∈ (s.effectCall paths frame).2)
    (hc : c ∈ g.2) : ∃ e ∈ s.effects frame, e.command = c := by
  rcases s.effectCall_cases paths frame with ⟨-, h⟩ | ⟨command, -, h⟩ | h <;> rw [h] at hg
  · cases hg
  · cases hg
  · rw [List.mem_singleton.1 hg] at hc
    exact List.mem_map.1 hc

/-! ### Commands of frames change looks only -/

variable {functions : Std.HashMap FunctionPath (List Command)} {d : Nat}

open World (Cosmetic)

/-- Going on as the entity of a node asks for no score. -/
theorem isPlain_onNode (name : String) : ∀ c ∈ s.onNode name, c.isPlain = true := by
  intro c hc
  rcases List.mem_cons.1 hc with rfl | hc
  · rfl
  · rw [List.mem_singleton.1 hc]
    rfl

/-- Neither does going to the place of a locator. -/
theorem isPlain_locatorClauses (slot : Slot) (pose : Pose) :
    ∀ c ∈ s.locatorClauses slot pose, c.isPlain = true := by
  intro c hc
  unfold locatorClauses at hc
  split at hc
  · rcases List.mem_append.1 hc with hc | hc
    · exact isPlain_onNode slot.storageName c hc
    · rw [List.mem_singleton.1 hc]
      rfl
  · simp only [List.mem_cons, List.not_mem_nil, or_false] at hc
    rcases hc with rfl | rfl | rfl <;> rfl

/-- The commands that show a variant. -/
theorem cosmetic_variantBody (variant : Variant) (hc : c ∈ s.variantBody variant) :
    Cosmetic functions d c := by
  unfold variantBody at hc
  dsimp only at hc
  split at hc
  · rw [List.mem_singleton.1 hc]
    exact .comment _
  · obtain ⟨slot, -, hslot⟩ := List.mem_filterMap.1 hc
    obtain ⟨model, -, rfl⟩ := Option.map_eq_some_iff.1 hslot
    exact .execute (isPlain_onNode slot.storageName) (.dataMerge _ _)

/-- The update of a node. -/
theorem cosmetic_nodeUpdate {slot : Slot} {pose : Pose} {restore : Bool}
    (hc : c ∈ (s.nodeUpdate slot pose restore).toList) : Cosmetic functions d c := by
  unfold nodeUpdate at hc
  dsimp only at hc
  split at hc
  · rw [List.mem_singleton.1 hc]
    exact .execute (isPlain_onNode slot.storageName) (.dataMerge _ _)
  · split at hc
    · rw [List.mem_singleton.1 hc]
      refine .execute (fun c hc => ?_) (.teleport _ _ _ _)
      rcases List.mem_append.1 hc with hc | hc
      · rw [List.mem_singleton.1 hc]
        rfl
      · exact isPlain_onNode slot.storageName c hc
    · cases hc

theorem cosmetic_updates {flags : List (Slot × Bool)} (hc : c ∈ (s.updates frame flags).1) :
    Cosmetic functions d c := by
  obtain ⟨b, -, entry, -, hc⟩ := mem_updates hc
  exact cosmetic_nodeUpdate hc

/-- A command of the author under plain clauses and a condition. -/
theorem cosmetic_conditioned {clauses : List Clause} {condition : Option String}
    (hplain : ∀ c ∈ clauses, c.isPlain = true) (hrun : Cosmetic functions d c) :
    Cosmetic functions d (conditioned clauses condition c) := by
  unfold conditioned
  split
  · exact hrun
  · refine .execute (fun c' hc' => ?_) hrun
    rcases List.mem_append.1 hc' with hc' | hc'
    · exact hplain c' hc'
    · obtain ⟨text, -, rfl⟩ := List.mem_map.1 hc'
      rfl

/-- The functions of all variants are known. -/
def KnowsVariants (s : Stage) (functions : Std.HashMap FunctionPath (List Command)) : Prop :=
  ∀ v ∈ s.rig.variants, functions[s.variantApply v.2]? = some (s.variantBody v.1)

/-- What happens at a frame beside the poses. -/
theorem cosmetic_effects (hv : s.KnowsVariants functions) {e : Effect} (he : e ∈ s.effects frame) :
    Cosmetic functions (d + 1) e.command := by
  rcases effects_cases he with
    ⟨effect, -, v, hmem, h⟩ | ⟨effect, -, line, -, h⟩ | ⟨slot, -, pose, effect, -, line, -, h⟩ <;>
    rw [h]
  · exact cosmetic_conditioned (by simp)
      (.function (hv v hmem) fun c hc => cosmetic_variantBody v.1 hc)
  · exact cosmetic_conditioned (by simp) (.raw _)
  · exact cosmetic_conditioned (isPlain_locatorClauses slot pose) (.raw _)

theorem cosmetic_guardedEffect (h : Cosmetic functions d c) :
    Cosmetic functions d (s.guardedEffect c) := by
  unfold guardedEffect
  split
  · rename_i clauses run
    cases h with
    | execute plain cosmetic =>
      refine .execute (fun c hc => ?_) cosmetic
      rcases List.mem_cons.1 hc with rfl | hc
      · rfl
      · exact plain c hc
  · refine .execute (fun c hc => ?_) h
    rw [List.mem_singleton.1 hc]
    rfl

/-- The call of what happens beside the poses, where its function is known. -/
theorem cosmetic_effectCall (hv : s.KnowsVariants functions)
    (hf : ∀ g ∈ (s.effectCall paths frame).2, functions[g.1]? = some g.2)
    (hc : c ∈ (s.effectCall paths frame).1) : Cosmetic functions (d + 2) c := by
  have heffects : ∀ e ∈ s.effects frame, Cosmetic functions (d + 1) e.command :=
    fun e he => cosmetic_effects hv he
  rcases s.effectCall_cases paths frame with ⟨-, h⟩ | ⟨command, heq, h⟩ | h <;> rw [h] at hc hf
  · cases hc
  · rw [List.mem_singleton.1 hc]
    have hcommand : Cosmetic functions (d + 1) command :=
      heffects ⟨command, false⟩ (heq ▸ List.mem_cons_self)
    exact cosmetic_guardedEffect (hcommand.deeper (Nat.le_succ _))
  · rw [List.mem_singleton.1 hc]
    refine .execute (fun c hc => ?_) (.function (hf _ List.mem_cons_self) fun c hc => ?_)
    · rw [List.mem_singleton.1 hc]
      rfl
    · obtain ⟨e, he, rfl⟩ := List.mem_map.1 hc
      exact heffects e he

/-- Where the functions of the frames and of the variants are known, calling the function of a frame
changes looks only. -/
theorem cosmetic_frame {frames : List Frame} {flags : List (Slot × Bool)}
    (hv : s.KnowsVariants functions)
    (hf : ∀ g ∈ s.framesFrom paths flags frames, functions[g.1]? = some g.2)
    (hmem : frame ∈ frames) :
    Cosmetic functions 3 (.function (paths.frame frame.tick)) := by
  obtain ⟨before, after, rfl⟩ := List.append_of_mem hmem
  obtain ⟨hbody, heffects⟩ := s.mem_framesFrom paths frame flags before after
  refine .function (hf _ hbody) fun c hc => ?_
  rcases List.mem_append.1 hc with hc | hc
  · exact cosmetic_updates hc
  · exact cosmetic_effectCall hv (fun g hg => hf g (heffects g hg)) hc

end Stage

end Marionette
