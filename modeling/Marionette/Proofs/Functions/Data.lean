import Marionette.Proofs.Functions.Leaves
import Marionette.Proofs.Functions.Pack

/-!
# Data in functions

Commands carry data where they create entities or change what entities look like.  Most functions
have no such command.

- `Command.data`: the data that a command carries.
- `Stage.data_frameBody`: the function of a frame carries the new poses of the display entities that
  the frame moves.
- `Stage.data_variantBody`: the function of a variant carries items.
- `Stage.data_functions_cases`: beside these, only summoning carries data.
- `Datum.ints`: the whole numbers in data, with their keys; `Stage.ints_functions_cases`: they are
  numbers of items, starts of interpolations, and how long these take.
-/

namespace Marionette

/-- The data that a command carries. -/
def Command.data : Command → List Compound
  | .dataMerge _ data | .summon _ data => [data]
  | .execute _ run => run.data
  | _ => []

namespace Stage

variable {s : Stage} {paths : ClipPaths} {frame : Frame} {clip : Clip} {clips : List CompiledClip}

/-- The commands of the functions carry no data. -/
def IsDataless (fs : List GeneratedFunction) : Prop := ∀ g ∈ fs, g.2.flatMap Command.data = []

/-- Functions without data, side by side. -/
theorem IsDataless.append {fs gs : List GeneratedFunction} (hf : IsDataless fs)
    (hg : IsDataless gs) : IsDataless (fs ++ gs) :=
  List.forall_mem_append.2 ⟨hf, hg⟩

/-! ### Playing -/

/-- The controls set scores and tags, and call. -/
theorem isDataless_controlFunctions : IsDataless (s.controlFunctions paths clip) := by
  simp [IsDataless, controlFunctions, playBody, applyFirst, seekCurrent, suppressed, tweenSetup,
    advanceBody, endBody, setOwn, copyOwn, Command.copyScore, sync, Command.data]

/-- The exact lookup only tests and calls. -/
theorem isDataless_exactFunctions (n : DispatchNode) : IsDataless (s.exactFunctions paths n) := by
  induction n with
  | leaf frame => exact List.forall_mem_nil _
  | branch lo hi left right ihl ihr =>
    refine List.forall_mem_cons.2 ⟨rfl, ihl.append ihr⟩

/-- So does the one that seeks. -/
theorem isDataless_seekFunctions (upper : Nat) (n : DispatchNode) :
    IsDataless (s.seekFunctions paths upper n) := by
  induction n generalizing upper with
  | leaf frame => exact List.forall_mem_nil _
  | branch lo hi left right ihl ihr =>
    exact List.forall_mem_cons.2 ⟨rfl, (ihl _).append (ihr _)⟩

/-- A dispatch tree is made of both. -/
theorem isDataless_dispatchFunctions (tree : DispatchTree) :
    IsDataless (s.dispatchFunctions paths tree) := by
  unfold dispatchFunctions
  split
  · exact List.forall_mem_cons.2 ⟨rfl, List.forall_mem_singleton.2 rfl⟩
  · rename_i root hroot
    refine ((IsDataless.append ?_ (isDataless_exactFunctions root)).append ?_).append
      (isDataless_seekFunctions _ root)
    · exact List.forall_mem_singleton.2 rfl
    · exact List.forall_mem_singleton.2 rfl

/-! ### Frames -/

/-- The new pose of a node, if it has a display entity and the frame moves it; the flag says whether
interpolation is turned on again. -/
def newPose (s : Stage) (frame : Frame) (b : Slot × Bool) : List Compound :=
  match frame.entry? b.1.node.uuid with
  | none => []
  | some entry => if b.1.node.kind.isMatrix then [s.poseData entry.pose b.2] else []

/-- A display gets the data of a new pose where the frame has an entry for it. -/
theorem mem_newPose_iff {b : Slot × Bool} {data : Compound} :
    data ∈ s.newPose frame b ↔ b.1.node.kind.isMatrix = true ∧
      ∃ entry, frame.entry? b.1.node.uuid = some entry ∧ data = s.poseData entry.pose b.2 := by
  unfold newPose
  cases frame.entry? b.1.node.uuid with
  | none => simp
  | some entry =>
    show data ∈ (if b.1.node.kind.isMatrix then _ else _) ↔ _
    split_ifs with hmatrix
    · simp [hmatrix]
    · simp [hmatrix]

/-- The updates of a frame carry the new poses, node by node. -/
theorem data_updates (flags : List (Slot × Bool)) :
    (s.updates frame flags).1.flatMap Command.data = flags.flatMap (s.newPose frame) := by
  induction flags with
  | nil => rfl
  | cons flag rest ih =>
    obtain ⟨slot, instant⟩ := flag
    rw [List.flatMap_cons, ← ih]
    simp only [updates, newPose]
    cases frame.entry? slot.node.uuid with
    | none => rfl
    | some entry =>
      dsimp only
      rw [List.flatMap_append]
      congr 1
      unfold nodeUpdate
      dsimp only
      split_ifs <;> rfl

/-- Conditions carry no data. -/
theorem data_conditioned (clauses : List Clause) (condition : Option String) (run : Command) :
    (conditioned clauses condition run).data = run.data := by
  unfold conditioned
  split <;> rfl

/-- There is no data beside the poses. -/
theorem data_effects {e : Effect} (he : e ∈ s.effects frame) : e.command.data = [] := by
  rcases effects_cases he with
    ⟨effect, -, v, -, h⟩ | ⟨effect, -, line, -, h⟩ | ⟨slot, -, pose, effect, -, line, -, h⟩ <;>
    rw [h, data_conditioned] <;> rfl

/-- Neither does the call of the effects. -/
theorem data_effectCall : (s.effectCall paths frame).1.flatMap Command.data = [] := by
  rcases s.effectCall_cases paths frame with ⟨-, h⟩ | ⟨command, heq, h⟩ | h <;> rw [h]
  · rfl
  · have hcommand : command.data = [] :=
      data_effects (e := ⟨command, false⟩) (heq ▸ List.mem_cons_self)
    rw [List.flatMap_singleton]
    unfold guardedEffect
    split
    · exact hcommand
    · exact hcommand
  · rfl

/-- The function of a frame carries the new poses. -/
theorem data_frameBody (flags : List (Slot × Bool)) :
    (s.frameBody paths flags frame).flatMap Command.data = flags.flatMap (s.newPose frame) := by
  rw [frameBody, List.flatMap_append, data_updates, data_effectCall, List.append_nil]

/-! ### The rig -/

/-- Nor do the functions for ticks. -/
theorem isDataless_tickFunctions (clips : List Clip) : IsDataless (s.tickFunctions clips) := by
  refine List.forall_mem_cons.2 ⟨?_, List.forall_mem_cons.2 ⟨rfl, List.forall_mem_cons.2 ⟨?_,
    List.forall_mem_singleton.2 rfl⟩⟩⟩
  · -- the objectives and the comments about them
    refine List.flatMap_eq_nil_iff.2 fun c hc => ?_
    simp only [loadBody, List.mem_append, List.mem_cons, List.mem_flatMap, List.mem_map,
      List.not_mem_nil, or_false] at hc
    rcases hc with ((rfl | ⟨o, -, rfl | rfl⟩) | rfl | rfl) | ⟨clip, -, rfl⟩ <;> rfl
  · refine List.flatMap_eq_nil_iff.2 fun c hc => ?_
    simp only [onTickBody, List.mem_append, List.mem_cons, List.mem_map, List.not_mem_nil,
      or_false] at hc
    rcases hc with (rfl | ⟨clip, -, rfl⟩) | rfl <;> rfl

/-- Setting up an instance changes scores and tags alone. -/
theorem data_initBody (clips : List Clip) : (s.initBody clips).flatMap Command.data = [] := by
  refine List.flatMap_eq_nil_iff.2 fun c hc => ?_
  simp only [initBody, List.mem_append, List.mem_flatMap, List.mem_cons, List.not_mem_nil,
    or_false] at hc
  rcases hc with ((rfl | rfl | rfl | rfl) | ⟨clip, -, rfl | rfl⟩) | rfl <;> rfl

/-- Summoning carries the data of the whole vehicle. -/
theorem data_summonBody : s.summonBody.flatMap Command.data = [s.summonPayload] := rfl

/-- The function of a variant carries the items that it shows. -/
theorem data_variantBody {variant : Variant} {data : Compound}
    (h : data ∈ (s.variantBody variant).flatMap Command.data) :
    ∃ model, data = [("item", itemData model)] := by
  unfold variantBody at h
  dsimp only at h
  split at h
  · cases h
  · obtain ⟨c, hc, hdata⟩ := List.mem_flatMap.1 h
    obtain ⟨slot, -, hslot⟩ := List.mem_filterMap.1 hc
    obtain ⟨model, -, rfl⟩ := Option.map_eq_some_iff.1 hslot
    exact ⟨model, List.mem_singleton.1 hdata⟩

/-- A function that carries data is that of a frame, that of a variant, or the one that summons. -/
theorem data_functions_cases {g : GeneratedFunction} (hg : g ∈ s.functions clips) :
    g.2.flatMap Command.data = [] ∨
      (∃ c ∈ clips, ∃ before frame after, c.tree.frames = before ++ frame :: after ∧
        g = ((ClipPaths.ofClip s.names.namespaceName c.clip).frame frame.tick,
          s.frameBody (.ofClip s.names.namespaceName c.clip)
            (s.flagsAfter (s.rig.slots.toList.map fun slot => (slot, false)) before) frame)) ∨
      g = (s.function "summon", s.summonBody) ∨
      ∃ v ∈ s.rig.variants, g = (s.variantApply v.2, s.variantBody v.1) := by
  rcases List.mem_append.1 hg with hg | hg
  -- along the list of functions: trees and frames, controls, those for ticks, those for instances
  · rcases List.mem_append.1 hg with hg | hg
    · obtain ⟨c, hc, hg⟩ := List.mem_flatMap.1 hg
      rcases List.mem_append.1 hg with hg | hg
      · rcases List.mem_append.1 hg with hg | hg
        · exact .inl (isDataless_dispatchFunctions c.tree g hg)
        · obtain ⟨before, frame, after, hall, hg | hg⟩ := mem_framesFrom_cases hg
          · exact .inr (.inl ⟨c, hc, before, frame, after, hall, hg⟩)
          · refine .inl (List.flatMap_eq_nil_iff.2 fun command hcommand => ?_)
            obtain ⟨e, he, rfl⟩ := mem_effectCall hg hcommand
            exact data_effects he
      · exact .inl (isDataless_controlFunctions g hg)
    · exact .inl (isDataless_tickFunctions _ g hg)
  · simp only [instanceFunctions, List.mem_append, List.mem_cons, List.not_mem_nil, or_false,
      List.mem_map] at hg
    rcases hg with (rfl | rfl | rfl | rfl | rfl) | ⟨v, hv, rfl⟩
    · exact .inr (.inr (.inl rfl))
    · exact .inl (data_initBody _)
    · exact .inl rfl
    · exact .inl (List.flatMap_eq_nil_iff.2 fun command hcommand => by
        obtain ⟨clip, -, rfl⟩ := List.mem_map.1 hcommand
        rfl)
    · exact .inl rfl
    · exact .inr (.inr (.inr ⟨v, hv, rfl⟩))

end Stage

/-! ### Whole numbers in data -/

namespace Datum

mutual

/-- The whole numbers in a value, each with the key that it stands below. -/
def ints (key : String) : Datum → List (String × Int)
  | byte v => [(key, v.toInt)]
  | short v => [(key, v.toInt)]
  | int v => [(key, v.toInt)]
  | long v => [(key, v.toInt)]
  | list items => itemInts key items
  | compound entries => entryInts entries
  | byteArray items => items.map fun v => (key, v.toInt)
  | intArray items => items.map fun v => (key, v.toInt)
  | _ => []

/-- The same for the items of a list. -/
def itemInts (key : String) : List Datum → List (String × Int)
  | [] => []
  | item :: items => item.ints key ++ itemInts key items

/-- The same for the entries of a compound. -/
def entryInts : Compound → List (String × Int)
  | [] => []
  | (key, value) :: entries => value.ints key ++ entryInts entries

end

theorem itemInts_eq (key : String) (items : List Datum) :
    itemInts key items = items.flatMap (ints key) := by
  induction items with
  | nil => rfl
  | cons item items ih => rw [itemInts, ih, List.flatMap_cons]

theorem entryInts_eq (entries : Compound) :
    entryInts entries = entries.flatMap fun e => e.2.ints e.1 := by
  induction entries with
  | nil => rfl
  | cons e entries ih => rw [entryInts, ih, List.flatMap_cons]

end Datum

/-- The whole numbers in the data of commands, in order. -/
def intsOf (commands : List Command) : List (String × Int) :=
  (commands.flatMap Command.data).flatMap Datum.entryInts

namespace Stage

variable {s : Stage} {clips : List CompiledClip}

/-- A transformation is made of floats. -/
theorem ints_transformation (key : String) (m : Mat4) : (transformation m).ints key = [] := by
  simp [transformation, Datum.floats, Datum.ints, Datum.itemInts_eq]

/-- An item is there once. -/
theorem ints_itemData (model : String) : (itemData model).ints "item" = [("count", 1)] := rfl

/-- The data of a pose has no whole numbers but those about interpolation. -/
theorem ints_poseData {pose : Pose} {restore : Bool} :
    ∀ e ∈ Datum.entryInts (s.poseData pose restore), e = ("start_interpolation", -1) ∨
      e = ("interpolation_duration", 0) ∨
      e = ("interpolation_duration", s.defaultInterp.toInt) := by
  unfold poseData
  split_ifs <;> simp [Datum.entryInts, Datum.ints, ints_transformation]

/-- What a node shows has no whole number but that of an item. -/
theorem ints_contents (node : RigNode) :
    ∀ e ∈ Datum.entryInts (s.contents node), e = ("count", 1) := by
  unfold contents
  split
  · simp [Datum.entryInts_eq, ints_itemData]
  · simp [Datum.entryInts_eq, ints_itemData]
  · simp [Datum.entryInts_eq, Datum.ints]
  · simp [Datum.entryInts_eq, Datum.ints]
  · exact List.forall_mem_nil _
  · exact List.forall_mem_nil _

/-- The data of a new vehicle has them too, and counts its items. -/
theorem ints_summonPayload : ∀ e ∈ Datum.entryInts s.summonPayload, e = ("count", 1) ∨
    e = ("interpolation_duration", s.defaultInterp.toInt) := by
  have hstrings (key : String) (texts : List String) : (Datum.strings texts).ints key = [] := by
    simp [Datum.strings, Datum.ints, Datum.itemInts_eq]
  intro e he
  simp only [summonPayload, Datum.entryInts, Datum.ints, hstrings, Datum.itemInts_eq,
    List.nil_append, List.append_nil, List.flatMap_map] at he
  obtain ⟨data, hdata, he⟩ := List.mem_flatMap.1 he
  obtain ⟨⟨slot, pose⟩, -, hdata⟩ := List.mem_filterMap.1 hdata
  unfold passenger? at hdata
  dsimp only at hdata
  split at hdata
  · obtain rfl := Option.some.inj hdata
    simp only [Datum.entryInts_eq, List.flatMap_append, List.mem_append] at he
    rcases he with (he | he) | he
    · simp [Datum.ints, hstrings] at he
    · rw [← Datum.entryInts_eq] at he
      exact .inl (ints_contents slot.node e he)
    · rw [List.flatMap_cons, ints_transformation] at he
      exact .inr (List.mem_singleton.1 he)
  · cases hdata

/-- Functions of frames lie deeper. -/
theorem frame_ne_summon (paths : ClipPaths) (tick : Nat) :
    paths.frame tick ≠ s.function "summon" := by
  intro h
  have hpath : (paths.frame tick).path = "summon" := congrArg FunctionPath.path h
  have hseparator : '/' ∈ (paths.frame tick).path.toList := by
    simp [ClipPaths.frame, FunctionPath.join]
  rw [hpath] at hseparator
  exact absurd hseparator (by decide)

/-- The whole numbers in data are numbers of items, starts of interpolations, and how long these
take.  Interpolation is turned off by frames only. -/
theorem ints_functions_cases {g : GeneratedFunction} (hg : g ∈ s.functions clips) :
    ∀ e ∈ intsOf g.2, e = ("count", 1) ∨ e = ("start_interpolation", -1) ∨
      e = ("interpolation_duration", s.defaultInterp.toInt) ∨
      e = ("interpolation_duration", 0) ∧ g.1 ≠ s.function "summon" := by
  unfold intsOf
  rcases data_functions_cases hg with h | ⟨c, -, before, frame, after, -, rfl⟩ | rfl | ⟨v, -, rfl⟩
  · rw [h]
    exact List.forall_mem_nil _
  · intro e he
    obtain ⟨data, hdata, he⟩ := List.mem_flatMap.1 he
    rw [data_frameBody] at hdata
    obtain ⟨b, -, hdata⟩ := List.mem_flatMap.1 hdata
    obtain ⟨-, entry, -, rfl⟩ := mem_newPose_iff.1 hdata
    rcases ints_poseData e he with rfl | rfl | rfl
    · exact .inr (.inl rfl)
    · exact .inr (.inr (.inr ⟨rfl, frame_ne_summon _ _⟩))
    · exact .inr (.inr (.inl rfl))
  · rw [data_summonBody, List.flatMap_singleton]
    exact fun e he => (ints_summonPayload e he).imp_right fun h => .inr (.inl h)
  · intro e he
    obtain ⟨data, hdata, he⟩ := List.mem_flatMap.1 he
    obtain ⟨model, rfl⟩ := data_variantBody hdata
    exact .inl (List.mem_singleton.1 he)

end Stage

end Marionette
