import Marionette.Proofs.Instance.Takes

/-!
# What frames do to an instance

- `Instance.posed`: the entities of the nodes take the poses of a frame.
- `Instance.happenings`: what happens beside the poses, in order: variants, root commands, locators.
- `Instance.framed`: a whole frame; what happens beside the poses is left out while the root is
  tagged to change poses only.
- `Takes.applyFrame`: the function of a frame does just this.
- `Instance.dispatched`, `Takes.dispatch`: the same for the frame that the frame score asks for.
-/

namespace Marionette

/-- Which nodes took their last pose at once, before a frame of a tree. -/
def Stage.flagsBefore (s : Stage) (tree : DispatchTree) (frame : Frame) : List (Slot × Bool) :=
  s.flagsAfter (s.rig.slots.toList.map fun slot => (slot, false))
    (tree.frames.takeWhile (·.tick < frame.tick))

/-- A command of the author without the slashes in front of it, as it is recorded. -/
def lineText (line : String) : String :=
  String.ofList (line.toList.dropWhile (· == '/'))

/-- Of frames in order, those with smaller ticks are those before a frame. -/
theorem Increasing.takeWhile_eq {before after : List Frame} {frame : Frame}
    (h : Increasing (before ++ frame :: after)) :
    (before ++ frame :: after).takeWhile (·.tick < frame.tick) = before := by
  obtain ⟨-, -, hlt⟩ := List.pairwise_append.1 h
  rw [List.takeWhile_append_of_pos fun f hf => by simpa using hlt f hf frame List.mem_cons_self]
  simp

namespace Instance

variable (I : Instance)

/-- Changes what the entities of a node look like. -/
def relookNode (name : String) (g : Look → Look) : Scene → Scene :=
  I.atNode name fun id sc => sc.relook id g

/-- A node takes a pose. -/
def updated (slot : Slot) (pose : Pose) (restore : Bool) (sc : Scene) : Scene :=
  if slot.node.kind.isMatrix then
    I.relookNode slot.storageName (·.merged (I.stage.poseData pose restore)) sc
  else if slot.node.kind.hasEntity then
    I.relookNode slot.storageName (·.moved pose.offset pose.yaw pose.pitch) sc
  else sc

/-- The nodes take the poses of a frame; the flags say which of them took the last one at once. -/
def posed (frame : Frame) (flags : List (Slot × Bool)) (sc : Scene) : Scene :=
  flags.foldl (fun sc flag => match frame.entry? flag.1.node.uuid with
    | none => sc
    | some entry => I.updated flag.1 entry.pose flag.2 sc) sc

/-- The bones show a variant. -/
def varied (variant : Variant) (sc : Scene) : Scene :=
  I.stage.rig.slots.toList.foldl (fun sc slot =>
    match Stage.boneItem? slot.node (some variant) with
    | none => sc
    | some model => I.relookNode slot.storageName (·.merged [("item", itemData model)]) sc) sc

/-- A condition of the author holds. -/
def holds (condition : Option String) : Bool :=
  condition.all fun text => I.home.conditions.getD text true

/-- Something happens under a condition of the author. -/
def provided (condition : Option String) (f : Scene → Scene) (sc : Scene) : Scene :=
  if I.holds condition then f sc else sc

/-- A line of a node is recorded: by its entity if it is a tracked locator, and else by the root. -/
def saidAt (slot : Slot) (condition : Option String) (line : String) (sc : Scene) : Scene :=
  match slot.node.kind with
  | .locator true =>
    I.atNode slot.storageName (fun id => I.provided condition (·.say id (lineText line))) sc
  | _ => I.provided condition (·.say I.root (lineText line)) sc

/-- The variants that a frame shows. -/
def variantHappenings (frame : Frame) : List (Scene → Scene) :=
  match frame.variant with
  | none => []
  | some effect => (effect.variants.filterMap I.stage.rig.variant?).map fun v =>
    I.provided effect.condition (I.varied v.1)

/-- The commands that the root runs at a frame. -/
def rootHappenings (frame : Frame) : List (Scene → Scene) :=
  match frame.commands with
  | none => []
  | some effect => effect.commands.map fun line =>
    I.provided effect.condition (·.say I.root (lineText line))

/-- The commands that a node runs at a frame. -/
def nodeHappenings (frame : Frame) (slot : Slot) : List (Scene → Scene) :=
  match frame.entry? slot.node.uuid with
  | some ⟨_, some effect⟩ => effect.commands.map (I.saidAt slot effect.condition)
  | _ => []

/-- What happens at a frame beside the poses, in order. -/
def happenings (frame : Frame) : List (Scene → Scene) :=
  I.variantHappenings frame ++ I.rootHappenings frame ++
    I.stage.rig.slots.toList.flatMap (I.nodeHappenings frame)

/-- A frame of a tree is applied. -/
def framed (tree : DispatchTree) (frame : Frame) (sc : Scene) : Scene :=
  let posed := I.posed frame (I.stage.flagsBefore tree frame) sc
  if posed.tagged .suppress then posed else (I.happenings frame).foldl (fun sc f => f sc) posed

/-- The frame is applied that the frame score asks for. -/
def dispatched (tree : DispatchTree) (sc : Scene) : Scene :=
  match (sc.score .frame).bind fun v =>
    if v.toInt < 0 then none else tree.findFrame? v.toInt.toNat with
  | none => sc
  | some frame => I.framed tree frame sc

variable {I} {d : Nat} {sc sc' : Scene} {c : Command} {rest : List Clause} {executor : Option Nat}
  {slot : Slot} {frame : Frame} {paths : ClipPaths}

/-! ### Poses -/

/-- Merging data into the entities of a node. -/
theorem Takes.mergeAt {name : String} {data : Compound} :
    I.Takes d (some I.root) (.execute (I.stage.onNode name) (.dataMerge .this data)) sc
      (I.relookNode name (·.merged data) sc) := by
  have h : I.Takes d (some I.root)
      (.execute (I.stage.onNode name ++ []) (.dataMerge .this data)) sc
      (I.relookNode name (·.merged data) sc) :=
    Takes.onNode fun r hr sc => Takes.execute_nil (Takes.dataMerge hr)
  rwa [List.append_nil] at h

/-- Moving the entities of a node. -/
theorem Takes.moveAt {name : String} {offset : Vec3} {yaw pitch : Float} :
    I.Takes d (some I.root)
      (.execute (I.stage.onNode name) (.teleport .this offset yaw pitch)) sc
      (I.relookNode name (·.moved offset yaw pitch) sc) := by
  have h : I.Takes d (some I.root)
      (.execute (I.stage.onNode name ++ []) (.teleport .this offset yaw pitch)) sc
      (I.relookNode name (·.moved offset yaw pitch) sc) :=
    Takes.onNode fun r hr sc => Takes.execute_nil (Takes.teleport hr)
  rwa [List.append_nil] at h

/-- The update of a node changes the looks of its passenger. -/
theorem Takes.nodeUpdate {pose : Pose} {restore : Bool}
    (hc : I.stage.nodeUpdate slot pose restore = some c) :
    I.Takes d (some I.root) c sc (I.updated slot pose restore sc) := by
  unfold Stage.nodeUpdate at hc
  dsimp only at hc
  unfold updated
  split at hc
  · rename_i hmatrix
    obtain rfl := Option.some.inj hc
    rw [if_pos hmatrix]
    exact Takes.mergeAt
  · rename_i hmatrix
    rw [if_neg hmatrix]
    split at hc
    · rename_i hentity
      obtain rfl := Option.some.inj hc
      rw [if_pos hentity]
      exact Takes.execute_atEach Takes.moveAt
    · cases hc

/-- A node without an entity has no pose to take. -/
theorem updated_of_nodeUpdate_eq_none {pose : Pose} {restore : Bool}
    (h : I.stage.nodeUpdate slot pose restore = none) : I.updated slot pose restore sc = sc := by
  unfold Stage.nodeUpdate at h
  dsimp only at h
  unfold updated
  split at h
  · cases h
  · rename_i hmatrix
    rw [if_neg hmatrix]
    split at h
    · cases h
    · rename_i hentity
      rw [if_neg hentity]

/-- The updates of a frame change the looks node by node. -/
theorem TakesAll.updates (flags : List (Slot × Bool)) :
    I.TakesAll d (some I.root) (I.stage.updates frame flags).1 sc (I.posed frame flags sc) := by
  induction flags generalizing sc with
  | nil => exact TakesAll.nil
  | cons flag rest ih =>
    have hposed : I.posed frame (flag :: rest) sc =
        I.posed frame rest (match frame.entry? flag.1.node.uuid with
          | none => sc
          | some entry => I.updated flag.1 entry.pose flag.2 sc) := rfl
    rw [hposed]
    simp only [Stage.updates]
    cases frame.entry? flag.1.node.uuid with
    | none => exact ih
    | some entry =>
      have hown : I.TakesAll d (some I.root)
          (I.stage.nodeUpdate flag.1 entry.pose flag.2).toList sc
          (I.updated flag.1 entry.pose flag.2 sc) := by
        cases hupdate : I.stage.nodeUpdate flag.1 entry.pose flag.2 with
        | none =>
          rw [updated_of_nodeUpdate_eq_none hupdate]
          exact TakesAll.nil
        | some c => exact TakesAll.single (Takes.nodeUpdate hupdate)
      exact TakesAll.append hown ih

/-! ### What happens beside the poses -/

/-- A command under a condition of the author. -/
theorem Takes.ifRaws {condition : Option String} {f : Scene → Scene}
    (h : I.Takes d executor c sc (f sc)) :
    I.Takes d executor (.execute (condition.toList.map .raw) c) sc (I.provided condition f sc) := by
  unfold provided holds
  cases condition with
  | none => exact Takes.execute_nil h
  | some text =>
    refine Takes.ifRaw ?_
    rw [Option.all_some]
    split
    · exact Takes.execute_nil h
    · rfl

/-- A command under clauses and a condition of the author is an `execute` command also where there
are none. -/
theorem Takes.conditioned {clauses : List Clause} {condition : Option String}
    (h : I.Takes d executor (.execute (clauses ++ condition.toList.map .raw) c) sc sc') :
    I.Takes d executor (Marionette.conditioned clauses condition c) sc sc' := by
  unfold Marionette.conditioned
  split
  · rename_i heq
    rw [heq] at h
    exact h
  · exact h

/-- A variant gives the bones its items, slot by slot. -/
theorem Takes.variantApply {v : Variant × String} (hv : v ∈ I.stage.rig.variants) :
    I.Takes (d + 1) (some I.root) (.function (I.stage.variantApply v.2)) sc (I.varied v.1 sc) := by
  have hmem : (I.stage.variantApply v.2, I.stage.variantBody v.1) ∈ I.stage.functions I.clips :=
    Stage.mem_functions_of_variant hv
  refine Takes.call hmem ?_
  -- the commands are those of the bones, slot by slot
  have hslots : ∀ slots : List Slot, ∀ sc, I.TakesAll d (some I.root)
      (slots.filterMap fun slot => (Stage.boneItem? slot.node (some v.1)).map fun model =>
        Command.execute (I.stage.onNode slot.storageName)
          (.dataMerge .this [("item", itemData model)])) sc
      (slots.foldl (fun sc slot => match Stage.boneItem? slot.node (some v.1) with
        | none => sc
        | some model => I.relookNode slot.storageName (·.merged [("item", itemData model)]) sc)
        sc) := by
    intro slots
    induction slots with
    | nil => exact fun sc => TakesAll.nil
    | cons slot rest ih =>
      intro sc
      rw [List.foldl_cons, List.filterMap_cons]
      cases Stage.boneItem? slot.node (some v.1) with
      | none => exact ih sc
      | some model => exact TakesAll.cons Takes.mergeAt (ih _)
  have hall := hslots I.stage.rig.slots.toList sc
  unfold Stage.variantBody
  dsimp only
  split
  · rename_i hempty
    rw [List.isEmpty_iff.1 hempty] at hall
    exact TakesAll.cons Takes.comment hall
  · exact hall

/-- A line of the author, under its condition. -/
theorem Takes.rawLine {condition : Option String} {line : String} {id : Nat} :
    I.Takes d (some id) (.execute (condition.toList.map .raw) (Marionette.rawLine line)) sc
      (I.provided condition (·.say id (lineText line)) sc) :=
  Takes.ifRaws (f := fun sc => sc.say id (lineText line)) Takes.raw

/-- The line of a locator is recorded at its place. -/
theorem Takes.locatorLine {condition : Option String} {line : String} {pose : Pose} :
    I.Takes d (some I.root)
      (Marionette.conditioned (I.stage.locatorClauses slot pose) condition
        (Marionette.rawLine line)) sc (I.saidAt slot condition line sc) := by
  refine Takes.conditioned ?_
  unfold Stage.locatorClauses saidAt
  have hroot : I.Takes d (some I.root) (.execute ([.atEach .this, .positionedLocal pose.offset,
      .rotatedRelative pose.yaw pose.pitch] ++ condition.toList.map .raw) (Marionette.rawLine line))
      sc (I.provided condition (·.say I.root (lineText line)) sc) :=
    Takes.execute_atEach (Takes.execute_positionedLocal (Takes.execute_rotatedRelative
      Takes.rawLine))
  cases slot.node.kind with
  | locator tracked =>
    cases tracked with
    | true =>
      dsimp only
      rw [List.append_assoc]
      exact Takes.onNode fun r _ sc => Takes.execute_atEach Takes.rawLine
    | false => exact hroot
  | _ => exact hroot

/-- Each effect does what happens at its place. -/
def Performs (I : Instance) (d : Nat) (effects : List Effect) (fs : List (Scene → Scene)) : Prop :=
  List.Forall₂ (fun e f => ∀ sc, I.Takes d (some I.root) e.command sc (f sc)) effects fs

/-- Effects made from a list are performed one by one. -/
theorem performs_map {α : Type} (xs : List α) {effect : α → Effect} {f : α → Scene → Scene}
    (h : ∀ x ∈ xs, ∀ sc, I.Takes d (some I.root) (effect x).command sc (f x sc)) :
    I.Performs d (xs.map effect) (xs.map f) := by
  unfold Performs
  rw [List.forall₂_map_left_iff, List.forall₂_map_right_iff, List.forall₂_same]
  exact h

/-- Or part by part. -/
theorem performs_flatMap {α : Type} (xs : List α) {effects : α → List Effect}
    {fs : α → List (Scene → Scene)} (h : ∀ x ∈ xs, I.Performs d (effects x) (fs x)) :
    I.Performs d (xs.flatMap effects) (xs.flatMap fs) := by
  induction xs with
  | nil => exact .nil
  | cons x xs ih =>
    rw [List.flatMap_cons, List.flatMap_cons]
    exact List.rel_append (h x List.mem_cons_self)
      (ih fun x hx => h x (List.mem_cons_of_mem _ hx))

/-- The variant of a frame, if it has one. -/
theorem performs_variantEffects (frame : Frame) :
    I.Performs (d + 1) (I.stage.variantEffects frame) (I.variantHappenings frame) := by
  unfold Stage.variantEffects variantHappenings
  cases frame.variant with
  | none => exact .nil
  | some effect =>
    refine performs_map _ fun v hv sc => ?_
    obtain ⟨uuid, -, huuid⟩ := List.mem_filterMap.1 hv
    refine Takes.conditioned (Takes.ifRaws ?_)
    exact Takes.variantApply (List.mem_of_find?_eq_some huuid)

/-- The commands of the root. -/
theorem performs_rootEffects (frame : Frame) :
    I.Performs d (Stage.rootEffects frame) (I.rootHappenings frame) := by
  unfold Stage.rootEffects rootHappenings
  cases frame.commands with
  | none => exact .nil
  | some effect => exact performs_map _ fun line _ sc => Takes.conditioned Takes.rawLine

/-- The commands of a locator or of another node. -/
theorem performs_nodeEffects (frame : Frame) (slot : Slot) :
    I.Performs d (I.stage.nodeEffects frame slot) (I.nodeHappenings frame slot) := by
  unfold Stage.nodeEffects nodeHappenings
  cases frame.entry? slot.node.uuid with
  | none => exact .nil
  | some entry =>
    obtain ⟨pose, effect⟩ := entry
    cases effect with
    | none => exact .nil
    | some effect => exact performs_map _ fun line _ sc => Takes.locatorLine

/-- The effects of a frame, in their order. -/
theorem performs_effects (frame : Frame) :
    I.Performs (d + 1) (I.stage.effects frame) (I.happenings frame) :=
  List.rel_append (List.rel_append (performs_variantEffects frame) (performs_rootEffects frame))
    (performs_flatMap _ fun slot _ => performs_nodeEffects frame slot)

/-- Commands that perform effects take the scene through all of them. -/
theorem TakesAll.effects {effects : List Effect} {fs : List (Scene → Scene)}
    (h : I.Performs d effects fs) :
    I.TakesAll d (some I.root) (effects.map (·.command)) sc (fs.foldl (fun sc f => f sc) sc) := by
  induction h generalizing sc with
  | nil => exact TakesAll.nil
  | cons he _ ih => exact TakesAll.cons (he sc) ih

/-- Effects are guarded by the tag that suppresses them. -/
theorem Takes.guardedEffect (h : I.Takes d (some I.root) c sc sc') :
    I.Takes d (some I.root) (I.stage.guardedEffect c) sc
      (if sc.tagged .suppress then sc else sc') := by
  unfold Stage.guardedEffect
  split
  · exact Takes.unlessTagged (t := .suppress) fun _ => h
  · exact Takes.unlessTagged (t := .suppress) fun _ => Takes.execute_nil h

/-- All effects of a frame are skipped together. -/
theorem TakesAll.effectCall
    (hf : ∀ g ∈ (I.stage.effectCall paths frame).2, g ∈ I.stage.functions I.clips) :
    I.TakesAll 2 (some I.root) (I.stage.effectCall paths frame).1 sc
      (if sc.tagged .suppress then sc else (I.happenings frame).foldl (fun sc f => f sc) sc) := by
  have hperforms : I.Performs 1 (I.stage.effects frame) (I.happenings frame) :=
    performs_effects frame
  -- no effect needs no command, one effect stands in the frame, and several have their function
  rcases I.stage.effectCall_cases paths frame with ⟨heq, h⟩ | ⟨command, heq, h⟩ | h
  all_goals rw [h] at hf ⊢
  · rw [heq] at hperforms
    rw [List.forall₂_nil_left_iff.1 hperforms, List.foldl_nil, ite_self]
    exact TakesAll.nil
  · rw [heq] at hperforms
    obtain ⟨f, fs, hcommand, hrest, hfs⟩ := List.forall₂_cons_left_iff.1 hperforms
    rw [hfs, List.forall₂_nil_left_iff.1 hrest]
    exact TakesAll.single (Takes.guardedEffect (Takes.deeper (Nat.le_succ 1) (hcommand sc)))
  · refine TakesAll.single (Takes.guardedEffect (c := .function _) ?_)
    exact Takes.call (hf _ List.mem_cons_self) (TakesAll.effects hperforms)

/-- The function of a frame applies it. -/
theorem Takes.applyFrame {clip : CompiledClip} (hclip : clip ∈ I.clips)
    (hinc : Increasing clip.tree.frames) (hframe : frame ∈ clip.tree.frames) :
    I.Takes 3 (some I.root)
      (.function ((ClipPaths.ofClip I.stage.names.namespaceName clip.clip).frame frame.tick)) sc
      (I.framed clip.tree frame sc) := by
  -- the flags of a frame are those that the frames before it leave behind
  obtain ⟨before, after, hframes⟩ := List.append_of_mem hframe
  have hflags : clip.tree.frames.takeWhile (·.tick < frame.tick) = before := by
    rw [hframes] at hinc ⊢
    exact hinc.takeWhile_eq
  obtain ⟨hbody, heffects⟩ := I.stage.mem_framesFrom
    (ClipPaths.ofClip I.stage.names.namespaceName clip.clip) frame
    (I.stage.rig.slots.toList.map fun slot => (slot, false)) before after
  rw [← hframes] at hbody heffects
  have hmem : ∀ g ∈ I.stage.leafFunctions
      (ClipPaths.ofClip I.stage.names.namespaceName clip.clip) clip.tree,
      g ∈ I.stage.functions I.clips := fun g hg =>
    Stage.mem_functions_of_leaf hclip hg
  refine Takes.call (hmem _ hbody) ?_
  unfold framed Stage.flagsBefore
  rw [hflags]
  exact TakesAll.append (TakesAll.updates _)
    (TakesAll.effectCall fun g hg => hmem g (heffects g hg))

end Instance

end Marionette
