import Mathlib.Data.List.TakeWhile
import Marionette.Proofs.Frame
import Marionette.Proofs.Functions.Leaves
import Marionette.Proofs.Functions.Pack
import Marionette.Proofs.Lines.Commands

/-!
# Functions of an animation, with one line for each command

What the author writes gets into functions through names, conditions, lines of commands, and the
items, blocks and texts of the nodes.

- `Frame.IsOneLine`, `Clip.IsOneLine`, `Stage.IsOneLine`: all of that stays on a line.
- `Stage.fits_controlFunctions`, `Stage.fits_dispatchFunctions`, `Stage.fits_leafFunctions`: then so
  do the commands of an animation.
-/

namespace Marionette

/-! ### What the author writes -/

/-- Lines of commands, and the condition in front of them, stay on a line each. -/
def FitOnLines (lines : List String) (condition : Option String) : Prop :=
  (∀ line ∈ lines, IsLine line) ∧ ∀ text ∈ condition, IsLine text

/-- Something is left of a line without the slashes in front of it. -/
def SaysSomething (line : String) : Prop := ∃ c ∈ line.toList, c ≠ '/'

/-- No item or block that a node shows holds a carriage return. -/
def NodeKind.HasNoReturn : NodeKind → Prop
  | bone item => ∀ id ∈ item, Marionette.HasNoReturn id
  | itemDisplay id | blockDisplay id => Marionette.HasNoReturn id
  | _ => True

/-- The name of a variant stays on a line, and no model holds a carriage return. -/
structure Variant.IsOneLine (v : Variant) : Prop where
  name : IsLine v.name
  models : ∀ m ∈ v.models, HasNoReturn m.2

/-- What happens at a frame beside the poses stays on lines, and none of them is empty. -/
structure Frame.IsOneLine (f : Frame) : Prop where
  variant : ∀ e ∈ f.variant, FitOnLines [] e.condition
  commands : ∀ e ∈ f.commands, FitOnLines e.commands e.condition ∧
    (e.condition = none → ∀ line ∈ e.commands, SaysSomething line)
  nodes : ∀ n ∈ f.nodes, ∀ e ∈ n.2.effect, FitOnLines e.commands e.condition

/-- The names and the frames of an animation stay on lines. -/
structure Clip.IsOneLine (clip : Clip) : Prop where
  name : IsLine clip.name
  pathName : IsLine clip.pathName
  storageName : IsLine clip.storageName
  frames : ∀ f ∈ clip.frames, f.IsOneLine

/-- The names of a rig and what its nodes show stay on lines. -/
structure Stage.IsOneLine (s : Stage) : Prop where
  namespaceName : IsLine s.names.namespaceName
  name : IsLine s.rig.name
  rootEntity : IsLine s.config.rootEntity
  slots : ∀ slot ∈ s.rig.slots.toList, IsLine slot.storageName ∧ slot.node.kind.HasNoReturn
  variants : ∀ v ∈ s.rig.variants, IsLine v.2 ∧ v.1.IsOneLine

/-! ### Commands -/

theorem isLine_nat (n : Nat) : IsLine (toString n) := isLine_repr n

/-- The name of an objective or a tag is the name space, a dot and the rest. -/
theorem RuntimeNames.isLine_name {v : RuntimeNames} (hv : IsLine v.namespaceName) {rest : String}
    (hrest : IsLine rest) : IsLine (v.name rest) :=
  .append (.append hv (by decide)) hrest

@[simp] theorem Selector.isOneLine_this : Selector.this.IsOneLine :=
  ⟨nofun, nofun⟩

@[simp] theorem Selector.isOneLine_tagged {selector : Selector} {tag : String} :
    (selector.tagged tag).IsOneLine ↔ selector.IsOneLine ∧ IsLine tag := by
  simp [IsOneLine, tagged, or_imp, forall_and, and_assoc]

@[simp] theorem Holder.isOneLine_this : Holder.this.IsOneLine := Selector.isOneLine_this

namespace Clause

@[simp] theorem isOneLine_ifEntity {selector : Selector} :
    (ifEntity selector).IsOneLine ↔ selector.IsOneLine := Iff.rfl

@[simp] theorem isOneLine_unlessEntity {selector : Selector} :
    (unlessEntity selector).IsOneLine ↔ selector.IsOneLine := Iff.rfl

@[simp] theorem isOneLine_unlessScore {holder : Holder} {objective : String} {range : ScoreRange} :
    (unlessScore holder objective range).IsOneLine ↔ holder.IsOneLine ∧ IsLine objective := Iff.rfl

@[simp] theorem isOneLine_ifOwn {objective : String} {range : ScoreRange} :
    (ifOwn objective range).IsOneLine ↔ IsLine objective :=
  and_iff_right Holder.isOneLine_this

@[simp] theorem isOneLine_asEach {selector : Selector} :
    (asEach selector).IsOneLine ↔ selector.IsOneLine := Iff.rfl

@[simp] theorem isOneLine_atEach {selector : Selector} :
    (atEach selector).IsOneLine ↔ selector.IsOneLine := Iff.rfl

@[simp] theorem isOneLine_onPassengers : onPassengers.IsOneLine := trivial

@[simp] theorem isOneLine_positionedLocal {offset : Vec3} : (positionedLocal offset).IsOneLine :=
  trivial

@[simp] theorem isOneLine_rotatedRelative {yaw pitch : Float} :
    (rotatedRelative yaw pitch).IsOneLine :=
  trivial

end Clause

/-- Setting a score of the root writes nothing but the name of the objective. -/
@[simp] theorem isOneLine_setOwn {objective : String} {value : Int32} :
    (setOwn objective value).IsOneLine ↔ IsLine objective :=
  and_iff_right Holder.isOneLine_this

@[simp] theorem setOwn_ne_raw {objective text : String} {value : Int32} :
    setOwn objective value ≠ .raw text := nofun

@[simp] theorem isOneLine_copyOwn {target source : String} :
    (copyOwn target source).IsOneLine ↔ IsLine target ∧ IsLine source := by
  simp [copyOwn, Command.copyScore]

@[simp] theorem copyOwn_ne_raw {target source text : String} :
    copyOwn target source ≠ .raw text := nofun

namespace Stage

variable {s : Stage} {paths : ClipPaths} {clip : Clip}

@[simp] theorem isOneLine_sync : s.sync.IsOneLine ↔ IsLine s.names.namespaceName :=
  and_iff_left (show IsLine "sync_interpolation" by decide)

@[simp] theorem sync_ne_raw {text : String} : s.sync ≠ .raw text := nofun

/-- Every command of every function fits. -/
def FitAll (fs : List GeneratedFunction) : Prop := ∀ g ∈ fs, ∀ c ∈ g.2, c.Fits

/-- Functions that can be written as lines stay so side by side. -/
theorem FitAll.append {fs gs : List GeneratedFunction} (hf : FitAll fs) (hg : FitAll gs) :
    FitAll (fs ++ gs) :=
  List.forall_mem_append.2 ⟨hf, hg⟩

/-- The names of the state of an instance stay on a line. -/
theorem IsOneLine.own (hs : s.IsOneLine) :
    IsLine s.names.frame ∧ IsLine s.names.tween ∧ IsLine s.names.tweenRequest ∧
      IsLine s.names.interp ∧ IsLine s.names.lifetime ∧ IsLine s.names.suppressTag ∧
      IsLine s.names.rootTag ∧ IsLine s.names.newTag ∧ IsLine s.names.anyNodeTag := by
  have hname : ∀ {rest}, IsLine rest → IsLine (s.names.name rest) :=
    RuntimeNames.isLine_name hs.namespaceName
  exact ⟨hname (by decide), hname (by decide), hname (by decide), hname (by decide),
    hname (by decide), hname (by decide), hname (by decide), hname (by decide), hname (by decide)⟩

/-- So do the names of the state of an animation. -/
theorem IsOneLine.ofAnimation (hs : s.IsOneLine) {animation : String} (ha : IsLine animation) :
    IsLine (s.names.localTime animation) ∧ IsLine (s.names.loopMode animation) ∧
      IsLine (s.names.playingTag animation) := by
  have hname : ∀ {rest}, IsLine rest → IsLine (s.names.name rest) :=
    RuntimeNames.isLine_name hs.namespaceName
  exact ⟨hname (.append ha (by decide)), hname (.append ha (by decide)),
    hname (.append ha (by decide))⟩

/-- The functions of an animation lie below a path that stays on a line. -/
abbrev HasLinePath (paths : ClipPaths) : Prop :=
  IsLine paths.root.namespaceName ∧ IsLine paths.root.path

/-- A path may be extended by a segment on a line. -/
theorem isLine_join {path : FunctionPath} {segment : String} (hpath : IsLine path.path)
    (hsegment : IsLine segment) : IsLine (path.join segment).path :=
  .append (.append hpath (by decide)) hsegment

/-! ### Controls -/

/-- All controls of an animation are written as lines. -/
theorem fits_controlFunctions (hs : s.IsOneLine) (hpaths : HasLinePath paths)
    (hclip : IsLine clip.storageName) : FitAll (s.controlFunctions paths clip) := by
  have hown := hs.own
  have hanimation := hs.ofAnimation hclip
  have hsegments : IsLine "/" ∧ IsLine "dispatch" ∧ IsLine "seek" ∧ IsLine "advance" ∧
      IsLine "end" ∧ IsLine "stop" ∧ IsLine "pause" := by decide
  simp [FitAll, controlFunctions, playBody, applyFirst, seekCurrent, suppressed, tweenSetup,
    advanceBody, endBody, ClipPaths.dispatch, ClipPaths.seek, ClipPaths.control, FunctionPath.join,
    isLine_append, hown, hanimation, hsegments, hpaths, hs.namespaceName]

/-! ### Dispatch trees -/

/-- Calls in the tree are commands on a line as soon as the paths of their targets are. -/
theorem fits_guardedCall (hs : s.IsOneLine) {lo hi : Nat} {path : FunctionPath}
    (hpath : IsLine path.namespaceName ∧ IsLine path.path) : (s.guardedCall lo hi path).Fits := by
  simp [guardedCall, hs.own, hpath]

/-- What an exact branch calls is a frame or a branch, both named by numbers. -/
theorem isLine_exactTarget (hpaths : HasLinePath paths) (n : DispatchNode) :
    IsLine (exactTarget paths n).namespaceName ∧ IsLine (exactTarget paths n).path := by
  cases n with
  | leaf frame => exact ⟨hpaths.1, isLine_join hpaths.2 (.append (by decide) (isLine_nat _))⟩
  | branch lo hi left right =>
    refine ⟨hpaths.1, isLine_join hpaths.2 ?_⟩
    show IsLine s!"tree/{lo}_{hi}"
    simp only [isLine_append, and_assoc]
    exact ⟨by decide, isLine_nat lo, by decide, isLine_nat hi⟩

/-- So it is with what a branch calls under seeking. -/
theorem isLine_seekTarget (hpaths : HasLinePath paths) (n : DispatchNode) :
    IsLine (seekTarget paths n).namespaceName ∧ IsLine (seekTarget paths n).path := by
  cases n with
  | leaf frame => exact ⟨hpaths.1, isLine_join hpaths.2 (.append (by decide) (isLine_nat _))⟩
  | branch lo hi left right =>
    refine ⟨hpaths.1, isLine_join hpaths.2 ?_⟩
    show IsLine s!"seek_tree/{lo}_{hi}"
    simp only [isLine_append, and_assoc]
    exact ⟨by decide, isLine_nat lo, by decide, isLine_nat hi⟩

/-- The functions of the exact tree are written as lines, one branch after the other. -/
theorem fits_exactFunctions (hs : s.IsOneLine) (hpaths : HasLinePath paths) (n : DispatchNode) :
    FitAll (s.exactFunctions paths n) := by
  induction n with
  | leaf frame => exact fun g hg => nomatch hg
  | branch lo hi left right ihl ihr =>
    refine List.forall_mem_cons.2 ⟨?_, ihl.append ihr⟩
    refine List.forall_mem_cons.2 ⟨fits_guardedCall hs (isLine_exactTarget hpaths left), ?_⟩
    exact List.forall_mem_singleton.2 (fits_guardedCall hs (isLine_exactTarget hpaths right))

/-- So are those of the tree under seeking, whatever tick it reaches up to. -/
theorem fits_seekFunctions (hs : s.IsOneLine) (hpaths : HasLinePath paths) (n : DispatchNode)
    (upper : Nat) : FitAll (s.seekFunctions paths upper n) := by
  induction n generalizing upper with
  | leaf frame => exact fun g hg => nomatch hg
  | branch lo hi left right ihl ihr =>
    refine List.forall_mem_cons.2 ⟨?_, (ihl _).append (ihr _)⟩
    refine List.forall_mem_cons.2 ⟨fits_guardedCall hs (isLine_seekTarget hpaths left), ?_⟩
    exact List.forall_mem_singleton.2 (fits_guardedCall hs (isLine_seekTarget hpaths right))

/-- A tree has functions for both lookups, or two comments if it is empty. -/
theorem fits_dispatchFunctions (hs : s.IsOneLine) (hpaths : HasLinePath paths)
    (tree : DispatchTree) : FitAll (s.dispatchFunctions paths tree) := by
  unfold dispatchFunctions
  split
  · have hcomment : ∀ c ∈ [Command.comment "no frames"], c.Fits := by
      intro c hc
      rw [List.mem_singleton.1 hc]
      exact ⟨show IsLine "no frames" by decide, nofun⟩
    exact List.forall_mem_cons.2 ⟨hcomment, List.forall_mem_singleton.2 hcomment⟩
  · rename_i root hroot
    refine FitAll.append (FitAll.append (FitAll.append ?_ (fits_exactFunctions hs hpaths root)) ?_)
      (fits_seekFunctions hs hpaths root _)
    · exact List.forall_mem_singleton.2 (List.forall_mem_singleton.2
        (fits_guardedCall hs (isLine_exactTarget hpaths root)))
    · exact List.forall_mem_singleton.2 (List.forall_mem_singleton.2
        (fits_guardedCall hs (isLine_seekTarget hpaths root)))

/-! ### Data -/

/-- A transformation is a list of floats and has no text at all. -/
theorem hasNoReturn_transformation (m : Mat4) : (transformation m).HasNoReturn := by
  rw [transformation, Datum.floats, Datum.HasNoReturn, Datum.allWithoutReturn_iff]
  intro d hd
  obtain ⟨x, -, rfl⟩ := List.mem_map.1 hd
  trivial

/-- An item is the only text that the author puts into the data of a node. -/
theorem hasNoReturn_itemData {id : String} (h : HasNoReturn id) : (itemData id).HasNoReturn := by
  rw [itemData, Datum.HasNoReturn, Datum.entriesWithoutReturn_iff]
  simp only [List.forall_mem_cons, Datum.HasNoReturn]
  exact ⟨⟨by decide, h⟩, ⟨by decide, trivial⟩, nofun⟩

/-- A pose is written as numbers. -/
theorem hasNoReturn_poseData (pose : Pose) (restore : Bool) :
    (s.poseData pose restore).HasNoReturn := by
  rw [Compound.hasNoReturn_iff, poseData]
  simp only [List.forall_mem_append, List.forall_mem_cons]
  refine ⟨⟨⟨by decide, hasNoReturn_transformation _⟩, ⟨by decide, trivial⟩, nofun⟩, ?_⟩
  have hduration : ∀ v : Int32, ∀ e ∈ [("interpolation_duration", Datum.int v)],
      HasNoReturn e.1 ∧ e.2.HasNoReturn := fun v =>
    List.forall_mem_singleton.2 ⟨show HasNoReturn "interpolation_duration" by decide, trivial⟩
  split
  · exact hduration 0
  · split
    · exact hduration _
    · exact nofun

/-! ### Frames -/

theorem IsOneLine.nodeTag (hs : s.IsOneLine) {storageName : String} (hname : IsLine storageName) :
    IsLine (s.names.nodeTag storageName) :=
  RuntimeNames.isLine_name hs.namespaceName (.append (by decide) hname)

/-- What picks the passenger of a node names it by its tag. -/
theorem isOneLine_onNode (hs : s.IsOneLine) {storageName : String} (hname : IsLine storageName) :
    ∀ c ∈ s.onNode storageName, c.IsOneLine := by
  simp [onNode, hs.nodeTag hname]

/-- An update of a node is a merge or a teleport, and neither is raw text. -/
theorem fits_nodeUpdate (hs : s.IsOneLine) {slot : Slot} (hname : IsLine slot.storageName)
    (pose : Pose) (restore : Bool) : ∀ c ∈ s.nodeUpdate slot pose restore, c.Fits := by
  have honNode := isOneLine_onNode hs hname
  intro c hc
  unfold nodeUpdate at hc
  dsimp only at hc
  split at hc
  · cases hc
    exact ⟨⟨honNode, Selector.isOneLine_this, hasNoReturn_poseData pose restore⟩, nofun⟩
  · split at hc
    · cases hc
      refine ⟨⟨List.forall_mem_append.2 ⟨?_, honNode⟩, Selector.isOneLine_this⟩, nofun⟩
      exact List.forall_mem_singleton.2 Selector.isOneLine_this
    · cases hc

/-- The updates of a frame are written as lines, and the flags keep naming nodes on lines. -/
theorem fits_updates (hs : s.IsOneLine) (frame : Frame) {flags : List (Slot × Bool)}
    (hflags : ∀ f ∈ flags, IsLine f.1.storageName) :
    (∀ c ∈ (s.updates frame flags).1, c.Fits) ∧
      ∀ f ∈ (s.updates frame flags).2, IsLine f.1.storageName := by
  induction flags with
  | nil => exact ⟨List.forall_mem_nil _, List.forall_mem_nil _⟩
  | cons flag rest ih =>
    obtain ⟨hfirst, hrest⟩ := List.forall_mem_cons.1 hflags
    obtain ⟨hcommands, hnext⟩ := ih hrest
    simp only [updates]
    split
    · exact ⟨hcommands, List.forall_mem_cons.2 ⟨hfirst, hnext⟩⟩
    · refine ⟨List.forall_mem_append.2 ⟨fun c hc => ?_, hcommands⟩,
        List.forall_mem_cons.2 ⟨hfirst, hnext⟩⟩
      exact fits_nodeUpdate hs hfirst _ _ c (Option.mem_toList.1 hc)

/-- Dropping slashes at the front keeps a line a line. -/
theorem isLine_rawLine {line : String} (h : IsLine line) : (rawLine line).IsOneLine := by
  show IsLine (String.ofList (line.toList.dropWhile (· == '/')))
  exact isLine_ofList.2 fun c hc => h c ((List.dropWhile_sublist _).mem hc)

/-- What is left of a line that says something is not empty, so that the command is written. -/
theorem rawLine_ne_empty {line : String} (h : SaysSomething line) : rawLine line ≠ .raw "" := by
  intro hempty
  obtain ⟨c, hc, hslash⟩ := h
  have hnil : line.toList.dropWhile (· == '/') = [] := by
    have htext : String.ofList (line.toList.dropWhile (· == '/')) = "" := by
      injection hempty
    simpa using congrArg String.toList htext
  have hall := List.dropWhile_eq_nil_iff.1 hnil c hc
  exact hslash (beq_iff_eq.1 hall)

/-- A command under clauses or a condition of the author. -/
theorem fits_conditioned {clauses : List Clause} {condition : Option String} {run : Command}
    (hclauses : ∀ c ∈ clauses, c.IsOneLine) (hcondition : ∀ text ∈ condition, IsLine text)
    (hrun : run.IsOneLine) (halone : clauses = [] → condition = none → run ≠ .raw "") :
    (conditioned clauses condition run).Fits := by
  unfold conditioned
  split
  · rename_i hnil
    obtain ⟨hnone, hnil⟩ := List.append_eq_nil_iff.1 hnil
    refine ⟨hrun, halone hnone ?_⟩
    simpa using hnil
  · refine ⟨⟨List.forall_mem_append.2 ⟨hclauses, fun c hc => ?_⟩, hrun⟩, nofun⟩
    obtain ⟨text, htext, rfl⟩ := List.mem_map.1 hc
    exact hcondition text (Option.mem_toList.1 htext)

/-- A line of the author becomes a command on a line.  With clauses or a condition in front it may
even be empty. -/
theorem fits_line {clauses : List Clause} {condition : Option String} {lines : List String}
    {line : String} (hclauses : ∀ c ∈ clauses, c.IsOneLine) (hlines : FitOnLines lines condition)
    (hline : line ∈ lines) (halone : clauses = [] → condition = none → SaysSomething line) :
    (conditioned clauses condition (rawLine line)).Fits :=
  fits_conditioned hclauses hlines.2 (isLine_rawLine (hlines.1 line hline))
    fun hnone hcondition => rawLine_ne_empty (halone hnone hcondition)

/-- The commands of a locator run at its entity or at its place, and only its tag is a name. -/
theorem isOneLine_locatorClauses (hs : s.IsOneLine) {slot : Slot} (hname : IsLine slot.storageName)
    (pose : Pose) : ∀ c ∈ s.locatorClauses slot pose, c.IsOneLine := by
  unfold locatorClauses
  split
  · exact List.forall_mem_append.2 ⟨isOneLine_onNode hs hname,
      List.forall_mem_singleton.2 Selector.isOneLine_this⟩
  · simp

/-- Variants, commands of the root and commands of the nodes: all that happens beside the poses is
written as lines. -/
theorem fits_effects (hs : s.IsOneLine) {frame : Frame} (hframe : frame.IsOneLine) :
    ∀ e ∈ s.effects frame, e.command.Fits := by
  intro e he
  rcases effects_cases he with ⟨effect, heffect, v, hv, h⟩ | ⟨effect, heffect, line, hline, h⟩ |
    ⟨slot, hslot, pose, effect, hentry, line, hline, h⟩ <;> rw [h]
  · have hname := (hs.variants v hv).1
    refine fits_conditioned nofun (hframe.variant effect heffect).2 ⟨hs.namespaceName, ?_⟩
      fun _ _ => nofun
    show IsLine s!"variants/{v.2}/apply"
    simp only [isLine_append, and_assoc]
    exact ⟨by decide, hname, by decide⟩
  · obtain ⟨hlines, hspoken⟩ := hframe.commands effect heffect
    exact fits_line nofun hlines hline fun _ hcondition => hspoken hcondition line hline
  · obtain ⟨n, hn, heq⟩ := Option.map_eq_some_iff.1 hentry
    have hlines := hframe.nodes n (List.mem_of_find?_eq_some hn) effect (by rw [heq]; rfl)
    have hclauses := isOneLine_locatorClauses hs (hs.slots slot hslot).1 pose
    refine fits_line hclauses hlines hline fun hnone => ?_
    unfold locatorClauses at hnone
    split at hnone <;> simp at hnone

theorem isOneLine_unlessSuppressed (hs : s.IsOneLine) : s.unlessSuppressed.IsOneLine := by
  simp [unlessSuppressed, hs.own]

/-- The call of what happens at a frame is a command on a line, and so is every command of the
function that it may need. -/
theorem fits_effectCall (hs : s.IsOneLine) (hpaths : HasLinePath paths) {frame : Frame}
    (hframe : frame.IsOneLine) :
    (∀ c ∈ (s.effectCall paths frame).1, c.Fits) ∧ FitAll (s.effectCall paths frame).2 := by
  have hunless := isOneLine_unlessSuppressed hs
  have heffects := fits_effects hs hframe
  unfold effectCall
  split
  · exact ⟨nofun, nofun⟩
  · rename_i command heq
    have hcommand : command.Fits := heffects ⟨command, false⟩ (heq ▸ List.mem_cons_self)
    -- the guard is put in front of the clauses, if the command has some
    refine ⟨List.forall_mem_singleton.2 ?_, nofun⟩
    unfold guardedEffect
    split
    · exact ⟨⟨List.forall_mem_cons.2 ⟨hunless, hcommand.1.1⟩, hcommand.1.2⟩, nofun⟩
    · exact ⟨⟨List.forall_mem_singleton.2 hunless, hcommand.1⟩, nofun⟩
  -- otherwise there is a function for it, named by the tick of the frame
  · refine ⟨List.forall_mem_singleton.2
      ⟨⟨List.forall_mem_singleton.2 hunless, hpaths.1, ?_⟩, nofun⟩,
      List.forall_mem_singleton.2 fun c hc => ?_⟩
    · refine isLine_join hpaths.2 ?_
      simp only [isLine_append, and_assoc]
      exact ⟨by decide, isLine_nat _, by decide⟩
    · obtain ⟨e, he, rfl⟩ := List.mem_map.1 hc
      exact heffects e he

/-- Frame after frame, the functions of an animation are written as lines. -/
theorem fits_framesFrom (hs : s.IsOneLine) (hpaths : HasLinePath paths) {frames : List Frame}
    (hframes : ∀ f ∈ frames, f.IsOneLine) {flags : List (Slot × Bool)}
    (hflags : ∀ f ∈ flags, IsLine f.1.storageName) : FitAll (s.framesFrom paths flags frames) := by
  induction frames generalizing flags with
  | nil => exact List.forall_mem_nil _
  | cons frame rest ih =>
    obtain ⟨hframe, hrest⟩ := List.forall_mem_cons.1 hframes
    obtain ⟨hupdates, hnext⟩ := fits_updates hs frame hflags
    obtain ⟨hcall, hfunctions⟩ := fits_effectCall hs hpaths hframe
    refine FitAll.append (FitAll.append hfunctions ?_) (ih hrest hnext)
    exact List.forall_mem_singleton.2 (List.forall_mem_append.2 ⟨hupdates, hcall⟩)

/-- The functions of the leaves begin with no node flagged. -/
theorem fits_leafFunctions (hs : s.IsOneLine) (hpaths : HasLinePath paths) {tree : DispatchTree}
    (hframes : ∀ f ∈ tree.frames, f.IsOneLine) : FitAll (s.leafFunctions paths tree) := by
  refine fits_framesFrom hs hpaths hframes fun f hf => ?_
  obtain ⟨slot, hslot, rfl⟩ := List.mem_map.1 hf
  exact (hs.slots slot hslot).1

end Stage

end Marionette
