import Marionette.Proofs.Instance.FrameLaws

/-!
# What frames record

- `Instance.lines`: lines of the author as they are recorded, where their condition holds.
- `Instance.frameLines`: the commands of a frame, those of the root and then those of the nodes.
- `Instance.output_framed`: a frame records them, unless the root is tagged to change poses only.
-/

namespace Marionette

namespace Instance

variable {I : Instance} {sc : Scene} {slot : Slot} {frame : Frame}

/-- The entities that run the commands of a node: its own if it is a tracked locator, and else the
root. -/
def speakers (I : Instance) (slot : Slot) : List Nat :=
  match slot.node.kind with
  | .locator true => I.riders.filter (I.isNode · slot.storageName)
  | _ => [I.root]

/-- Lines of the author as they are recorded, where their condition holds. -/
def lines (I : Instance) (executors : List Nat) (condition : Option String) (texts : List String) :
    List RawOutput :=
  if I.holds condition then
    texts.flatMap fun line => executors.map fun id => ⟨some id, lineText line⟩
  else []

/-- The root commands of a frame as they are recorded. -/
def rootLines (I : Instance) (frame : Frame) : List RawOutput :=
  match frame.commands with
  | none => []
  | some effect => I.lines [I.root] effect.condition effect.commands

/-- The commands of a node at a frame as they are recorded. -/
def nodeLines (I : Instance) (frame : Frame) (slot : Slot) : List RawOutput :=
  match frame.entry? slot.node.uuid with
  | some ⟨_, some effect⟩ => I.lines (I.speakers slot) effect.condition effect.commands
  | _ => []

/-- All commands of a frame as they are recorded: those of the root, and then those of the nodes. -/
def frameLines (I : Instance) (frame : Frame) : List RawOutput :=
  I.rootLines frame ++ I.stage.rig.slots.toList.flatMap (I.nodeLines frame)

/-- Things that record something record it in their order. -/
theorem output_foldl {α : Type} {step : Scene → α → Scene} {said : α → List RawOutput} {xs : List α}
    (h : ∀ x ∈ xs, ∀ sc, (step sc x).output = sc.output ++ said x) :
    (xs.foldl step sc).output = sc.output ++ xs.flatMap said := by
  induction xs generalizing sc with
  | nil => exact (List.append_nil _).symm
  | cons x xs ih =>
    rw [List.foldl_cons, ih fun x hx => h x (List.mem_cons_of_mem _ hx), h x List.mem_cons_self,
      List.flatMap_cons, List.append_assoc]

theorem output_provided {condition : Option String} {id : Nat} {line : String} (sc : Scene) :
    (I.provided condition (·.say id (lineText line)) sc).output =
      sc.output ++ I.lines [id] condition [line] := by
  unfold provided lines
  split
  · rfl
  · exact (List.append_nil _).symm

/-- The entities of a node speak one after the other. -/
theorem output_atNode {name line : String} {condition : Option String} (sc : Scene) :
    (I.atNode name (fun id => I.provided condition (·.say id (lineText line))) sc).output =
      sc.output ++ I.lines (I.riders.filter (I.isNode · name)) condition [line] := by
  have hsteps : (I.atNode name (fun id => I.provided condition (·.say id (lineText line)))
      sc).output = sc.output ++
        I.riders.flatMap fun r => if I.isNode r name then I.lines [r] condition [line] else [] := by
    refine output_foldl fun r _ sc => ?_
    split
    · exact output_provided sc
    · exact (List.append_nil _).symm
  have hlines : ∀ rs : List Nat,
      (rs.flatMap fun r => if I.isNode r name then I.lines [r] condition [line] else []) =
        I.lines (rs.filter (I.isNode · name)) condition [line] := by
    intro rs
    unfold lines
    induction rs with
    | nil => simp
    | cons r rest ih =>
      rw [List.flatMap_cons, ih, List.filter_cons]
      cases hname : I.isNode r name with
      | false => simp
      | true =>
        simp only [if_true]
        split <;> simp
  exact hsteps.trans (congrArg (sc.output ++ ·) (hlines I.riders))

theorem output_saidAt {condition : Option String} {line : String} (sc : Scene) :
    (I.saidAt slot condition line sc).output =
      sc.output ++ I.lines (I.speakers slot) condition [line] := by
  unfold saidAt speakers
  cases slot.node.kind with
  | locator tracked =>
    cases tracked with
    | true => exact output_atNode sc
    | false => exact output_provided sc
  | _ => exact output_provided sc

/-- Lines one after the other are the lines of each. -/
theorem lines_eq_flatMap (I : Instance) (executors : List Nat) (condition : Option String)
    (texts : List String) :
    I.lines executors condition texts =
      texts.flatMap fun line => I.lines executors condition [line] := by
  unfold lines
  split
  · simp
  · simp

theorem output_happenings (frame : Frame) :
    ((I.happenings frame).foldl (fun sc f => f sc) sc).output =
      sc.output ++ I.frameLines frame := by
  -- only the commands of the root and of the nodes are recorded
  have hvariants : ∀ sc : Scene,
      ((I.variantHappenings frame).foldl (fun sc f => f sc) sc).output = sc.output := by
    intro sc
    refine foldl_same Scene.output fun f hf sc => ?_
    unfold variantHappenings at hf
    split at hf
    · cases hf
    · obtain ⟨v, -, rfl⟩ := List.mem_map.1 hf
      exact provided_same Scene.output (varied_same Scene.output fun _ _ _ => rfl)
  have hroot : ∀ sc : Scene, ((I.rootHappenings frame).foldl (fun sc f => f sc) sc).output =
      sc.output ++ I.rootLines frame := by
    intro sc
    unfold rootHappenings rootLines
    cases frame.commands with
    | none => exact (List.append_nil _).symm
    | some effect =>
      dsimp only
      rw [List.foldl_map, lines_eq_flatMap]
      exact output_foldl fun line _ sc => output_provided sc
  have hnode : ∀ (slot : Slot) (sc : Scene),
    ((I.nodeHappenings frame slot).foldl (fun sc f => f sc) sc).output =
      sc.output ++ I.nodeLines frame slot := by
    intro slot sc
    unfold nodeHappenings nodeLines
    cases frame.entry? slot.node.uuid with
    | none => exact (List.append_nil _).symm
    | some entry =>
      obtain ⟨pose, effect⟩ := entry
      cases effect with
      | none => exact (List.append_nil _).symm
      | some effect =>
        dsimp only
        rw [List.foldl_map, lines_eq_flatMap]
        exact output_foldl fun line _ sc => output_saidAt sc
  unfold happenings frameLines
  rw [List.foldl_append, List.foldl_append, List.foldl_flatMap,
    output_foldl fun slot _ sc => hnode slot sc, hroot, hvariants, List.append_assoc]

/-- A frame records its commands, unless the root is tagged to change poses only. -/
theorem output_framed (tree : DispatchTree) (frame : Frame) (sc : Scene) :
    (I.framed tree frame sc).output =
      if sc.tagged .suppress then sc.output else sc.output ++ I.frameLines frame := by
  have hposed : ∀ {β : Type} (p : Scene → β), (∀ id g sc, p (sc.relook id g) = p sc) →
      p (I.posed frame (I.stage.flagsBefore tree frame) sc) = p sc := fun p h => posed_same p h
  unfold framed
  dsimp only
  rw [hposed (·.tagged) fun _ _ _ => rfl]
  split
  · exact hposed (·.output) fun _ _ _ => rfl
  · rw [output_happenings, hposed (·.output) fun _ _ _ => rfl]

end Instance

end Marionette
