import Marionette.Proofs.Instance.Frames

/-!
# What frames leave alone

- `foldl_same`: what no step changes is the same after all steps.
- `framed_same`: a frame changes what entities look like and records commands, and does nothing
  else.
- `framed_score`, `framed_tagged`: so it changes no score and no tag of the root.
-/

namespace Marionette

/-- What no step changes is the same after all steps. -/
theorem foldl_same {σ α β : Type} (p : σ → β) {xs : List α} {step : σ → α → σ} {s : σ}
    (h : ∀ x ∈ xs, ∀ s, p (step s x) = p s) : p (xs.foldl step s) = p s := by
  induction xs generalizing s with
  | nil => rfl
  | cons x xs ih =>
    rw [List.foldl_cons, ih fun x hx => h x (List.mem_cons_of_mem _ hx)]
    exact h x List.mem_cons_self s

namespace Instance

variable {I : Instance} {sc : Scene} {slot : Slot} {frame : Frame} {name : String} {β : Type}

/-! ### Changes that leave something alone -/

theorem atNode_same (p : Scene → β) {step : Nat → Scene → Scene}
    (h : ∀ id sc, p (step id sc) = p sc) : p (I.atNode name step sc) = p sc := by
  refine foldl_same p fun r _ sc => ?_
  split
  · exact h r sc
  · rfl

theorem provided_same (p : Scene → β) {condition : Option String} {f : Scene → Scene}
    (h : p (f sc) = p sc) : p (I.provided condition f sc) = p sc := by
  unfold provided
  split
  · exact h
  · rfl

/-- Poses merge their data into what entities look like or teleport them, and do nothing else. -/
theorem posed_same_of_poses (p : Scene → β) {flags : List (Slot × Bool)}
    (hpose : ∀ id pose restore sc,
      p (sc.relook id (·.merged (I.stage.poseData pose restore))) = p sc)
    (hmove : ∀ id offset yaw pitch sc, p (sc.relook id (·.moved offset yaw pitch)) = p sc) :
    p (I.posed frame flags sc) = p sc := by
  refine foldl_same p fun flag _ sc => ?_
  cases frame.entry? flag.1.node.uuid with
  | none => rfl
  | some entry =>
    simp only [updated]
    split
    · exact atNode_same p fun id sc => hpose id _ _ sc
    · split
      · exact atNode_same p fun id sc => hmove id _ _ _ sc
      · rfl

/-- So they change what entities look like at most. -/
theorem posed_same (p : Scene → β) {flags : List (Slot × Bool)}
    (h : ∀ id g sc, p (sc.relook id g) = p sc) : p (I.posed frame flags sc) = p sc :=
  posed_same_of_poses p (fun id _ _ sc => h id _ sc) fun id _ _ _ sc => h id _ sc

/-- Showing a variant merges items into what entities look like, and does nothing else. -/
theorem varied_same (p : Scene → β) {variant : Variant}
    (h : ∀ id item sc, p (sc.relook id (·.merged [("item", item)])) = p sc) :
    p (I.varied variant sc) = p sc := by
  refine foldl_same p fun slot _ sc => ?_
  cases Stage.boneItem? slot.node (some variant) with
  | none => rfl
  | some model => exact atNode_same p fun id sc => h id _ sc

theorem saidAt_same (p : Scene → β) {condition : Option String} {line : String}
    (h : ∀ id text sc, p (sc.say id text) = p sc) :
    p (I.saidAt slot condition line sc) = p sc := by
  unfold saidAt
  split
  · exact atNode_same p fun id sc => provided_same p (h id _ sc)
  · exact provided_same p (h _ _ sc)

/-- What happens beside the poses merges items into what entities look like and records commands. -/
theorem happenings_same (p : Scene → β)
    (hitem : ∀ id item sc, p (sc.relook id (·.merged [("item", item)])) = p sc)
    (hsay : ∀ id text sc, p (sc.say id text) = p sc) :
    p ((I.happenings frame).foldl (fun sc f => f sc) sc) = p sc := by
  refine foldl_same p fun f hf sc => ?_
  rcases List.mem_append.1 hf with hf | hf
  · rcases List.mem_append.1 hf with hf | hf
    · unfold variantHappenings at hf
      split at hf
      · cases hf
      · obtain ⟨v, -, rfl⟩ := List.mem_map.1 hf
        exact provided_same p (varied_same p hitem)
    · unfold rootHappenings at hf
      split at hf
      · cases hf
      · obtain ⟨line, -, rfl⟩ := List.mem_map.1 hf
        exact provided_same p (hsay _ _ sc)
  · obtain ⟨slot, -, hf⟩ := List.mem_flatMap.1 hf
    unfold nodeHappenings at hf
    split at hf
    · obtain ⟨line, -, rfl⟩ := List.mem_map.1 hf
      exact saidAt_same p hsay
    · cases hf

theorem framed_same (p : Scene → β) {tree : DispatchTree}
    (hlook : ∀ id g sc, p (sc.relook id g) = p sc)
    (hsay : ∀ id text sc, p (sc.say id text) = p sc) :
    p (I.framed tree frame sc) = p sc := by
  unfold framed
  dsimp only
  split
  · exact posed_same p hlook
  · rw [happenings_same p (fun id item sc => hlook id _ sc) hsay]
    exact posed_same p hlook

theorem framed_score (tree : DispatchTree) (frame : Frame) (sc : Scene) :
    (I.framed tree frame sc).score = sc.score :=
  framed_same (·.score) (fun _ _ _ => rfl) (fun _ _ _ => rfl)

theorem framed_tagged (tree : DispatchTree) (frame : Frame) (sc : Scene) :
    (I.framed tree frame sc).tagged = sc.tagged :=
  framed_same (·.tagged) (fun _ _ _ => rfl) (fun _ _ _ => rfl)

theorem synced_same (p : Scene → β) (h : ∀ id v sc, p (sc.relook id (·.timed v)) = p sc) :
    p (I.synced sc) = p sc :=
  foldl_same p fun r _ sc => h r _ sc

@[simp] theorem synced_score (sc : Scene) : (I.synced sc).score = sc.score :=
  synced_same (·.score) fun _ _ _ => rfl

@[simp] theorem synced_tagged (sc : Scene) : (I.synced sc).tagged = sc.tagged :=
  synced_same (·.tagged) fun _ _ _ => rfl

@[simp] theorem synced_output (sc : Scene) : (I.synced sc).output = sc.output :=
  synced_same (·.output) fun _ _ _ => rfl

end Instance

end Marionette
