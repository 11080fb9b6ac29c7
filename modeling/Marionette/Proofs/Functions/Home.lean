import Marionette.Proofs.Functions.Leaves
import Marionette.Proofs.Functions.PackExists
import Marionette.Proofs.RuntimeNames
import Marionette.Proofs.World.Home

/-!
# Generated functions keep to one instance

Run as a root, all generated functions but four change nothing but the instance of that root.

- `Stage.IsWide`: the four functions that reach further.
- `Stage.StaysHome`: commands that stay home, call none of the four, and make nothing a root, not
  even one that was just summoned.
- `Stage.functions_cases`, `Stage.staysHome_functions`: the commands of all other functions are of
  this kind, except those that take the interpolation duration over, which go through a name that
  all instances share.
- `Stage.keepsHome_functions`: the latter change nothing but the instance either.
-/

namespace Marionette

namespace Stage

variable {s : Stage} {clips : List CompiledClip} {paths : ClipPaths} {frame : Frame} {c : Command}
  {rides : Bool}

/-- The functions that create or remove something, or that run as all roots. -/
def IsWide (s : Stage) (path : FunctionPath) : Prop :=
  path ∈ ["load", "tick", "summon", "remove"].map s.function

/-- Commands that keep home and call none of the functions that do not. -/
abbrev KeepsHome (s : Stage) : Bool → Command → Prop :=
  Command.KeepsHome fun path => ¬s.IsWide path

/-- The tag is not among those with which roots are summoned. -/
def IsOrdinary (s : Stage) (tag : String) : Prop :=
  tag ≠ s.names.rootTag ∧ tag ≠ s.names.newTag

/-- The tag of roots is one of the two. -/
theorem not_isOrdinary_rootTag (s : Stage) : ¬s.IsOrdinary s.names.rootTag :=
  fun h => h.1 rfl

/-- And the tag of new entities is the other. -/
theorem not_isOrdinary_newTag (s : Stage) : ¬s.IsOrdinary s.names.newTag :=
  fun h => h.2 rfl

/-- Commands that stay home, call none of the functions that do not, and give no tag with which
roots are summoned. -/
abbrev StaysHome (s : Stage) : Bool → Command → Prop :=
  Command.StaysHome (fun path => ¬s.IsWide path) s.IsOrdinary

/-- Names of those functions hold no separator. -/
theorem not_isWide_of_separator {path : FunctionPath} (h : '/' ∈ path.path.toList) :
    ¬s.IsWide path := by
  intro hwide
  obtain ⟨name, hname, rfl⟩ := List.mem_map.1 hwide
  have hnone : ∀ name ∈ ["load", "tick", "summon", "remove"], '/' ∉ name.toList := by decide
  exact hnone name hname h

/-- A function within another one is none of the four. -/
theorem not_isWide_join (f : FunctionPath) (segment : String) : ¬s.IsWide (f.join segment) :=
  not_isWide_of_separator (by simp [FunctionPath.join])

/-- Nor is one with another name. -/
theorem not_isWide_function {name : String} (h : name ∉ ["load", "tick", "summon", "remove"]) :
    ¬s.IsWide (s.function name) := by
  intro hwide
  obtain ⟨name', hname, heq⟩ := List.mem_map.1 hwide
  obtain rfl : name' = name := congrArg FunctionPath.path heq
  exact h hname

/-- Variants are applied by functions in a directory of their own. -/
theorem not_isWide_variantApply (name : String) : ¬s.IsWide (s.variantApply name) :=
  not_isWide_of_separator <| by
    rw [toList_path_variantApply]
    simp

/-- Calling a function within another one stays home, therefore. -/
theorem staysHome_call {f : FunctionPath} {segment : String} :
    s.StaysHome false (.function (f.join segment)) :=
  .function (not_isWide_join f segment)

/-- So does telling the nodes about interpolation. -/
theorem staysHome_sync : s.StaysHome false s.sync :=
  .function (not_isWide_function (by decide))

/-! ### Dispatch trees -/

/-- Some call of a function of the animation, if the frame score lies in some range. -/
def IsTreeCall (s : Stage) (paths : ClipPaths) (c : Command) : Prop :=
  ∃ lo hi segment, c = s.guardedCall lo hi (paths.root.join segment)

/-- A branch calls its children on a test of the frame score. -/
theorem isTreeCall_exactCall (n : DispatchNode) : s.IsTreeCall paths (s.exactCall paths n) := by
  cases n <;> exact ⟨_, _, _, rfl⟩

/-- So it does when it seeks. -/
theorem isTreeCall_seekCall {lo hi : Nat} (n : DispatchNode) :
    s.IsTreeCall paths (s.guardedCall lo hi (seekTarget paths n)) := by
  cases n <;> exact ⟨_, _, _, rfl⟩

/-- All that the exact lookup does is such calls. -/
theorem isTreeCall_exactFunctions {n : DispatchNode} :
    ∀ f ∈ s.exactFunctions paths n, ∀ c ∈ f.2, s.IsTreeCall paths c := by
  induction n with
  | leaf frame => exact fun f hf => nomatch hf
  | branch lo hi left right ihl ihr =>
    refine List.forall_mem_cons.2 ⟨?_, List.forall_mem_append.2 ⟨ihl, ihr⟩⟩
    exact List.forall_mem_cons.2
      ⟨isTreeCall_exactCall left, List.forall_mem_singleton.2 (isTreeCall_exactCall right)⟩

/-- And so is all that the seeking one does. -/
theorem isTreeCall_seekFunctions {n : DispatchNode} {upper : Nat} :
    ∀ f ∈ s.seekFunctions paths upper n, ∀ c ∈ f.2, s.IsTreeCall paths c := by
  induction n generalizing upper with
  | leaf frame => exact fun f hf => nomatch hf
  | branch lo hi left right ihl ihr =>
    refine List.forall_mem_cons.2 ⟨fun c hc => ?_, List.forall_mem_append.2 ⟨ihl, ihr⟩⟩
    obtain ⟨⟨n, first, last⟩, -, rfl⟩ := List.mem_map.1 hc
    exact isTreeCall_seekCall n

/-- Both trees, with their entry points, do nothing but call functions of the animation. -/
theorem isTreeCall_dispatchFunctions {tree : DispatchTree} {f : GeneratedFunction}
    (hf : f ∈ s.dispatchFunctions paths tree) (hc : c ∈ f.2) :
    (∃ text, c = .comment text) ∨ s.IsTreeCall paths c := by
  unfold dispatchFunctions at hf
  split at hf
  · refine .inl ⟨"no frames", ?_⟩
    rcases List.mem_cons.1 hf with rfl | hf
    · exact List.mem_singleton.1 hc
    · rw [List.mem_singleton.1 hf] at hc
      exact List.mem_singleton.1 hc
  · rename_i root _
    right
    rcases List.mem_append.1 hf with hf | hf
    · rcases List.mem_append.1 hf with hf | hf
      · rcases List.mem_append.1 hf with hf | hf
        · rw [List.mem_singleton.1 hf] at hc
          rw [List.mem_singleton.1 hc]
          exact isTreeCall_exactCall root
        · exact isTreeCall_exactFunctions f hf c hc
      · rw [List.mem_singleton.1 hf] at hc
        rw [List.mem_singleton.1 hc]
        exact isTreeCall_seekCall root
    · exact isTreeCall_seekFunctions f hf c hc

/-- Both lookups stay home, therefore. -/
theorem staysHome_dispatchFunctions {tree : DispatchTree} :
    ∀ f ∈ s.dispatchFunctions paths tree, ∀ c ∈ f.2, s.StaysHome false c := by
  intro f hf c hc
  obtain ⟨text, rfl⟩ | ⟨lo, hi, segment, rfl⟩ := isTreeCall_dispatchFunctions hf hc
  · exact .quiet rfl
  · exact .ifThen rfl staysHome_call

/-! ### Frames -/

/-- The update of a node is made by the node. -/
theorem staysHome_nodeUpdate {slot : Slot} {pose : Pose} {restore : Bool}
    (hc : c ∈ (s.nodeUpdate slot pose restore).toList) : s.StaysHome false c := by
  unfold nodeUpdate at hc
  dsimp only at hc
  split at hc
  · rw [List.mem_singleton.1 hc]
    exact .onPassengers (.ifThen rfl (.look rfl))
  · split at hc
    · rw [List.mem_singleton.1 hc]
      exact .test rfl (.onPassengers (.ifThen rfl (.look rfl)))
    · cases hc

/-- A frame updates the nodes of its own instance. -/
theorem staysHome_updates {flags : List (Slot × Bool)} (hc : c ∈ (s.updates frame flags).1) :
    s.StaysHome false c := by
  obtain ⟨b, -, entry, -, hc⟩ := mem_updates hc
  exact staysHome_nodeUpdate hc

/-- Conditions of the author are tests. -/
theorem isOwnTest_conditions (condition : Option String) :
    ∀ clause ∈ condition.toList.map Clause.raw, clause.isOwnTest = true := by
  intro clause hclause
  obtain ⟨text, -, rfl⟩ := List.mem_map.1 hclause
  rfl

/-- A line of the author, wherever it runs. -/
theorem staysHome_line {slot : Slot} {pose : Pose} {condition : Option String} {line : String} :
    s.StaysHome false (conditioned (s.locatorClauses slot pose) condition (rawLine line)) := by
  unfold conditioned locatorClauses
  split
  · exact .quiet rfl
  · split
    · rw [List.append_assoc]
      refine .onPassengers (.test rfl (.tests (fun clause hclause => ?_) (.quiet rfl)))
      rcases List.mem_cons.1 hclause with rfl | hclause
      · rfl
      · exact isOwnTest_conditions condition clause hclause
    · exact .test rfl (.test rfl (.test rfl (.tests (isOwnTest_conditions condition) (.quiet rfl))))

/-- A condition of the author's changes nothing about that. -/
theorem staysHome_conditioned {condition : Option String} (h : s.StaysHome false c) :
    s.StaysHome false (conditioned [] condition c) := by
  unfold conditioned
  split
  · exact h
  · exact .tests (isOwnTest_conditions condition) h

/-- Effects act at the place of a node. -/
theorem staysHome_effects {e : Effect} (he : e ∈ s.effects frame) :
    s.StaysHome false e.command := by
  rcases effects_cases he with
    ⟨effect, -, v, -, h⟩ | ⟨effect, -, line, -, h⟩ | ⟨slot, -, pose, effect, -, line, -, h⟩
      <;> rw [h]
  · exact staysHome_conditioned (.function (not_isWide_variantApply v.2))
  · exact staysHome_conditioned (.quiet rfl)
  · exact staysHome_line

/-- Whether they are listed or called. -/
theorem staysHome_effectCall (hc : c ∈ (s.effectCall paths frame).1) : s.StaysHome false c := by
  rcases s.effectCall_cases paths frame with ⟨-, h⟩ | ⟨command, heq, h⟩ | h <;> rw [h] at hc
  · cases hc
  · rw [List.mem_singleton.1 hc]
    have hcommand : s.StaysHome false command :=
      staysHome_effects (e := ⟨command, false⟩) (heq ▸ List.mem_cons_self)
    unfold guardedEffect
    split
    · exact .test rfl hcommand
    · exact .ifThen rfl hcommand
  · rw [List.mem_singleton.1 hc]
    exact .ifThen rfl staysHome_call

/-- The frames stay home. -/
theorem staysHome_framesFrom {frames : List Frame} {flags : List (Slot × Bool)} :
    ∀ f ∈ s.framesFrom paths flags frames, ∀ c ∈ f.2, s.StaysHome false c := by
  induction frames generalizing flags with
  | nil => exact fun f hf => nomatch hf
  | cons frame rest ih =>
    intro f hf c hc
    simp only [framesFrom, List.mem_append, List.mem_singleton] at hf
    rcases hf with (hf | rfl) | hf
    · obtain ⟨e, he, rfl⟩ := mem_effectCall hf hc
      exact staysHome_effects he
    · rcases List.mem_append.1 hc with hc | hc
      · exact staysHome_updates hc
      · exact staysHome_effectCall hc
    · exact ih f hf c hc

/-! ### Controls -/

/-- Every one of the commands keeps home. -/
def BodyStaysHome (s : Stage) (cs : List Command) : Prop :=
  ∀ c ∈ cs, s.StaysHome false c

namespace BodyStaysHome

/-- Nothing to do stays home. -/
theorem nil : s.BodyStaysHome [] :=
  fun _ hc => nomatch hc

/-- A body is put together from commands that do. -/
theorem cons {cs : List Command} (hc : s.StaysHome false c) (hcs : s.BodyStaysHome cs) :
    s.BodyStaysHome (c :: cs) :=
  List.forall_mem_cons.2 ⟨hc, hcs⟩

/-- Or from bodies that do. -/
theorem append {as bs : List Command} (ha : s.BodyStaysHome as) (hb : s.BodyStaysHome bs) :
    s.BodyStaysHome (as ++ bs) :=
  List.forall_mem_append.2 ⟨ha, hb⟩

/-- Commands that concern only the one who runs them always do. -/
theorem own {cs : List Command} (hc : c.isPrivate = true) (hcs : s.BodyStaysHome cs) :
    s.BodyStaysHome (c :: cs) :=
  cons (.own hc) hcs

/-- Giving a tag with which roots are not summoned. -/
theorem tag {cs : List Command} {k : TagKey} (hroot : k ≠ .root) (hnew : k ≠ .new)
    (hcs : s.BodyStaysHome cs) : s.BodyStaysHome (.tagAdd .this (s.names.tag k) :: cs) :=
  cons (.tag ⟨fun heq => hroot (RuntimeNames.tag_inj heq), fun heq =>
    hnew (RuntimeNames.tag_inj heq)⟩) hcs

end BodyStaysHome

open BodyStaysHome (nil cons append own tag)

/-- Giving and taking the tag around it makes no difference. -/
theorem staysHome_suppressed {cs : List Command} (h : s.BodyStaysHome cs) :
    s.BodyStaysHome (s.suppressed cs) :=
  append (append (tag (k := .suppress) nofun nofun nil) h) (own rfl nil)

/-- Applying the first frame. -/
theorem staysHome_applyFirst : s.BodyStaysHome (s.applyFirst paths) :=
  own rfl (cons staysHome_call nil)

/-- Seeking the frame of the current time. -/
theorem staysHome_seekCurrent {localTime : String} :
    s.BodyStaysHome (s.seekCurrent paths localTime) :=
  own rfl (cons staysHome_call nil)

/-- Setting up a tween. -/
theorem staysHome_tweenSetup : s.BodyStaysHome s.tweenSetup :=
  own rfl <| cons (.ifThen rfl (.own rfl)) <| own rfl <| own rfl <| cons staysHome_sync nil

/-- The controls stay home, whichever it is. -/
theorem staysHome_controlFunctions {clip : Clip} :
    ∀ f ∈ s.controlFunctions paths clip, s.BodyStaysHome f.2 := by
  have start : s.BodyStaysHome [.tagAdd .this (s.names.playingTag clip.storageName)] :=
    tag (k := .playing clip.storageName) nofun nofun nil
  intro f hf
  simp only [controlFunctions, List.mem_cons, List.not_mem_nil, or_false] at hf
  rcases hf with rfl | rfl | rfl | rfl | rfl | rfl | rfl | rfl | rfl | rfl | rfl
  · -- play
    exact append
      (append (own rfl <| own rfl <| own rfl <| cons staysHome_sync nil) staysHome_applyFirst)
      (own rfl <| cons staysHome_sync start)
  · -- resume
    exact append start <| own rfl <| cons staysHome_sync nil
  · -- pause
    exact own rfl nil
  · -- stop
    exact append (append (own rfl <| own rfl nil) (staysHome_suppressed staysHome_applyFirst))
      (own rfl nil)
  · -- a tween from the start
    exact append (append (append (own rfl nil) staysHome_tweenSetup)
      (staysHome_suppressed staysHome_applyFirst)) start
  · -- a tween to the local time
    exact append (append staysHome_tweenSetup (staysHome_suppressed staysHome_seekCurrent)) start
  · -- tick
    exact cons (.ifThen rfl staysHome_call) nil
  · -- advance
    exact own rfl <| cons (.ifThen rfl staysHome_call) <| cons (.ifThen rfl (.own rfl)) <|
      cons (.ifThen rfl staysHome_call) nil
  · -- end
    exact cons (.test rfl (.ifThen rfl (.own rfl))) <|
      cons (.test rfl (.ifThen rfl staysHome_sync)) <|
      cons (.ifThen rfl staysHome_call) <| cons (.ifThen rfl (.own rfl)) <|
      cons (.ifThen rfl staysHome_call) nil
  · -- the frame of the local time
    exact own rfl <| cons staysHome_call nil
  · exact staysHome_suppressed staysHome_seekCurrent

/-! ### Functions of the whole rig -/

/-- What a root does at each tick stays home. -/
theorem staysHome_onTickBody {clips : List Clip} : s.BodyStaysHome (s.onTickBody clips) := by
  refine append (append (own rfl nil) fun c hc => ?_) (cons (.ifThen rfl (.function ?_)) nil)
  · obtain ⟨clip, -, rfl⟩ := List.mem_map.1 hc
    exact .ifThen rfl staysHome_call
  · exact not_isWide_function (by decide)

/-- A variant changes the looks of the nodes of its instance. -/
theorem staysHome_variantBody (variant : Variant) : s.BodyStaysHome (s.variantBody variant) := by
  intro c hc
  unfold variantBody at hc
  dsimp only at hc
  split at hc
  · rw [List.mem_singleton.1 hc]
    exact .quiet rfl
  · obtain ⟨slot, -, hslot⟩ := List.mem_filterMap.1 hc
    obtain ⟨model, -, rfl⟩ := Option.map_eq_some_iff.1 hslot
    exact .onPassengers (.ifThen rfl (.look rfl))

/-- The function that takes the interpolation duration over to the passengers. -/
def syncFunction (s : Stage) : GeneratedFunction :=
  (s.function "sync_interpolation", s.syncBody)

/-- The functions that reach further, with their commands. -/
def wideFunctions (s : Stage) (clips : List Clip) : List GeneratedFunction :=
  [(s.function "load", s.loadBody clips),
    (s.function "tick", [.execute [.asEach s.roots] (.function (s.function "on_tick"))]),
    (s.function "summon", s.summonBody),
    (s.function "remove", [.execute [.onPassengers] (.kill .this), .kill .this])]

/-- The functions set apart are among the four. -/
theorem isWide_of_mem {clips : List Clip} {f : GeneratedFunction} (hf : f ∈ s.wideFunctions clips) :
    s.IsWide f.1 := by
  show f.1 ∈ (s.wideFunctions clips).map Prod.fst
  exact List.mem_map_of_mem hf

/-- Of the functions for ticks only those four go beyond an instance. -/
theorem staysHome_tickFunctions {clips : List Clip} :
    ∀ f ∈ s.tickFunctions clips, f ∈ s.wideFunctions clips ∨ s.BodyStaysHome f.2 := by
  intro f hf
  simp only [tickFunctions, List.mem_cons, List.not_mem_nil, or_false] at hf
  rcases hf with rfl | rfl | rfl | rfl
  · exact .inl (.head _)
  · exact .inl (.tail _ (.head _))
  · exact .inr staysHome_onTickBody
  · exact .inr (own rfl <| own rfl <| cons (.ifThen rfl (.own rfl)) <| cons staysHome_sync nil)

/-- It is the same with the functions for instances. -/
theorem staysHome_instanceFunctions {clips : List Clip} :
    ∀ f ∈ s.instanceFunctions clips,
      f ∈ s.wideFunctions clips ∨ f = s.syncFunction ∨ s.BodyStaysHome f.2 := by
  intro f hf
  simp only [instanceFunctions, List.mem_append, List.mem_cons, List.not_mem_nil, or_false,
    List.mem_map] at hf
  rcases hf with (rfl | rfl | rfl | rfl | rfl) | ⟨v, -, rfl⟩
  · exact .inl (.tail _ <| .tail _ <| .head _)
  · refine .inr (.inr ?_)
    refine append (append (own rfl <| own rfl <| own rfl <| own rfl nil) fun c hc => ?_)
      (own rfl nil)
    obtain ⟨clip, -, hc⟩ := List.mem_flatMap.1 hc
    exact own (s := s) rfl (own rfl nil) c hc
  · exact .inl (.tail _ <| .tail _ <| .tail _ <| .head _)
  · refine .inr (.inr fun c hc => ?_)
    obtain ⟨clip, -, rfl⟩ := List.mem_map.1 hc
    exact .own rfl
  · exact .inr (.inl rfl)
  · exact .inr (.inr (staysHome_variantBody v.1))

/-- A function of a rig reaches further, or it takes the interpolation duration over, or else its
commands stay home. -/
theorem functions_cases {f : GeneratedFunction} (hf : f ∈ s.functions clips) :
    f ∈ s.wideFunctions (clips.map (·.clip)) ∨ f = s.syncFunction ∨ s.BodyStaysHome f.2 := by
  rcases List.mem_append.1 hf with hf | hf
  · rcases List.mem_append.1 hf with hf | hf
    · refine .inr (.inr ?_)
      obtain ⟨c, -, hf⟩ := List.mem_flatMap.1 hf
      rcases List.mem_append.1 hf with hf | hf
      · rcases List.mem_append.1 hf with hf | hf
        · exact staysHome_dispatchFunctions f hf
        · exact staysHome_framesFrom f hf
      · exact staysHome_controlFunctions f hf
    · exact (staysHome_tickFunctions f hf).imp_right .inr
  · exact staysHome_instanceFunctions f hf

/-- A function that is none of the four stays home, or is the one that tells the nodes about
interpolation. -/
theorem staysHome_functions {f : GeneratedFunction} (hf : f ∈ s.functions clips)
    (hhome : ¬s.IsWide f.1) : f = s.syncFunction ∨ s.BodyStaysHome f.2 :=
  (functions_cases hf).resolve_left fun hwide => hhome (isWide_of_mem hwide)

/-- All but the four change nothing outside of the instance. -/
theorem keepsHome_functions :
    ∀ f ∈ s.functions clips, ¬s.IsWide f.1 → ∀ c ∈ f.2, s.KeepsHome false c := by
  intro f hf hhome c hc
  rcases staysHome_functions hf hhome with rfl | hbody
  · rcases List.mem_cons.1 hc with rfl | hc
    · exact .own rfl
    · rw [List.mem_singleton.1 hc]
      exact .onPassengers (.store (.run (.quiet rfl)))
  · exact (hbody c hc).keepsHome

end Stage

end Marionette
