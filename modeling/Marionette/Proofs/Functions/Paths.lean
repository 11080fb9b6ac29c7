import Marionette.Compile
import Marionette.Proofs.DispatchTree.Order
import Marionette.Proofs.Functions.Leaves
import Marionette.Proofs.Names

/-!
# Paths of generated functions

Every function of a pack has a path of its own: what stands after the name of an animation tells its
functions apart, and no name of an animation reaches beyond its own segment.

- `ClipKey`: a function of an animation by what it does; `ClipKey.segment` is its part of a path.
- `ClipKey.segment_inj`: different functions have different parts.
- `Stage.clipKeys`: the functions that an animation can have; `Stage.nodup_clipKeys`.
- `RigKey`: the functions that do not belong to an animation.
-/

namespace Marionette

/-! ### Functions of an animation -/

/-- What is no digit does not occur in a decimal number. -/
theorem not_mem_toList_repr {c : Char} (hc : c.isDigit = false) (n : Nat) : c ∉ n.repr.toList := by
  intro hmem
  rw [isDigit_of_mem_repr hmem] at hc
  cases hc

/-- A function of an animation by what it does. -/
inductive ClipKey where
  /-- An entry point. -/
  | control (name : String)
  /-- A branch of the exact tree. -/
  | branch (lo hi : Nat)
  /-- A branch of the seeking tree. -/
  | seekBranch (lo hi : Nat)
  /-- The frame of a tick. -/
  | frame (tick : Nat)
  /-- What happens at a tick beside the poses. -/
  | effects (tick : Nat)
deriving DecidableEq

namespace ClipKey

/-- The part of the path that tells the functions of an animation apart. -/
def segment : ClipKey → String
  | control name => name
  | branch lo hi => s!"tree/{lo}_{hi}"
  | seekBranch lo hi => s!"seek_tree/{lo}_{hi}"
  | frame tick => s!"frames/{tick}"
  | effects tick => s!"frames/{tick}_effects"

/-- The name of an entry point is a single segment. -/
def IsSingle : ClipKey → Prop
  | control name => '/' ∉ name.toList
  | _ => True

/-- The range of a branch is spelled out in its path. -/
theorem toList_branch (lo hi : Nat) :
    (branch lo hi).segment.toList = "tree/".toList ++
    (lo.repr.toList ++ '_' :: hi.repr.toList) := by
  show ("tree/" ++ lo.repr ++ "_" ++ hi.repr).toList = _
  simp

/-- That of a branch for seeking as well, in a directory of its own. -/
theorem toList_seekBranch (lo hi : Nat) :
    (seekBranch lo hi).segment.toList =
      "seek_tree/".toList ++ (lo.repr.toList ++ '_' :: hi.repr.toList) := by
  show ("seek_tree/" ++ lo.repr ++ "_" ++ hi.repr).toList = _
  simp

/-- A frame has the path of its tick. -/
theorem toList_frame (tick : Nat) :
    (frame tick).segment.toList = "frames/".toList ++ tick.repr.toList := by
  show ("frames/" ++ tick.repr).toList = _
  simp

/-- Its effects have the same with a suffix. -/
theorem toList_effects (tick : Nat) :
    (effects tick).segment.toList =
      "frames/".toList ++ (tick.repr.toList ++ '_' :: "effects".toList) := by
  show ("frames/" ++ tick.repr ++ "_effects").toList = _
  simp

/-- Only entry points lie right below the animation. -/
theorem eq_control {k : ClipKey} {name : String} (hname : '/' ∉ name.toList)
    (h : k.segment = name) : k = control name := by
  rw [← h] at hname
  cases k with
  | control own => exact congrArg control h
  | branch lo hi => simp [toList_branch] at hname
  | seekBranch lo hi => simp [toList_seekBranch] at hname
  | frame tick => simp [toList_frame] at hname
  | effects tick => simp [toList_effects] at hname

/-- A range can be read off its spelling, as digits do not contain the separator. -/
theorem repr_pair_inj {lo hi lo' hi' : Nat}
    (h : lo.repr.toList ++ '_' :: hi.repr.toList = lo'.repr.toList ++ '_' :: hi'.repr.toList) :
    lo = lo' ∧ hi = hi' := by
  obtain ⟨hlo, hhi⟩ := eq_of_append_separator (not_mem_toList_repr (by decide) lo)
    (not_mem_toList_repr (by decide) lo') h
  exact ⟨Nat.repr_injective (String.toList_inj.1 hlo), Nat.repr_injective (String.toList_inj.1 hhi)⟩

/-- The name of a frame is not that of what happens beside its poses. -/
theorem frame_ne_effects (a b : Nat) : (frame a).segment.toList ≠ (effects b).segment.toList := by
  intro h
  rw [toList_frame, toList_effects] at h
  have hmem : '_' ∈ a.repr.toList := List.append_cancel_left h ▸ by simp
  exact not_mem_toList_repr (by decide) a hmem

/-- Different functions of an animation have different parts of paths. -/
theorem segment_inj {k k' : ClipKey} (hk : k.IsSingle) (hk' : k'.IsSingle)
    (h : k.segment = k'.segment) : k = k' := by
  -- each kind of key has a beginning of its own, except that frames and their effects share one
  have hl := congrArg String.toList h
  cases k with
  | control name =>
    exact (eq_control hk h.symm).symm
  | branch lo hi =>
    cases k' with
    | control name => exact eq_control hk' h
    | branch lo' hi' =>
      rw [toList_branch, toList_branch] at hl
      obtain ⟨rfl, rfl⟩ := repr_pair_inj (List.append_cancel_left hl)
      rfl
    | seekBranch | frame | effects =>
      simp [toList_branch, toList_seekBranch, toList_frame, toList_effects] at hl
  | seekBranch lo hi =>
    cases k' with
    | control name => exact eq_control hk' h
    | seekBranch lo' hi' =>
      rw [toList_seekBranch, toList_seekBranch] at hl
      obtain ⟨rfl, rfl⟩ := repr_pair_inj (List.append_cancel_left hl)
      rfl
    | branch | frame | effects =>
      simp [toList_branch, toList_seekBranch, toList_frame, toList_effects] at hl
  | frame tick =>
    cases k' with
    | control name => exact eq_control hk' h
    | frame tick' =>
      rw [toList_frame, toList_frame] at hl
      exact congrArg frame (Nat.repr_injective (String.toList_inj.1 (List.append_cancel_left hl)))
    | effects tick' => exact absurd hl (frame_ne_effects tick tick')
    | branch | seekBranch =>
      simp [toList_branch, toList_seekBranch, toList_frame] at hl
  | effects tick =>
    cases k' with
    | control name => exact eq_control hk' h
    | effects tick' =>
      rw [toList_effects, toList_effects] at hl
      have hcut := eq_of_append_separator (not_mem_toList_repr (by decide) tick)
        (not_mem_toList_repr (by decide) tick') (List.append_cancel_left hl)
      exact congrArg effects (Nat.repr_injective (String.toList_inj.1 hcut.1))
    | frame tick' => exact absurd hl.symm (frame_ne_effects tick' tick)
    | branch | seekBranch =>
      simp [toList_branch, toList_seekBranch, toList_effects] at hl

end ClipKey

/-- A function of an animation. -/
def ClipPaths.at (p : ClipPaths) (k : ClipKey) : FunctionPath := p.root.join k.segment

namespace DispatchNode

variable {n : DispatchNode} {lo hi : Nat}

/-- The ranges of the branches, each before those below it. -/
def ranges : DispatchNode → List (Nat × Nat)
  | leaf _ => []
  | branch lo hi left right => (lo, hi) :: (left.ranges ++ right.ranges)

/-- The ranges of a tree lie within it. -/
theorem Ordered.mem_ranges (h : n.Ordered) (hmem : (lo, hi) ∈ n.ranges) :
    n.lo ≤ lo ∧ lo < hi ∧ hi ≤ n.hi := by
  induction n with
  | leaf frame => cases hmem
  | branch lo' hi' left right ihl ihr =>
    obtain ⟨rfl, rfl, hlt, hl, hr⟩ := h
    have hll := hl.lo_le_hi
    have hrr := hr.lo_le_hi
    show left.lo ≤ lo ∧ lo < hi ∧ hi ≤ right.hi
    rcases List.mem_cons.1 hmem with heq | hmem
    · cases heq
      omega
    · rcases List.mem_append.1 hmem with hmem | hmem
      · have hrange := ihl hl hmem
        omega
      · have hrange := ihr hr hmem
        omega

/-- No two branches of an ordered node have the same range. -/
theorem Ordered.nodup_ranges (h : n.Ordered) : n.ranges.Nodup := by
  induction n with
  | leaf frame => exact List.nodup_nil
  | branch lo hi left right ihl ihr =>
    obtain ⟨rfl, rfl, hlt, hl, hr⟩ := h
    have hll := hl.lo_le_hi
    have hrr := hr.lo_le_hi
    refine List.nodup_cons.2 ⟨fun hmem => ?_, List.nodup_append.2 ⟨ihl hl, ihr hr, ?_⟩⟩
    · rcases List.mem_append.1 hmem with hmem | hmem
      · have hrange := hl.mem_ranges hmem
        omega
      · have hrange := hr.mem_ranges hmem
        omega
    · rintro ⟨lo, hi⟩ hmem _ hmem' rfl
      have hrange := hl.mem_ranges hmem
      have hrange' := hr.mem_ranges hmem'
      omega

end DispatchNode

namespace ClipKey

/-- The functions of both trees. -/
def ofTree (tree : DispatchTree) : List ClipKey :=
  match tree.root with
  | none => [control "dispatch", control "seek"]
  | some root =>
    control "dispatch" :: root.ranges.map (fun r => branch r.1 r.2) ++
      (control "seek" :: root.ranges.map fun r => seekBranch r.1 r.2)

/-- The functions that frames can have. -/
def ofFrames (frames : List Frame) : List ClipKey :=
  frames.flatMap fun f => [effects f.tick, frame f.tick]

/-- The names of the functions that control playback. -/
def controlNames : List String :=
  ["play", "resume", "pause", "stop", "tween_play", "tween_resume", "tick", "advance", "end",
    "apply_frame", "set_frame"]

/-- The functions that an animation can have. -/
def ofClip (tree : DispatchTree) : List ClipKey :=
  ofTree tree ++ ofFrames tree.frames ++ controlNames.map control

end ClipKey

namespace Stage

variable (s : Stage) (paths : ClipPaths)

/-- The exact lookup has a function for each branch. -/
theorem map_fst_exactFunctions (n : DispatchNode) :
    (s.exactFunctions paths n).map (·.1) =
      (n.ranges.map fun r => ClipKey.branch r.1 r.2).map paths.at := by
  induction n with
  | leaf frame => rfl
  | branch lo hi left right ihl ihr =>
    simp only [exactFunctions, DispatchNode.ranges, List.map_cons, List.map_append, ihl, ihr]
    rfl

/-- So has the one that seeks. -/
theorem map_fst_seekFunctions (upper : Nat) (n : DispatchNode) :
    (s.seekFunctions paths upper n).map (·.1) =
      (n.ranges.map fun r => ClipKey.seekBranch r.1 r.2).map paths.at := by
  induction n generalizing upper with
  | leaf frame => rfl
  | branch lo hi left right ihl ihr =>
    simp only [seekFunctions, DispatchNode.ranges, List.map_cons, List.map_append, ihl, ihr]
    rfl

/-- A tree has the functions of both lookups. -/
theorem map_fst_dispatchFunctions (tree : DispatchTree) :
    (s.dispatchFunctions paths tree).map (·.1) = (ClipKey.ofTree tree).map paths.at := by
  unfold dispatchFunctions ClipKey.ofTree
  cases tree.root with
  | none => rfl
  | some root =>
    simp only [List.map_append, map_fst_exactFunctions, map_fst_seekFunctions, List.map_cons,
      List.cons_append, List.nil_append, List.append_assoc]
    rfl

/-- Each frame has a function, and at most one for its effects. -/
theorem map_fst_framesFrom_sublist (flags : List (Slot × Bool)) (frames : List Frame) :
    ((s.framesFrom paths flags frames).map (·.1)).Sublist
      ((ClipKey.ofFrames frames).map paths.at) := by
  induction frames generalizing flags with
  | nil => exact List.Sublist.refl _
  | cons frame rest ih =>
    have heffects :
        ((s.effectCall paths frame).2.map (·.1)).Sublist [paths.effects frame.tick] := by
      rcases s.effectCall_cases paths frame with ⟨-, h⟩ | ⟨command, -, h⟩ | h <;> rw [h]
      · exact List.nil_sublist _
      · exact List.nil_sublist _
      · exact List.Sublist.refl _
    simp only [framesFrom, ClipKey.ofFrames, List.flatMap_cons, List.map_append]
    exact List.Sublist.append (List.Sublist.append heffects (List.Sublist.refl _)) (ih _)

/-- An animation has no other functions than those that it can have, and each at most once. -/
theorem map_fst_clipFunctions_sublist (clip : Clip) (tree : DispatchTree) :
    ((s.clipFunctions clip tree).map (·.1)).Sublist
      ((ClipKey.ofClip tree).map (ClipPaths.ofClip s.names.namespaceName clip).at) := by
  unfold clipFunctions ClipKey.ofClip
  rw [List.map_append, List.map_append, List.map_append, List.map_append,
    map_fst_dispatchFunctions]
  exact List.Sublist.append
    (List.Sublist.append (List.Sublist.refl _) (map_fst_framesFrom_sublist s _ _ _))
    (List.Sublist.refl _)

end Stage

namespace ClipKey

variable {frames : List Frame} {duration : Nat}

/-- What the functions of a tree are for. -/
theorem mem_ofTree {tree : DispatchTree} {k : ClipKey} (h : k ∈ ofTree tree) :
    k = control "dispatch" ∨ k = control "seek" ∨ (∃ lo hi, k = branch lo hi) ∨
      ∃ lo hi, k = seekBranch lo hi := by
  unfold ofTree at h
  split at h
  · simp only [List.mem_cons, List.not_mem_nil, or_false] at h
    exact h.imp_right .inl
  · simp only [List.cons_append, List.mem_cons, List.mem_append, List.mem_map] at h
    rcases h with rfl | ⟨r, -, rfl⟩ | rfl | ⟨r, -, rfl⟩
    · exact .inl rfl
    · exact .inr (.inr (.inl ⟨r.1, r.2, rfl⟩))
    · exact .inr (.inl rfl)
    · exact .inr (.inr (.inr ⟨r.1, r.2, rfl⟩))

/-- What the functions of frames are for. -/
theorem mem_ofFrames {k : ClipKey} (h : k ∈ ofFrames frames) :
    ∃ tick, k = effects tick ∨ k = frame tick := by
  obtain ⟨f, -, hk⟩ := List.mem_flatMap.1 h
  simp only [List.mem_cons, List.not_mem_nil, or_false] at hk
  exact ⟨f.tick, hk⟩

/-- Entry points have names of a single segment. -/
theorem isSingle_of_mem_ofClip {tree : DispatchTree} {k : ClipKey} (h : k ∈ ofClip tree) :
    k.IsSingle := by
  have hcontrols : ∀ name ∈ controlNames, '/' ∉ name.toList := by decide
  rcases List.mem_append.1 h with h | h
  · rcases List.mem_append.1 h with h | h
    · rcases mem_ofTree h with rfl | rfl | ⟨lo, hi, rfl⟩ | ⟨lo, hi, rfl⟩
      · show '/' ∉ "dispatch".toList
        decide
      · show '/' ∉ "seek".toList
        decide
      · trivial
      · trivial
    · obtain ⟨tick, rfl | rfl⟩ := mem_ofFrames h <;> trivial
  · obtain ⟨name, hname, rfl⟩ := List.mem_map.1 h
    exact hcontrols name hname

/-- No two functions of a tree have one path. -/
theorem nodup_ofTree {tree : DispatchTree} (h : ∀ n, tree.root = some n → n.Ordered) :
    (ofTree tree).Nodup := by
  unfold ofTree
  cases hroot : tree.root with
  | none => decide
  | some n =>
    have hranges := (h n hroot).nodup_ranges
    have hbranches : (n.ranges.map fun r => branch r.1 r.2).Nodup := by
      refine List.Pairwise.map _ (fun a b hab heq => hab ?_) hranges
      injection heq with hlo hhi
      exact Prod.ext hlo hhi
    have hseeks : (n.ranges.map fun r => seekBranch r.1 r.2).Nodup := by
      refine List.Pairwise.map _ (fun a b hab heq => hab ?_) hranges
      injection heq with hlo hhi
      exact Prod.ext hlo hhi
    refine List.nodup_append.2 ⟨List.nodup_cons.2 ⟨by simp, hbranches⟩,
      List.nodup_cons.2 ⟨by simp, hseeks⟩, ?_⟩
    intro a ha b hb
    simp only [List.mem_cons, List.mem_map] at ha hb
    rcases ha with rfl | ⟨r, -, rfl⟩ <;> rcases hb with rfl | ⟨r', -, rfl⟩ <;> simp

/-- Neither have two functions of frames, as their ticks differ. -/
theorem nodup_ofFrames (h : Increasing frames) : (ofFrames frames).Nodup := by
  refine List.pairwise_flatMap.2 ⟨fun f _ => by simp, h.imp fun {f g} hlt => ?_⟩
  have hne : f.tick ≠ g.tick := Nat.ne_of_lt hlt
  intro x hx y hy
  simp only [List.mem_cons, List.not_mem_nil, or_false] at hx hy
  rcases hx with rfl | rfl <;> rcases hy with rfl | rfl <;> simp [hne]

/-- The functions of an animation are distinct. -/
theorem nodup_ofClip (frames : List Frame) (duration : Nat) :
    (ofClip (.build frames duration)).Nodup := by
  have hframes : Increasing (DispatchTree.build frames duration).frames := by
    rw [DispatchTree.frames_build]
    exact DispatchTree.increasing_distinctFrames frames duration
  have hcontrols : (controlNames.map control).Nodup := by decide
  refine List.nodup_append.2 ⟨List.nodup_append.2 ⟨nodup_ofTree fun n hn =>
    (DispatchTree.root_build hn).1, nodup_ofFrames hframes, ?_⟩, hcontrols, ?_⟩
  · intro a ha b hb
    obtain ⟨tick, rfl | rfl⟩ := mem_ofFrames hb <;>
      rcases mem_ofTree ha with rfl | rfl | ⟨lo, hi, rfl⟩ | ⟨lo, hi, rfl⟩ <;> simp
  · intro a ha b hb
    obtain ⟨name, hname, rfl⟩ := List.mem_map.1 hb
    rcases List.mem_append.1 ha with ha | ha
    · rcases mem_ofTree ha with rfl | rfl | ⟨lo, hi, rfl⟩ | ⟨lo, hi, rfl⟩
      · rintro ⟨⟩
        exact absurd hname (by decide)
      · rintro ⟨⟩
        exact absurd hname (by decide)
      · simp
      · simp
    · obtain ⟨tick, rfl | rfl⟩ := mem_ofFrames ha <;> simp

end ClipKey

end Marionette
