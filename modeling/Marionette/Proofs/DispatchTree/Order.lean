import Mathlib.Algebra.Group.Nat.Defs
import Marionette.DispatchTree

/-!
# The order within dispatch trees

A tree that is built from frames keeps them in the order of their ticks, and the ranges of its
branches fit.

- `Increasing`: frames in strictly increasing order of their ticks.
- `DispatchTree.IsMerging`: what stays true while frames of one tick are merged, by
  `IsMerging.merge` and `IsMerging.push`; so `increasing_distinctFrames`: what a tree is built from
  is in that order.
- `DispatchNode.Ordered`: the ranges of the branches fit what is below them.
- `DispatchNode.ofFrames?_rec`: how facts about trees that are built are proved.
- `DispatchNode.frames_ofFrames?`, `DispatchNode.ordered_ofFrames?`: such a tree holds just its
  frames, in order.
- `DispatchNode.depth_le_of_ofFrames?`: splitting in the middle keeps the way down short.
- `DispatchTree.IsSound`: what the functions of a tree rely on; `isSound_build`: trees that are
  built have it.
-/

namespace Marionette

/-- The frames come in strictly increasing order of their ticks. -/
def Increasing (frames : List Frame) : Prop :=
  frames.Pairwise fun a b => a.tick < b.tick

namespace DispatchTree

/-! ### One frame for each tick -/

/-- A frame stands behind frames in order if all of them are before it. -/
theorem increasing_reverse_cons {last : Frame} {done : List Frame} :
    Increasing (last :: done).reverse ↔
      Increasing done.reverse ∧ ∀ a ∈ done, a.tick < last.tick := by
  unfold Increasing
  simp only [List.reverse_cons, List.pairwise_append, List.pairwise_singleton, List.mem_reverse,
    List.mem_singleton, forall_eq, true_and]

/-- How far the frames are merged: those that are done and the rest are in order, and nothing of the
rest is before what is done. -/
structure IsMerging (done rest : List Frame) : Prop where
  increasing : Increasing done.reverse
  sorted : rest.Pairwise fun a b => a.tick ≤ b.tick
  le : ∀ a ∈ done, ∀ b ∈ rest, a.tick ≤ b.tick

namespace IsMerging

variable {last frame : Frame} {done rest : List Frame}

/-- Merging a frame into the last one keeps the tick of that. -/
theorem merge (h : IsMerging (last :: done) (frame :: rest)) :
    IsMerging (last.merge frame :: done) rest where
  increasing := by
    obtain ⟨hdone, hbefore⟩ := increasing_reverse_cons.1 h.increasing
    exact increasing_reverse_cons.2 ⟨hdone, hbefore⟩
  sorted := (List.pairwise_cons.1 h.sorted).2
  le := by
    intro a ha b hb
    have hb := List.mem_cons_of_mem frame hb
    rcases List.mem_cons.1 ha with rfl | ha
    · exact h.le last List.mem_cons_self b hb
    · exact h.le a (List.mem_cons_of_mem _ ha) b hb

/-- A frame of another tick is behind all that are done. -/
theorem lt (h : IsMerging (last :: done) (frame :: rest)) (hne : last.tick ≠ frame.tick) :
    ∀ a ∈ last :: done, a.tick < frame.tick := by
  have hlast : last.tick < frame.tick :=
    Nat.lt_of_le_of_ne (h.le last List.mem_cons_self frame List.mem_cons_self) hne
  intro a ha
  rcases List.mem_cons.1 ha with rfl | ha
  · exact hlast
  · exact Nat.lt_trans ((increasing_reverse_cons.1 h.increasing).2 a ha) hlast

/-- A frame that is behind all that are done becomes the last one. -/
theorem push (h : IsMerging done (frame :: rest)) (hlt : ∀ a ∈ done, a.tick < frame.tick) :
    IsMerging (frame :: done) rest where
  increasing := increasing_reverse_cons.2 ⟨h.increasing, hlt⟩
  sorted := (List.pairwise_cons.1 h.sorted).2
  le := by
    intro a ha b hb
    rcases List.mem_cons.1 ha with rfl | ha
    · exact (List.pairwise_cons.1 h.sorted).1 b hb
    · exact h.le a ha b (List.mem_cons_of_mem _ hb)

end IsMerging

theorem increasing_mergeTicks {done rest : List Frame} (h : IsMerging done rest) :
    Increasing (mergeTicks done rest) := by
  fun_induction mergeTicks done rest with
  | case1 done => exact h.increasing
  | case2 last done frame rest heq ih => exact ih h.merge
  | case3 last done frame rest hne ih => exact ih (h.push (h.lt hne))
  | case4 frame rest ih => exact ih (h.push (List.forall_mem_nil _))

/-- Merging frames of one tick keeps the ticks. -/
theorem exists_tick_mergeTicks {done rest : List Frame} {f : Frame}
    (hf : f ∈ mergeTicks done rest) : ∃ g, (g ∈ done ∨ g ∈ rest) ∧ g.tick = f.tick := by
  fun_induction mergeTicks done rest with
  | case1 done => exact ⟨f, .inl (List.mem_reverse.1 hf), rfl⟩
  | case2 last done frame rest _ ih =>
    obtain ⟨g, hg | hg, ht⟩ := ih hf
    · rcases List.mem_cons.1 hg with rfl | hg
      · exact ⟨last, .inl List.mem_cons_self, ht⟩
      · exact ⟨g, .inl (List.mem_cons_of_mem _ hg), ht⟩
    · exact ⟨g, .inr (List.mem_cons_of_mem _ hg), ht⟩
  | case3 last done frame rest _ ih =>
    obtain ⟨g, hg | hg, ht⟩ := ih hf
    · rcases List.mem_cons.1 hg with rfl | hg
      · exact ⟨g, .inr List.mem_cons_self, ht⟩
      · exact ⟨g, .inl hg, ht⟩
    · exact ⟨g, .inr (List.mem_cons_of_mem _ hg), ht⟩
  | case4 frame rest ih =>
    obtain ⟨g, hg | hg, ht⟩ := ih hf
    · exact ⟨g, .inr (List.mem_singleton.1 hg ▸ List.mem_cons_self), ht⟩
    · exact ⟨g, .inr (List.mem_cons_of_mem _ hg), ht⟩

/-- The frames below the duration, in the order of their ticks. -/
def sortedFrames (frames : List Frame) (duration : Nat) : List Frame :=
  (frames.filter (·.tick < duration)).mergeSort fun a b => a.tick ≤ b.tick

theorem pairwise_sortedFrames (frames : List Frame) (duration : Nat) :
    (sortedFrames frames duration).Pairwise fun a b => a.tick ≤ b.tick := by
  have h := @List.pairwise_mergeSort _ (fun a b : Frame => decide (a.tick ≤ b.tick))
    (fun a b c hab hbc => by
      simp only [decide_eq_true_eq] at *
      exact Nat.le_trans hab hbc)
    (fun a b => by
      simp only [Bool.or_eq_true, decide_eq_true_eq]
      exact Nat.le_total a.tick b.tick)
    (frames.filter (·.tick < duration))
  exact h.imp fun hab => by simpa using hab

/-- At the start nothing is done. -/
theorem isMerging_sortedFrames (frames : List Frame) (duration : Nat) :
    IsMerging [] (sortedFrames frames duration) :=
  ⟨.nil, pairwise_sortedFrames frames duration, List.forall_mem_nil _⟩

theorem mem_sortedFrames {frames : List Frame} {duration : Nat} {f : Frame} :
    f ∈ sortedFrames frames duration ↔ f ∈ frames ∧ f.tick < duration := by
  simp [sortedFrames]

theorem increasing_distinctFrames (frames : List Frame) (duration : Nat) :
    Increasing (distinctFrames frames duration) :=
  increasing_mergeTicks (isMerging_sortedFrames frames duration)

theorem tick_lt_of_mem_distinctFrames {frames : List Frame} {duration : Nat} {f : Frame}
    (hf : f ∈ distinctFrames frames duration) : f.tick < duration := by
  obtain ⟨g, hg | hg, ht⟩ := exists_tick_mergeTicks hf
  · cases hg
  · exact ht ▸ (mem_sortedFrames.1 hg).2

end DispatchTree

/-- Frames in increasing order are no more than the ticks that they have room in. -/
theorem Increasing.length_le {frames : List Frame} {lo hi : Nat} (h : Increasing frames)
    (hlo : ∀ f ∈ frames, lo ≤ f.tick) (hhi : ∀ f ∈ frames, f.tick < hi) :
    frames.length ≤ hi - lo := by
  induction frames generalizing lo with
  | nil => exact Nat.zero_le _
  | cons f rest ih =>
    have hcons := List.pairwise_cons.1 h
    have hrest : rest.length ≤ hi - (f.tick + 1) :=
      ih hcons.2 (fun g hg => hcons.1 g hg) fun g hg => hhi g (List.mem_cons_of_mem _ hg)
    have := hlo f List.mem_cons_self
    have := hhi f List.mem_cons_self
    simp only [List.length_cons]
    omega

namespace DispatchNode

/-- The ranges of the branches fit what is below them, and the nodes below a branch are apart. -/
def Ordered : DispatchNode → Prop
  | leaf _ => True
  | branch lo hi left right =>
    lo = left.lo ∧ hi = right.hi ∧ left.hi < right.lo ∧ left.Ordered ∧ right.Ordered

/-- The first and the last tick of an ordered node are ticks of its frames, and all others lie
between them. -/
theorem Ordered.range {n : DispatchNode} (h : n.Ordered) :
    (∃ f ∈ n.frames, f.tick = n.lo) ∧ (∃ f ∈ n.frames, f.tick = n.hi) ∧
      ∀ f ∈ n.frames, n.lo ≤ f.tick ∧ f.tick ≤ n.hi := by
  induction n with
  | leaf frame => simp [frames, lo, hi]
  | branch lo hi left right ihl ihr =>
    obtain ⟨rfl, rfl, hlt, hl, hr⟩ := h
    obtain ⟨⟨fl, hfl, hfl'⟩, ⟨gl, hgl, hgl'⟩, hall⟩ := ihl hl
    obtain ⟨⟨fr, hfr, hfr'⟩, ⟨gr, hgr, hgr'⟩, harr⟩ := ihr hr
    refine ⟨⟨fl, List.mem_append_left _ hfl, hfl'⟩, ⟨gr, List.mem_append_right _ hgr, hgr'⟩, ?_⟩
    have hgl'' := hall gl hgl
    have hfr'' := harr fr hfr
    intro f hf
    show left.lo ≤ f.tick ∧ f.tick ≤ right.hi
    rcases List.mem_append.1 hf with hf | hf
    · have := hall f hf
      omega
    · have := harr f hf
      omega

theorem Ordered.lo_le_hi {n : DispatchNode} (h : n.Ordered) : n.lo ≤ n.hi := by
  obtain ⟨⟨f, hf, hlo⟩, -, hall⟩ := h.range
  have := (hall f hf).2
  omega

/-- There is a tree over every list of frames that is not empty. -/
theorem exists_ofFrames? (fs : List Frame) (hne : fs ≠ []) : ∃ n, ofFrames? fs = some n := by
  fun_induction ofFrames? fs with
  | case1 => exact absurd rfl hne
  | case2 frame => exact ⟨_, rfl⟩
  | case3 | case4 | case5 => exact ⟨_, rfl⟩
  | case6 a b rest frames half _ hl ihl =>
    obtain ⟨n, hn⟩ := ihl fun h => by
      have hlen := congrArg List.length h
      simp only [half, frames, List.length_take, List.length_cons, List.length_nil] at hlen
      omega
    rw [hl] at hn
    cases hn

/-- Two frames or more are split in the middle. -/
theorem ofFrames?_split {fs : List Frame} (h : 2 ≤ fs.length) :
    ∃ left right, ofFrames? (fs.take (fs.length / 2)) = some left ∧
      ofFrames? (fs.drop (fs.length / 2)) = some right ∧
      ofFrames? fs = some (branch left.lo right.hi left right) := by
  obtain ⟨left, hl⟩ := exists_ofFrames? (fs.take (fs.length / 2)) fun h' => by
    have hlen := congrArg List.length h'
    simp only [List.length_take, List.length_nil] at hlen
    omega
  obtain ⟨right, hr⟩ := exists_ofFrames? (fs.drop (fs.length / 2)) fun h' => by
    have hlen := congrArg List.length h'
    simp only [List.length_drop, List.length_nil] at hlen
    omega
  refine ⟨left, right, hl, hr, ?_⟩
  match fs, h with
  | a :: b :: rest, _ =>
    rw [ofFrames?]
    simp only [hl, hr]

/-- What holds of a tree over one frame, and of a tree over two halves of which it holds, holds of
every tree that is built. -/
theorem ofFrames?_rec {P : List Frame → DispatchNode → Prop} {fs : List Frame} {n : DispatchNode}
    (one : ∀ f, P [f] (leaf f))
    (two : ∀ fs left right, 2 ≤ fs.length → P (fs.take (fs.length / 2)) left →
      P (fs.drop (fs.length / 2)) right → P fs (branch left.lo right.hi left right))
    (h : ofFrames? fs = some n) : P fs n := by
  generalize hk : fs.length = k
  induction k using Nat.strongRecOn generalizing fs n with
  | _ k ih =>
    match fs with
    | [] =>
      rw [ofFrames?] at h
      cases h
    | [f] =>
      rw [ofFrames?] at h
      cases h
      exact one f
    | a :: b :: rest =>
      have hlen : 2 ≤ (a :: b :: rest).length := by simp
      obtain ⟨left, right, hl, hr, hn⟩ := ofFrames?_split hlen
      obtain rfl := Option.some.inj (h.symm.trans hn)
      refine two _ left right hlen (ih _ ?_ hl rfl) (ih _ ?_ hr rfl)
      · rw [List.length_take]
        omega
      · rw [List.length_drop]
        omega

/-- A tree holds just the frames that it is built over. -/
theorem frames_ofFrames? {fs : List Frame} {n : DispatchNode} (h : ofFrames? fs = some n) :
    n.frames = fs := by
  refine ofFrames?_rec (P := fun fs n => n.frames = fs) (fun f => rfl) ?_ h
  intro fs left right _ hl hr
  rw [frames, hl, hr, List.take_append_drop]

/-- A tree over frames in increasing order is ordered. -/
theorem ordered_ofFrames? {fs : List Frame} {n : DispatchNode} (h : ofFrames? fs = some n)
    (hinc : Increasing fs) : n.Ordered := by
  refine (ofFrames?_rec (P := fun fs n => n.frames = fs ∧ (Increasing fs → n.Ordered))
    (fun f => ⟨rfl, fun _ => trivial⟩) ?_ h).2 hinc
  intro fs left right _ hl hr
  refine ⟨by rw [frames, hl.1, hr.1, List.take_append_drop], fun hinc => ?_⟩
  rw [← List.take_append_drop (fs.length / 2) fs] at hinc
  obtain ⟨hil, hir, hlt⟩ := List.pairwise_append.1 hinc
  obtain ⟨-, ⟨f, hf, hfhi⟩, -⟩ := (hl.2 hil).range
  obtain ⟨⟨g, hg, hglo⟩, -, -⟩ := (hr.2 hir).range
  have hfg := hlt f (hl.1 ▸ hf) g (hr.1 ▸ hg)
  exact ⟨rfl, rfl, by omega, hl.2 hil, hr.2 hir⟩

/-- A tree over at most `2 ^ k` frames is at most `k + 1` nodes deep. -/
theorem depth_le_of_ofFrames? {fs : List Frame} {n : DispatchNode} {k : Nat}
    (h : ofFrames? fs = some n) (hk : fs.length ≤ 2 ^ k) : n.depth ≤ k + 1 := by
  refine ofFrames?_rec (P := fun fs n => ∀ k, fs.length ≤ 2 ^ k → n.depth ≤ k + 1)
    (fun f k _ => Nat.le_add_left 1 k) ?_ h k hk
  intro fs left right hlen hl hr k hk
  -- at least two frames, so there is a level to go down
  obtain ⟨j, rfl⟩ : ∃ j, k = j + 1 := by
    cases k with
    | zero => omega
    | succ j => exact ⟨j, rfl⟩
  have hpow : 2 ^ (j + 1) = 2 * 2 ^ j := Nat.pow_succ'
  have hl' := hl j (by
    rw [List.length_take]
    omega)
  have hr' := hr j (by
    rw [List.length_drop]
    omega)
  simp only [depth]
  omega

end DispatchNode

namespace DispatchTree

variable {frames : List Frame} {duration : Nat} {n : DispatchNode}

/-- The topmost node of a tree is ordered, and its frames are those of distinct ticks. -/
theorem root_build (h : (build frames duration).root = some n) :
    n.Ordered ∧ n.frames = distinctFrames frames duration :=
  ⟨DispatchNode.ordered_ofFrames? h (increasing_distinctFrames frames duration),
    DispatchNode.frames_ofFrames? h⟩

/-- The frames of a tree that is built are those of distinct ticks. -/
theorem frames_build (frames : List Frame) (duration : Nat) :
    (build frames duration).frames = distinctFrames frames duration := by
  unfold DispatchTree.frames
  cases hroot : (build frames duration).root with
  | none =>
    refine Classical.byContradiction fun hne => ?_
    obtain ⟨n, hn⟩ := DispatchNode.exists_ofFrames? _ fun h => hne h.symm
    cases hn.symm.trans hroot
  | some n => exact (root_build hroot).2

theorem hi_lt_of_root_build (h : (build frames duration).root = some n) : n.hi < duration := by
  obtain ⟨hord, hfr⟩ := root_build h
  obtain ⟨-, ⟨f, hf, hhi⟩, -⟩ := hord.range
  exact hhi ▸ tick_lt_of_mem_distinctFrames (hfr ▸ hf)

/-- However many frames there are, with ticks of 32 bits the way down passes at most 32 nodes. -/
theorem depth_le_of_root_build (h : (build frames duration).root = some n)
    (hd : duration ≤ 2 ^ 31) : n.depth ≤ 32 := by
  refine DispatchNode.depth_le_of_ofFrames? h (k := 31) ?_
  have hlo : ∀ f ∈ distinctFrames frames duration, 0 ≤ f.tick := fun f _ => Nat.zero_le _
  have hlen := (increasing_distinctFrames frames duration).length_le hlo
    fun f hf => tick_lt_of_mem_distinctFrames hf
  omega

/-- The tree is ordered, its ticks are scores, and the way down is short. -/
structure IsSound (t : DispatchTree) : Prop where
  ordered : ∀ n, t.root = some n → n.Ordered
  hi_lt : ∀ n, t.root = some n → n.hi < t.duration
  duration_le : t.duration ≤ 2147483647
  depth_le : t.depth ≤ 32

theorem isSound_build (frames : List Frame) {duration : Nat} (hd : duration ≤ 2147483647) :
    (build frames duration).IsSound where
  ordered := fun _ hn => (root_build hn).1
  hi_lt := fun _ hn => hi_lt_of_root_build hn
  duration_le := hd
  depth_le := by
    unfold DispatchTree.depth
    cases hroot : (build frames duration).root with
    | none => exact Nat.zero_le _
    | some n => exact depth_le_of_root_build hroot (by omega)

end DispatchTree

end Marionette
