import Marionette.Proofs.DispatchTree.Order
import Mathlib.Data.List.Nodup

/-!
# Lookups in dispatch trees

A lookup gives the number of a leaf.  The frame of that leaf is what the same lookup finds when it
looks for frames, and both find nothing together.

- `IsLeafOf`: the leaf of a number shows a frame.
- `DispatchNode.find?_cases`, `DispatchNode.route?_cases`: numbers and frames that lookups find.
- `DispatchNode.mem_frames_of_findFrame?` and its like: what is found is one of the frames.
- `DispatchNode.findFrame?_eq`: the exact lookup finds the frame of a tick if there is one.
- `DispatchNode.routeFrame?_succ`: the seeking lookup finds the frame of a tick, or else what it
  finds at the tick before.
- `DispatchTree.findFrame?_build_of_nodup`: frames of distinct ticks are found as they are.
-/

namespace Marionette

namespace DispatchNode

/-- In a tree whose nodes are numbered from `start` on, the node of a number is a leaf with a
frame. -/
def IsLeafOf (n : DispatchNode) (start id : Nat) (frame : Frame) : Prop :=
  start ≤ id ∧ (n.entries start)[id - start]? = some (.leaf frame)

variable {lo hi tick start id : Nat} {n left right : DispatchNode} {frame : Frame}

theorem length_entries (n : DispatchNode) (start : Nat) : (n.entries start).length = n.size := by
  induction n generalizing start with
  | leaf frame => rfl
  | branch lo hi left right ihl ihr =>
    simp only [entries, size, List.length_append, List.length_cons, List.length_nil, ihl, ihr]

theorem IsLeafOf.leaf (start : Nat) (frame : Frame) :
    (DispatchNode.leaf frame).IsLeafOf start start frame :=
  ⟨Nat.le_refl _, by simp [entries]⟩

theorem IsLeafOf.inLeft (h : left.IsLeafOf start id frame) :
    (branch lo hi left right).IsLeafOf start id frame := by
  obtain ⟨hle, hget⟩ := h
  obtain ⟨hlt, -⟩ := List.getElem?_eq_some_iff.1 hget
  refine ⟨hle, ?_⟩
  rw [entries, List.append_assoc, List.getElem?_append_left hlt, hget]

theorem IsLeafOf.inRight (h : right.IsLeafOf (start + left.size) id frame) :
    (branch lo hi left right).IsLeafOf start id frame := by
  obtain ⟨hle, hget⟩ := h
  obtain ⟨hlt, -⟩ := List.getElem?_eq_some_iff.1 hget
  have hshift : id - start - left.size = id - (start + left.size) := by omega
  refine ⟨by omega, ?_⟩
  rw [entries, List.append_assoc, List.getElem?_append_right (by rw [length_entries]; omega),
    length_entries, hshift, List.getElem?_append_left hlt, hget]

/-- The exact lookup finds a number and the frame of its leaf, or neither. -/
theorem find?_cases (n : DispatchNode) (tick start : Nat) :
    (n.find? tick start = none ∧ n.findFrame? tick = none) ∨
      ∃ id frame, n.find? tick start = some id ∧ n.findFrame? tick = some frame ∧
        n.IsLeafOf start id frame := by
  induction n generalizing start with
  | leaf frame =>
    simp only [find?, findFrame?]
    split
    · exact .inr ⟨start, frame, rfl, rfl, .leaf start frame⟩
    · exact .inl ⟨rfl, rfl⟩
  | branch lo hi left right ihl ihr =>
    simp only [find?, findFrame?]
    split
    · rcases ihl start with h | ⟨id, frame, h, h', hid⟩
      · exact .inl h
      · exact .inr ⟨id, frame, h, h', hid.inLeft⟩
    · split
      · rcases ihr (start + left.size) with h | ⟨id, frame, h, h', hid⟩
        · exact .inl h
        · exact .inr ⟨id, frame, h, h', hid.inRight⟩
      · exact .inl ⟨rfl, rfl⟩

/-- The seeking lookup finds a number and the frame of its leaf, or neither. -/
theorem route?_cases (n : DispatchNode) (tick start : Nat) :
    (n.route? tick start = none ∧ n.routeFrame? tick = none) ∨
      ∃ id frame, n.route? tick start = some id ∧ n.routeFrame? tick = some frame ∧
        n.IsLeafOf start id frame := by
  induction n generalizing start with
  | leaf frame =>
    simp only [route?, routeFrame?]
    split
    · exact .inr ⟨start, frame, rfl, rfl, .leaf start frame⟩
    · exact .inl ⟨rfl, rfl⟩
  | branch lo hi left right ihl ihr =>
    simp only [route?, routeFrame?]
    split
    · rcases ihr (start + left.size) with h | ⟨id, frame, h, h', hid⟩
      · exact .inl h
      · exact .inr ⟨id, frame, h, h', hid.inRight⟩
    · split
      · rcases ihl start with h | ⟨id, frame, h, h', hid⟩
        · exact .inl h
        · exact .inr ⟨id, frame, h, h', hid.inLeft⟩
      · exact .inl ⟨rfl, rfl⟩

theorem mem_frames_of_findFrame? (h : n.findFrame? tick = some frame) : frame ∈ n.frames := by
  induction n with
  | leaf own =>
    simp only [findFrame?] at h
    split at h
    · cases h
      exact List.mem_singleton_self _
    · cases h
  | branch lo hi left right ihl ihr =>
    simp only [findFrame?] at h
    split at h
    · exact List.mem_append_left _ (ihl h)
    · split at h
      · exact List.mem_append_right _ (ihr h)
      · cases h

theorem mem_frames_of_routeFrame? (h : n.routeFrame? tick = some frame) : frame ∈ n.frames := by
  induction n with
  | leaf own =>
    simp only [routeFrame?] at h
    split at h
    · cases h
      exact List.mem_singleton_self _
    · cases h
  | branch lo hi left right ihl ihr =>
    simp only [routeFrame?] at h
    split at h
    · exact List.mem_append_right _ (ihr h)
    · split at h
      · exact List.mem_append_left _ (ihl h)
      · cases h

/-- A frame whose tick lies outside the range of an ordered node is not below it. -/
theorem find?_frames_eq_none (h : n.Ordered) (hout : ¬(n.lo ≤ tick ∧ tick ≤ n.hi)) :
    (n.frames.find? fun f => decide (f.tick = tick)) = none := by
  rw [List.find?_eq_none]
  intro f hf
  have hrange := h.range.2.2 f hf
  rw [decide_eq_true_eq]
  omega

/-- In an ordered node, the exact lookup finds the frame of a tick if there is one. -/
theorem findFrame?_eq (h : n.Ordered) (tick : Nat) :
    n.findFrame? tick = n.frames.find? fun f => decide (f.tick = tick) := by
  induction n with
  | leaf frame =>
    simp only [findFrame?, frames, List.find?_cons, List.find?_nil]
    -- a leaf is tested for its tick
    by_cases ht : frame.tick = tick
    · simp [ht]
    · simp [ht]
  | branch lo hi left right ihl ihr =>
    obtain ⟨-, -, hlt, hl, hr⟩ := h
    have hlr := hl.lo_le_hi
    have hrr := hr.lo_le_hi
    simp only [findFrame?, frames, List.find?_append]
    split
    -- only the child whose range has the tick can hold the frame
    · rename_i hin
      rw [ihl hl, find?_frames_eq_none hr (by omega), Option.or_none]
    · rename_i hout
      rw [find?_frames_eq_none hl hout, Option.none_or]
      split
      · exact ihr hr
      · rename_i hout'
        rw [find?_frames_eq_none hr hout']

/-- The exact lookup below an ordered branch asks both children. -/
theorem findFrame?_branch {lo hi : Nat} (h : (branch lo hi left right).Ordered) (tick : Nat) :
    (branch lo hi left right).findFrame? tick =
      (left.findFrame? tick).or (right.findFrame? tick) := by
  rw [findFrame?_eq h, frames, List.find?_append, ← findFrame?_eq h.2.2.2.1,
    ← findFrame?_eq h.2.2.2.2]

theorem findFrame?_eq_none (h : n.Ordered) (hout : ¬(n.lo ≤ tick ∧ tick ≤ n.hi)) :
    n.findFrame? tick = none := by
  rw [findFrame?_eq h, find?_frames_eq_none h hout]

/-- The seeking lookup finds nothing before the first tick, so asking for that tick first changes
nothing. -/
theorem ite_routeFrame? (h : n.Ordered) (tick : Nat) :
    (if n.lo ≤ tick then n.routeFrame? tick else none) = n.routeFrame? tick := by
  by_cases hin : n.lo ≤ tick
  · rw [if_pos hin]
  · rw [if_neg hin]
    cases n with
    | leaf frame => exact (if_neg hin).symm
    | branch lo hi left right =>
      obtain ⟨rfl, -, hsplit, hl, -⟩ := h
      have hlr := hl.lo_le_hi
      change ¬left.lo ≤ tick at hin
      rw [routeFrame?, if_neg (by omega), if_neg hin]

/-- In an ordered node, the latest frame at the first of all ticks is the frame of that tick. -/
theorem routeFrame?_zero (h : n.Ordered) : n.routeFrame? 0 = n.findFrame? 0 := by
  induction n with
  | leaf frame => simp only [routeFrame?, findFrame?, Nat.le_zero_eq]
  | branch lo hi left right ihl ihr =>
    have hfind := findFrame?_branch h 0
    obtain ⟨-, -, hsplit, hl, hr⟩ := h
    rw [hfind, findFrame?_eq_none hr (by omega), Option.or_none, ← ihl hl, routeFrame?,
      if_neg (by omega), ite_routeFrame? hl]

/-- In an ordered node, the latest frame at a tick is the frame of that tick, or else the latest one
at the tick before. -/
theorem routeFrame?_succ (h : n.Ordered) (tick : Nat) :
    n.routeFrame? (tick + 1) = (n.findFrame? (tick + 1)).or (n.routeFrame? tick) := by
  induction n with
  | leaf frame =>
    simp only [routeFrame?, findFrame?]
    by_cases heq : frame.tick = tick + 1
    · rw [if_pos (by omega), if_pos heq, Option.some_or]
    · rw [if_neg heq, Option.none_or]
      by_cases hle : frame.tick ≤ tick
      · rw [if_pos hle, if_pos (by omega)]
      · rw [if_neg hle, if_neg (by omega)]
  | branch lo hi left right ihl ihr =>
    rw [findFrame?_branch h]
    obtain ⟨-, -, hsplit, hl, hr⟩ := h
    simp only [routeFrame?]
    by_cases hright : right.lo ≤ tick + 1
    · -- the right child serves the tick, and the left one has no frame there
      rw [if_pos hright, findFrame?_eq_none hl (by omega), Option.none_or, ihr hr]
      by_cases hbefore : right.lo ≤ tick
      · rw [if_pos hbefore]
      · -- the tick is the first one of the right child, which has a frame there
        obtain ⟨f, hf, htick⟩ := hr.range.1
        have hfound : (right.findFrame? (tick + 1)).isSome := by
          rw [findFrame?_eq hr, List.find?_isSome]
          exact ⟨f, hf, decide_eq_true (by omega)⟩
        obtain ⟨g, hg⟩ := Option.isSome_iff_exists.1 hfound
        rw [hg, Option.some_or, Option.some_or]
    · rw [if_neg hright, if_neg (c := right.lo ≤ tick) (by omega), ite_routeFrame? hl,
        ite_routeFrame? hl, findFrame?_eq_none hr (by omega), Option.or_none]
      exact ihl hl

end DispatchNode

namespace DispatchTree

/-- The exact lookup of a tree finds a number and the frame of its leaf, or neither. -/
theorem find?_cases (t : DispatchTree) (tick : Nat) :
    (t.find? tick = none ∧ t.findFrame? tick = none) ∨
      ∃ id frame, t.find? tick = some id ∧ t.findFrame? tick = some frame ∧
        t.entries[id]? = some (.leaf frame) := by
  unfold find? findFrame? entries
  cases t.root with
  | none => exact .inl ⟨rfl, rfl⟩
  | some n =>
    rcases n.find?_cases tick 0 with h | ⟨id, frame, h, h', -, hid⟩
    · exact .inl h
    · exact .inr ⟨id, frame, h, h', hid⟩

/-- The seeking lookup of a tree finds a number and the frame of its leaf, or neither. -/
theorem route?_cases (t : DispatchTree) (tick : Nat) :
    (t.route? tick = none ∧ t.routeFrame? tick = none) ∨
      ∃ id frame, t.route? tick = some id ∧ t.routeFrame? tick = some frame ∧
        t.entries[id]? = some (.leaf frame) := by
  unfold route? routeFrame? entries
  split
  · exact .inl ⟨rfl, rfl⟩
  · cases t.root with
    | none => exact .inl ⟨rfl, rfl⟩
    | some n =>
      rcases n.route?_cases tick 0 with h | ⟨id, frame, h, h', -, hid⟩
      · exact .inl h
      · exact .inr ⟨id, frame, h, h', hid⟩

theorem mem_frames_of_findFrame? {t : DispatchTree} {tick : Nat} {frame : Frame}
    (h : t.findFrame? tick = some frame) : frame ∈ t.frames := by
  obtain ⟨n, hroot, hn⟩ := Option.bind_eq_some_iff.1 h
  rw [frames, hroot]
  exact DispatchNode.mem_frames_of_findFrame? hn

theorem mem_frames_of_routeFrame? {t : DispatchTree} {tick : Nat} {frame : Frame}
    (h : t.routeFrame? tick = some frame) : frame ∈ t.frames := by
  unfold routeFrame? at h
  split at h
  · cases h
  · obtain ⟨n, hroot, hn⟩ := Option.bind_eq_some_iff.1 h
    rw [frames, hroot]
    exact DispatchNode.mem_frames_of_routeFrame? hn

variable {frames : List Frame} {duration tick : Nat} {f : Frame}

/-- In a tree that is built, the exact lookup finds the frame of a tick. -/
theorem findFrame?_build (frames : List Frame) (duration tick : Nat) :
    (build frames duration).findFrame? tick =
      (distinctFrames frames duration).find? fun f => decide (f.tick = tick) := by
  rw [← frames_build, DispatchTree.frames]
  unfold findFrame?
  cases hroot : (build frames duration).root with
  | none => rfl
  | some n => exact DispatchNode.findFrame?_eq (root_build hroot).1 tick

/-- Frames of distinct ticks stay as they are. -/
theorem mergeTicks_eq {done rest : List Frame} (h : Increasing (done.reverse ++ rest)) :
    mergeTicks done rest = done.reverse ++ rest := by
  fun_induction mergeTicks done rest with
  | case1 done => exact (List.append_nil _).symm
  | case2 last done frame rest heq ih =>
    have hlt := (List.pairwise_append.1 h).2.2 last (by simp) frame List.mem_cons_self
    omega
  | case3 last done frame rest hne ih =>
    have hmoved : (frame :: last :: done).reverse ++ rest =
        (last :: done).reverse ++ frame :: rest := by simp
    rw [ih (hmoved ▸ h), hmoved]
  | case4 frame rest ih => exact ih h

theorem find?_tick_eq_some_iff (h : (frames.map (·.tick)).Nodup) :
    (frames.find? fun f => decide (f.tick = tick)) = some f ↔ f ∈ frames ∧ f.tick = tick := by
  constructor
  · intro hf
    exact ⟨List.mem_of_find?_eq_some hf, by simpa using List.find?_some hf⟩
  · rintro ⟨hf, rfl⟩
    obtain ⟨g, hg⟩ := Option.isSome_iff_exists.1 (List.find?_isSome
      (p := fun g : Frame => decide (g.tick = f.tick)).2 ⟨f, hf, decide_eq_true rfl⟩)
    have htick : g.tick = f.tick := by simpa using List.find?_some hg
    rw [hg, List.inj_on_of_nodup_map h (List.mem_of_find?_eq_some hg) hf htick]

/-- Where all frames have ticks of their own below the duration, the exact lookup finds them as they
are. -/
theorem findFrame?_build_of_nodup (h : (frames.map (·.tick)).Nodup)
    (hlt : ∀ f ∈ frames, f.tick < duration) (tick : Nat) :
    (build frames duration).findFrame? tick = frames.find? fun f => decide (f.tick = tick) := by
  have hall : frames.filter (·.tick < duration) = frames :=
    List.filter_eq_self.2 fun f hf => decide_eq_true (hlt f hf)
  have hperm : (sortedFrames frames duration).Perm frames := by
    unfold sortedFrames
    rw [hall]
    exact List.mergeSort_perm _ _
  have hnodup : ((sortedFrames frames duration).map (·.tick)).Nodup :=
    (hperm.map _).nodup_iff.2 h
  have hinc : Increasing (sortedFrames frames duration) :=
    ((pairwise_sortedFrames frames duration).and (List.pairwise_map.1 hnodup)).imp
      fun hboth => Nat.lt_of_le_of_ne hboth.1 hboth.2
  have hdistinct : distinctFrames frames duration = sortedFrames frames duration :=
    mergeTicks_eq (show Increasing ([].reverse ++ _) from hinc)
  rw [findFrame?_build, hdistinct]
  ext f
  rw [find?_tick_eq_some_iff hnodup, find?_tick_eq_some_iff h, hperm.mem_iff]

/-- Then the frames of the tree are among them. -/
theorem mem_of_mem_frames_build (h : (frames.map (·.tick)).Nodup)
    (hlt : ∀ f ∈ frames, f.tick < duration) (hf : f ∈ (build frames duration).frames) :
    f ∈ frames := by
  have hdistinct : ((distinctFrames frames duration).map (·.tick)).Nodup :=
    List.pairwise_map.2 ((increasing_distinctFrames frames duration).imp Nat.ne_of_lt)
  rw [frames_build] at hf
  have hfound := (find?_tick_eq_some_iff hdistinct).2 ⟨hf, rfl⟩
  rw [← findFrame?_build, findFrame?_build_of_nodup h hlt] at hfound
  exact List.mem_of_find?_eq_some hfound

end DispatchTree

end Marionette
