import Marionette.Proofs.DispatchTree.Lookup
import Marionette.Proofs.DispatchTree.Merging
import Marionette.Proofs.Results

/-!
# The leaves of dispatch trees

The leaves of a tree are numbered from left to right, so each tick has at most one of them, and a
lookup can be described by the number that it gives.  What a leaf holds can be described without the
order in which frames are merged.

- `DispatchNode.filterMap_entries`: in the order of the numbers, the leaves hold the frames in
  order.
- `DispatchNode.forall₂_leafIds`: the numbers of the leaves, and what the leaves hold.
- `DispatchNode.routeFrame?_eq`: the seeking lookup finds the last frame at or before a tick.
- `DispatchTree.HasLeaf`: the node of a number is a leaf of a tick.
- `DispatchTree.lookups_build`: the exact lookup finds the leaf of its tick, the seeking lookup the
  latest leaf, and the leaves are those of the distinct ticks.
- `DispatchTree.leaf_build`: the leaf of a tick holds the winners among the frames of that tick, and
  nothing of other frames.
-/

namespace Marionette

namespace DispatchNode

/-- The frame of a leaf. -/
def Entry.frame? : Entry → Option Frame
  | leaf frame => some frame
  | branch _ _ _ => none

/-- In the order of the numbers, the leaves hold the frames from left to right. -/
theorem filterMap_entries (n : DispatchNode) (start : Nat) :
    (n.entries start).filterMap Entry.frame? = n.frames := by
  induction n generalizing start with
  | leaf frame => rfl
  | branch lo hi left right ihl ihr =>
    rw [entries, List.filterMap_append, List.filterMap_append, ihl, ihr, frames]
    exact List.append_nil _

/-- The numbers of the leaves are listed in the order of the frames that they hold. -/
theorem forall₂_leafIds (n : DispatchNode) (start : Nat) :
    List.Forall₂ (n.IsLeafOf start) (n.leafIds start) n.frames := by
  induction n generalizing start with
  | leaf frame => exact .cons (.leaf start frame) .nil
  | branch lo hi left right ihl ihr =>
    exact List.rel_append ((ihl start).imp fun _ _ h => h.inLeft)
      ((ihr (start + left.size)).imp fun _ _ h => h.inRight)

variable {n left right : DispatchNode} {tick : Nat}

/-- In an ordered node, the seeking lookup finds the last frame at or before a tick. -/
theorem routeFrame?_eq (h : n.Ordered) (tick : Nat) :
    n.routeFrame? tick = n.frames.reverse.find? fun f => decide (f.tick ≤ tick) := by
  -- before the first tick of a node there is nothing to find
  have hbefore : ∀ {m : DispatchNode}, m.Ordered → ¬m.lo ≤ tick →
      (m.frames.reverse.find? fun f => decide (f.tick ≤ tick)) = none := by
    intro m hm hlo
    rw [List.find?_eq_none]
    intro f hf
    have hrange := hm.range.2.2 f (List.mem_reverse.1 hf)
    rw [decide_eq_true_eq]
    omega
  induction n with
  | leaf frame =>
    by_cases ht : frame.tick ≤ tick
    · simp [routeFrame?, frames, ht]
    · simp [routeFrame?, frames, ht]
  | branch lo hi left right ihl ihr =>
    obtain ⟨-, -, -, hl, hr⟩ := h
    rw [frames, List.reverse_append, List.find?_append, ← ihr hr, ← ihl hl, routeFrame?]
    split
    · rename_i hright
      -- the right child has a frame at its first tick
      obtain ⟨f, hf, htick⟩ := hr.range.1
      have hfound : (right.routeFrame? tick).isSome := by
        rw [ihr hr, List.find?_isSome]
        exact ⟨f, List.mem_reverse.2 hf, decide_eq_true (by omega)⟩
      obtain ⟨g, hg⟩ := Option.isSome_iff_exists.1 hfound
      rw [hg, Option.some_or]
    · rename_i hright
      rw [ihr hr, hbefore hr hright, Option.none_or, ite_routeFrame? hl]

end DispatchNode

namespace DispatchTree

/-- The node of a number is a leaf, and its frame is of a tick. -/
def HasLeaf (t : DispatchTree) (id tick : Nat) : Prop :=
  ∃ frame, t.entries[id]? = some (.leaf frame) ∧ frame.tick = tick

variable {frames : List Frame} {duration tick id id' : Nat} {f : Frame}

theorem filterMap_entries (t : DispatchTree) :
    t.entries.filterMap DispatchNode.Entry.frame? = t.frames := by
  unfold entries DispatchTree.frames
  cases t.root with
  | none => rfl
  | some n => exact n.filterMap_entries 0

theorem mem_frames_of_entry {t : DispatchTree} (h : t.entries[id]? = some (.leaf f)) :
    f ∈ t.frames := by
  rw [← t.filterMap_entries]
  exact List.mem_filterMap.2 ⟨_, List.mem_of_getElem? h, rfl⟩

/-- The ticks of a tree are those of its frames below the duration. -/
theorem exists_mem_distinctFrames_iff :
    (∃ f ∈ distinctFrames frames duration, f.tick = tick) ↔
      ∃ f ∈ frames, f.tick = tick ∧ tick < duration := by
  constructor
  · rintro ⟨f, hf, rfl⟩
    obtain ⟨g, hg | hg, ht⟩ := exists_tick_mergeTicks hf
    · cases hg
    · exact ⟨g, (mem_sortedFrames.1 hg).1, ht, tick_lt_of_mem_distinctFrames hf⟩
  · rintro ⟨f, hf, rfl, hlt⟩
    exact exists_mem_mergeTicks (.inr (mem_sortedFrames.2 ⟨hf, hlt⟩))

/-- The numbers of the leaves, with the ticks of a tree in increasing order. -/
theorem forall₂_leafIds_build (frames : List Frame) (duration : Nat) :
    List.Forall₂ (build frames duration).HasLeaf (build frames duration).leafIds
      ((distinctFrames frames duration).map (·.tick)) := by
  rw [← frames_build]
  unfold DispatchTree.frames leafIds HasLeaf entries
  cases (build frames duration).root with
  | none => exact .nil
  | some n =>
    refine List.forall₂_map_right_iff.2 ((n.forall₂_leafIds 0).imp ?_)
    exact fun id frame h => ⟨frame, h.2, rfl⟩

/-- Each tick has one leaf at most. -/
theorem HasLeaf.unique (h : (build frames duration).HasLeaf id tick)
    (h' : (build frames duration).HasLeaf id' tick) : id = id' := by
  have hpairwise : (build frames duration).entries.Pairwise fun a b =>
      ∀ f, a.frame? = some f → ∀ g, b.frame? = some g → f.tick < g.tick := by
    rw [← List.pairwise_filterMap, filterMap_entries, frames_build]
    exact increasing_distinctFrames frames duration
  -- of two leaves, the one with the smaller number has the smaller tick
  have hlt : ∀ {i j}, (build frames duration).HasLeaf i tick →
      (build frames duration).HasLeaf j tick → ¬i < j := by
    rintro i j ⟨f, hi, hf⟩ ⟨g, hj, hg⟩ hij
    obtain ⟨hi, hfi⟩ := List.getElem?_eq_some_iff.1 hi
    obtain ⟨hj, hgj⟩ := List.getElem?_eq_some_iff.1 hj
    have hticks := List.pairwise_iff_getElem.1 hpairwise i j hi hj hij f
      (by rw [hfi]; rfl) g (by rw [hgj]; rfl)
    omega
  have := hlt h h'
  have := hlt h' h
  omega

theorem exists_hasLeaf_iff :
    (∃ id, (build frames duration).HasLeaf id tick) ↔
      ∃ f ∈ frames, f.tick = tick ∧ tick < duration := by
  rw [← exists_mem_distinctFrames_iff]
  constructor
  · rintro ⟨id, f, hf, htick⟩
    exact ⟨f, frames_build frames duration ▸ mem_frames_of_entry hf, htick⟩
  · intro h
    obtain ⟨f, hf, rfl⟩ := h
    obtain ⟨id, -, hid⟩ := exists_of_mem_right (forall₂_leafIds_build frames duration)
      (List.mem_map_of_mem hf)
    exact ⟨id, hid⟩

/-- In a tree that is built, the exact lookup gives the number of the leaf of its tick. -/
theorem find?_build_eq_some_iff :
    (build frames duration).find? tick = some id ↔ (build frames duration).HasLeaf id tick := by
  rcases (build frames duration).find?_cases tick
    with ⟨hnone, hframe⟩ | ⟨own, f, hown, hframe, hleaf⟩
  · rw [findFrame?_build, List.find?_eq_none] at hframe
    rw [hnone]
    refine iff_of_false (fun h => nomatch h) fun h => ?_
    obtain ⟨f, hf, htick⟩ := exists_mem_distinctFrames_iff.2 (exists_hasLeaf_iff.1 ⟨id, h⟩)
    exact absurd (decide_eq_true htick) (hframe f hf)
  · rw [findFrame?_build] at hframe
    have hhas : (build frames duration).HasLeaf own tick :=
      ⟨f, hleaf, by simpa using List.find?_some hframe⟩
    rw [hown]
    refine ⟨fun h => Option.some.inj h ▸ hhas, fun h => congrArg some (hhas.unique h)⟩

/-- In a tree that is built, the seeking lookup finds the last frame at or before a tick. -/
theorem routeFrame?_build (frames : List Frame) {duration tick : Nat} (h : tick < duration) :
    (build frames duration).routeFrame? tick =
      (distinctFrames frames duration).reverse.find? fun f => decide (f.tick ≤ tick) := by
  rw [← frames_build, DispatchTree.frames, routeFrame?,
    if_neg (show ¬(build frames duration).duration ≤ tick from Nat.not_le.2 h)]
  cases hroot : (build frames duration).root with
  | none => rfl
  | some n => exact DispatchNode.routeFrame?_eq (root_build hroot).1 tick

/-- The last frame at or before a tick is the latest of all. -/
theorem tick_le_of_find?_reverse {fs : List Frame} (hinc : Increasing fs)
    (hf : (fs.reverse.find? fun f => decide (f.tick ≤ tick)) = some f) {g : Frame} (hg : g ∈ fs)
    (hle : g.tick ≤ tick) : g.tick ≤ f.tick := by
  obtain ⟨-, after, before, hsplit, hafter⟩ := List.find?_eq_some_iff_append.1 hf
  have hdec : (after ++ f :: before).Pairwise fun a b => b.tick < a.tick := by
    rw [← hsplit]
    exact List.pairwise_reverse.2 hinc
  rw [← List.mem_reverse, hsplit] at hg
  rcases List.mem_append.1 hg with hg | hg
  · have hnot := hafter g hg
    simp [hle] at hnot
  · rcases List.mem_cons.1 hg with rfl | hg
    · exact Nat.le_refl _
    · exact Nat.le_of_lt ((List.pairwise_cons.1 (List.pairwise_append.1 hdec).2.1).1 g hg)

/-- In a tree that is built, the seeking lookup gives the number of the latest leaf at or before a
tick of the animation. -/
theorem route?_build_eq_some_iff :
    (build frames duration).route? tick = some id ↔ tick < duration ∧
      ∃ last, (build frames duration).HasLeaf id last ∧ last ≤ tick ∧
        ∀ f ∈ frames, f.tick ≤ tick → f.tick ≤ last := by
  by_cases hlt : tick < duration
  · rcases (build frames duration).route?_cases tick
      with ⟨hnone, hframe⟩ | ⟨own, f, hown, hframe, hleaf⟩
    · rw [routeFrame?_build frames hlt, List.find?_eq_none] at hframe
      rw [hnone]
      refine iff_of_false (fun h => nomatch h) ?_
      rintro ⟨-, last, hlast, hle, -⟩
      obtain ⟨f, hf, htick⟩ := exists_mem_distinctFrames_iff.2 (exists_hasLeaf_iff.1 ⟨id, hlast⟩)
      exact absurd (decide_eq_true (by omega)) (hframe f (List.mem_reverse.2 hf))
    · rw [routeFrame?_build frames hlt] at hframe
      have hle : f.tick ≤ tick := by simpa using List.find?_some hframe
      have hlatest : ∀ g ∈ frames, g.tick ≤ tick → g.tick ≤ f.tick := by
        intro g hg hgle
        obtain ⟨g', hg', htick⟩ := exists_mem_distinctFrames_iff.2
          ⟨g, hg, rfl, Nat.lt_of_le_of_lt hgle hlt⟩
        rw [← htick] at hgle ⊢
        exact tick_le_of_find?_reverse (increasing_distinctFrames frames duration) hframe hg' hgle
      have hhas : (build frames duration).HasLeaf own f.tick := ⟨f, hleaf, rfl⟩
      rw [hown]
      constructor
      · rintro h
        obtain rfl := Option.some.inj h
        exact ⟨hlt, f.tick, hhas, hle, hlatest⟩
      · rintro ⟨-, last, hlast, hlastle, hmax⟩
        -- there is one latest tick, and it has one leaf
        obtain ⟨g, hg, htick, -⟩ := exists_hasLeaf_iff.1 ⟨id, hlast⟩
        obtain ⟨g', hg', htick', -⟩ := exists_hasLeaf_iff.1 ⟨own, hhas⟩
        have := hlatest g hg (by omega)
        have := hmax g' hg' (by omega)
        obtain rfl : f.tick = last := by omega
        rw [hhas.unique hlast]
  · have hnone : (build frames duration).route? tick = none := if_pos (Nat.le_of_not_lt hlt)
    rw [hnone]
    exact iff_of_false (fun h => nomatch h) fun h => hlt h.1

/-- The exact lookup gives the leaf of its tick, which there is if a frame below the duration has
that tick.  Within the animation the seeking lookup gives the leaf of the greatest tick up to its
own, which there is if a frame has such a tick.  The leaves are those of the distinct ticks of the
frames below the duration, in increasing order. -/
theorem lookups_build (frames : List Frame) (duration : Nat) :
    (∀ tick id, (build frames duration).find? tick = some id ↔
      (build frames duration).HasLeaf id tick) ∧
    (∀ tick, (∃ id, (build frames duration).find? tick = some id) ↔
      ∃ f ∈ frames, f.tick = tick ∧ tick < duration) ∧
    (∀ tick id, (build frames duration).route? tick = some id ↔ tick < duration ∧
      ∃ last, (build frames duration).HasLeaf id last ∧ last ≤ tick ∧
        ∀ f ∈ frames, f.tick ≤ tick → f.tick ≤ last) ∧
    (∀ tick, (∃ id, (build frames duration).route? tick = some id) ↔
      tick < duration ∧ ∃ f ∈ frames, f.tick ≤ tick) ∧
    ∃ ticks : List Nat,
      List.Forall₂ (build frames duration).HasLeaf (build frames duration).leafIds ticks ∧
      ticks.Pairwise (· < ·) ∧
      ∀ tick, tick ∈ ticks ↔ ∃ f ∈ frames, f.tick = tick ∧ tick < duration := by
  have hinc : ((distinctFrames frames duration).map (·.tick)).Pairwise (· < ·) :=
    List.pairwise_map.2 (increasing_distinctFrames frames duration)
  refine ⟨fun _ _ => find?_build_eq_some_iff, fun tick => ?_, fun _ _ => route?_build_eq_some_iff,
    fun tick => ?_, (distinctFrames frames duration).map (·.tick),
    forall₂_leafIds_build frames duration, hinc, fun tick => ?_⟩
  · simp only [find?_build_eq_some_iff]
    exact exists_hasLeaf_iff
  · constructor
    · rintro ⟨id, hid⟩
      obtain ⟨hlt, last, hlast, hle, -⟩ := route?_build_eq_some_iff.1 hid
      obtain ⟨f, hf, htick, -⟩ := exists_hasLeaf_iff.1 ⟨id, hlast⟩
      exact ⟨hlt, f, hf, by omega⟩
    · rintro ⟨hlt, f, hf, hle⟩
      -- some leaf is served, as else no frame would be left at the tick or before
      rcases (build frames duration).route?_cases tick with ⟨-, hframe⟩ | ⟨id, -, hid, -⟩
      · obtain ⟨g, hg, htick⟩ := exists_mem_distinctFrames_iff.2
          ⟨f, hf, rfl, Nat.lt_of_le_of_lt hle hlt⟩
        rw [routeFrame?_build frames hlt, List.find?_eq_none] at hframe
        exact absurd (decide_eq_true (by omega)) (hframe g (List.mem_reverse.2 hg))
      · exact ⟨id, hid⟩
  · rw [List.mem_map]
    exact exists_mem_distinctFrames_iff

/-! ### What a leaf holds -/

/-- The frames of a tick below the duration, in whichever order. -/
theorem mem_framesAt_sortedFrames (h : tick < duration) :
    f ∈ framesAt tick (sortedFrames frames duration) ↔ f ∈ frames ∧ f.tick = tick := by
  rw [framesAt, List.mem_filter, mem_sortedFrames, decide_eq_true_eq]
  constructor
  · rintro ⟨⟨hf, -⟩, htick⟩
    exact ⟨hf, htick⟩
  · rintro ⟨hf, htick⟩
    exact ⟨⟨hf, htick ▸ h⟩, htick⟩

/-- A winner among what the frames of a tick have is one among what the frames of the list have that
are of the tick. -/
theorem sortsLast_framesAt {α : Type} {cmp : α → α → Ordering} {part : Frame → α → Prop} {x : α}
    (hlt : tick < duration)
    (h : SortsLast cmp (fun v => ∃ f ∈ framesAt tick (sortedFrames frames duration), part f v) x) :
    SortsLast cmp (fun v => ∃ f ∈ frames, f.tick = tick ∧ part f v) x :=
  h.congr fun v => by simp only [mem_framesAt_sortedFrames hlt, and_assoc]

/-- A tick below the duration that a frame has is found, and its leaf holds what the frames of the
tick have: all their nodes, each once and with an entry that no other one sorts after, and the
variant and the commands that no others sort after. -/
theorem leaf_build (hnodes : ∀ f ∈ frames, (f.nodes.map (·.1)).Nodup) (hlt : tick < duration)
    (hin : ∃ f ∈ frames, f.tick = tick) :
    ∃ id leaf, (build frames duration).find? tick = some id ∧
      (build frames duration).entries[id]? = some (.leaf leaf) ∧ leaf.tick = tick ∧
      (leaf.nodes.map (·.1)).Nodup ∧
      (∀ uuid, uuid ∈ leaf.nodes.map (·.1) ↔
        ∃ f ∈ frames, f.tick = tick ∧ uuid ∈ f.nodes.map (·.1)) ∧
      (∀ n ∈ leaf.nodes, SortsLast NodeEntry.compare
        (fun entry => ∃ f ∈ frames, f.tick = tick ∧ (n.1, entry) ∈ f.nodes) n.2) ∧
      SortsLast compare (fun v => ∃ f ∈ frames, f.tick = tick ∧ v = f.variant) leaf.variant ∧
      SortsLast compare (fun c => ∃ f ∈ frames, f.tick = tick ∧ c = f.commands) leaf.commands := by
  obtain ⟨g, hg, hgtick⟩ := hin
  obtain ⟨id, hhas⟩ := exists_hasLeaf_iff.2 ⟨g, hg, hgtick, hlt⟩
  have hfind := find?_build_eq_some_iff.2 hhas
  obtain ⟨leaf, hleaf, rfl⟩ := hhas
  have hmem : leaf ∈ distinctFrames frames duration :=
    frames_build frames duration ▸ mem_frames_of_entry hleaf
  have hgathers := gathers_of_mem_distinctFrames hnodes hmem
  have hwins : ∀ n ∈ leaf.nodes, SortsLast NodeEntry.compare
      (fun entry => ∃ f ∈ frames, f.tick = leaf.tick ∧ (n.1, entry) ∈ f.nodes) n.2 :=
    fun n hn => sortsLast_framesAt hlt (hgathers.nodes.wins n hn)
  refine ⟨id, leaf, hfind, hleaf, rfl, hgathers.nodes.nodup, fun uuid => ?_, hwins,
    sortsLast_framesAt hlt hgathers.variant, sortsLast_framesAt hlt hgathers.commands⟩
  constructor
  -- an entry of the leaf comes from a frame of the tick, and every entry of such a frame is
  -- covered
  · intro huuid
    obtain ⟨n, hn, rfl⟩ := List.mem_map.1 huuid
    obtain ⟨f, hf, htick, hentry⟩ := (hwins n hn).mem
    exact ⟨f, hf, htick, List.mem_map_of_mem hentry⟩
  · rintro ⟨f, hf, htick, huuid⟩
    obtain ⟨n, hn, rfl⟩ := List.mem_map.1 huuid
    exact hgathers.nodes.covers n.1 n.2 ⟨f, (mem_framesAt_sortedFrames hlt).2 ⟨hf, htick⟩, hn⟩

/-- Of three commands at one tick, the leaf has the last one in order. -/
theorem leaf_build_saying :
    ∃ id leaf,
      (build [sayingFrame "say a", sayingFrame "say c", sayingFrame "say b"] 4).find? 3 = some id ∧
      (build [sayingFrame "say a", sayingFrame "say c", sayingFrame "say b"] 4).entries[id]? =
        some (.leaf leaf) ∧
      leaf.tick = 3 ∧ leaf.commands = some ⟨["say c"], none⟩ := by
  have hnodes : ∀ f ∈ [sayingFrame "say a", sayingFrame "say c", sayingFrame "say b"],
      (f.nodes.map (·.1)).Nodup := by
    simp [sayingFrame]
  have hlt : 3 < 4 := by decide
  obtain ⟨id, leaf, hfind, hleaf, htick, -, -, -, -, hcommands⟩ :=
    leaf_build hnodes hlt ⟨sayingFrame "say a", List.mem_cons_self, rfl⟩
  refine ⟨id, leaf, hfind, hleaf, htick, ?_⟩
  have hlast := hcommands.isLE (some ⟨["say c"], none⟩) ⟨sayingFrame "say c", by simp, rfl, rfl⟩
  obtain ⟨f, hf, -, heq⟩ := hcommands.mem
  rw [heq] at hlast ⊢
  simp only [List.mem_cons, List.not_mem_nil, or_false] at hf
  rcases hf with rfl | rfl | rfl
  · exact absurd hlast (by decide)
  · rfl
  · exact absurd hlast (by decide)

end DispatchTree

end Marionette
