import Marionette.Proofs.DispatchTree.Leaves
import Mathlib.Order.Bounds.Basic

/-!
# The ticks that leaves serve under seeking

Under seeking, the topmost node serves the ticks from the first frame to the end of the animation,
and every branch shares its own among its children.  What arrives at the leaves are spans of ticks
that lie side by side, and the seeking lookup gives the leaf in whose span a tick is.

- `DispatchTree.Serves`: the first and the last tick that a node serves, from the top down.
- `DispatchNode.spans`, `DispatchTree.spans`: the spans of the leaves, from left to right.
- `DispatchNode.Places`: a node with everything below it has the numbers from one on;
  `DispatchNode.Places.floorRanges?` is what it shares among its children then.
- `DispatchTree.mem_spans_iff`: the spans are what the leaves serve.
- `DispatchTree.IsTiling`: the spans tile the ticks and fit the lookup; `isTiling_build`: those of
  trees that are built do.
-/

namespace Marionette

/-- A leaf, by number, with the first and the last tick that it serves. -/
structure Span where
  /-- The number of the leaf. -/
  leaf : Nat
  /-- The first tick. -/
  lo : Nat
  /-- The last tick. -/
  hi : Nat
deriving DecidableEq, Repr

/-- A tick of a span. -/
def Span.Has (s : Span) (tick : Nat) : Prop := s.lo ≤ tick ∧ tick ≤ s.hi

namespace DispatchNode

/-- The spans of the leaves, from left to right, in a tree whose nodes are numbered from `start` on
and whose last tick is `upper`. -/
def spans (start upper : Nat) : DispatchNode → List Span
  | leaf frame => [⟨start, frame.tick, upper⟩]
  | branch _ _ left right =>
    left.spans start (right.lo - 1) ++ right.spans (start + left.size) upper

variable {n m left right : DispatchNode} {lo hi tick start first id upper : Nat} {s : Span}

/-! ### Side by side -/

theorem map_leaf_spans (n : DispatchNode) (start upper : Nat) :
    (n.spans start upper).map (·.leaf) = n.leafIds start := by
  induction n generalizing start upper with
  | leaf frame => rfl
  | branch lo hi left right ihl ihr => rw [spans, List.map_append, ihl, ihr, leafIds]

/-- The spans lie within the ticks of the node and are not empty, and their leaves have numbers of
the node. -/
theorem bounds_of_mem_spans (h : n.Ordered) (hupper : n.hi ≤ upper) (hs : s ∈ n.spans start upper) :
    n.lo ≤ s.lo ∧ s.lo ≤ s.hi ∧ s.hi ≤ upper ∧ start ≤ s.leaf ∧ s.leaf < start + n.size := by
  induction n generalizing start upper with
  | leaf frame =>
    obtain rfl := List.mem_singleton.1 hs
    exact ⟨Nat.le_refl _, hupper, Nat.le_refl _, Nat.le_refl _, Nat.lt_succ_self _⟩
  | branch lo hi left right ihl ihr =>
    obtain ⟨rfl, rfl, hlt, hl, hr⟩ := h
    have hleft := hl.lo_le_hi
    have hright := hr.lo_le_hi
    simp only [size]
    change left.lo ≤ s.lo ∧ _
    change right.hi ≤ upper at hupper
    rcases List.mem_append.1 hs with hs | hs
    · have := ihl hl (by omega) hs
      omega
    · have := ihr hr hupper hs
      omega

/-- From left to right the spans come one after the other, and so do the numbers of their leaves. -/
theorem pairwise_spans (h : n.Ordered) (hupper : n.hi ≤ upper) :
    (n.spans start upper).Pairwise fun a b => a.leaf < b.leaf ∧ a.hi < b.lo := by
  induction n generalizing start upper with
  | leaf frame => exact List.pairwise_singleton _ _
  | branch lo hi left right ihl ihr =>
    obtain ⟨rfl, rfl, hlt, hl, hr⟩ := h
    refine List.pairwise_append.2 ⟨ihl hl (by omega), ihr hr hupper, fun a ha b hb => ?_⟩
    have hleft := bounds_of_mem_spans hl (by omega) ha
    have hright := bounds_of_mem_spans hr hupper hb
    omega

/-- Every tick from the first one of the node on is in one of the spans. -/
theorem exists_mem_spans (h : n.Ordered) (hlo : n.lo ≤ tick) (hupper : tick ≤ upper) :
    ∃ s ∈ n.spans start upper, s.Has tick := by
  induction n generalizing start upper with
  | leaf frame => exact ⟨_, List.mem_singleton_self _, hlo, hupper⟩
  | branch lo hi left right ihl ihr =>
    obtain ⟨rfl, rfl, hlt, hl, hr⟩ := h
    by_cases hright : right.lo ≤ tick
    · obtain ⟨s, hs, hhas⟩ : ∃ s ∈ right.spans (start + left.size) upper, s.Has tick :=
        ihr hr hright hupper
      exact ⟨s, List.mem_append_right _ hs, hhas⟩
    · obtain ⟨s, hs, hhas⟩ : ∃ s ∈ left.spans start (right.lo - 1), s.Has tick :=
        ihl hl hlo (by omega)
      exact ⟨s, List.mem_append_left _ hs, hhas⟩

/-- The seeking lookup goes down to the leaf in whose span the tick is. -/
theorem route?_of_mem_spans (h : n.Ordered) (hupper : n.hi ≤ upper) (hs : s ∈ n.spans start upper)
    (htick : s.Has tick) : n.route? tick start = some s.leaf := by
  induction n generalizing start upper with
  | leaf frame =>
    obtain rfl := List.mem_singleton.1 hs
    exact if_pos htick.1
  | branch lo hi left right ihl ihr =>
    obtain ⟨rfl, rfl, hlt, hl, hr⟩ := h
    obtain ⟨hlo, hhi⟩ := htick
    rw [route?]
    rcases List.mem_append.1 hs with hs | hs
    · -- the spans of the left child end before the first tick of the right one
      have hbounds := bounds_of_mem_spans hl (by omega) hs
      rw [if_neg (by omega), if_pos (by omega)]
      exact ihl hl (by omega) hs
    · have hbounds := bounds_of_mem_spans hr hupper hs
      rw [if_pos (by omega)]
      exact ihr hr hupper hs

/-- Before the first tick of a node the seeking lookup finds nothing. -/
theorem lo_le_of_route? (h : n.Ordered) (hid : n.route? tick start = some id) : n.lo ≤ tick := by
  cases n with
  | leaf frame =>
    rw [route?] at hid
    split at hid
    · assumption
    · cases hid
  | branch lo hi left right =>
    obtain ⟨rfl, -, hlt, hl, -⟩ := h
    have hleft := hl.lo_le_hi
    change left.lo ≤ tick
    rw [route?] at hid
    split at hid
    · omega
    · split at hid
      · assumption
      · cases hid

/-! ### Looking nodes up by number -/

/-- In a tree numbered from `first` on, the node `m` and those below it have the numbers from
`start` on. -/
def Places (n : DispatchNode) (first : Nat) (m : DispatchNode) (start : Nat) : Prop :=
  ∀ id, start ≤ id → id < start + m.size → n.node? id first = m.node? id start

theorem node?_rootId (n : DispatchNode) (start : Nat) :
    n.node? (n.rootId start) start = some (n, start) := by
  cases n with
  | leaf frame => exact if_pos (Nat.add_sub_cancel start 1)
  | branch lo hi left right => exact if_pos rfl

theorem node?_left (hlt : id < start + left.size) :
    (branch lo hi left right).node? id start = left.node? id start := by
  have hroot : id ≠ (branch lo hi left right).rootId start := by
    simp only [rootId, size]
    omega
  rw [node?, if_neg hroot, if_pos hlt]

theorem node?_right (hle : start + left.size ≤ id) (hlt : id < start + left.size + right.size) :
    (branch lo hi left right).node? id start = right.node? id (start + left.size) := by
  have hroot : id ≠ (branch lo hi left right).rootId start := by
    simp only [rootId, size]
    omega
  rw [node?, if_neg hroot, if_neg (Nat.not_lt.2 hle)]

namespace Places

theorem refl (n : DispatchNode) (first : Nat) : n.Places first n first := fun _ _ _ => rfl

theorem inLeft (h : n.Places first (branch lo hi left right) start) :
    n.Places first left start := by
  intro id hle hlt
  rw [h id hle (by simp only [size]; omega), node?_left hlt]

theorem inRight (h : n.Places first (branch lo hi left right) start) :
    n.Places first right (start + left.size) := by
  intro id hle hlt
  rw [h id (by omega) (by simp only [size]; omega), node?_right hle hlt]

theorem node?_eq (h : n.Places first m start) :
    n.node? (m.rootId start) first = some (m, start) := by
  have hpos : 0 < m.size := by cases m <;> exact Nat.succ_pos _
  rw [h _ (by unfold rootId; omega) (by unfold rootId; omega), node?_rootId]

end Places

/-- The number of a leaf is that of a node without anything below it. -/
theorem node?_of_mem_leafIds (h : id ∈ n.leafIds start) :
    ∃ frame, n.node? id start = some (leaf frame, id) := by
  -- the numbers of a child are those that the lookup goes down to it for
  have hbounds : ∀ {m : DispatchNode} {start}, id ∈ m.leafIds start →
      start ≤ id ∧ id < start + m.size := by
    intro m start hmem
    obtain ⟨frame, -, hle, hentry⟩ := exists_of_mem_left (m.forall₂_leafIds start) hmem
    obtain ⟨hlt, -⟩ := List.getElem?_eq_some_iff.1 hentry
    rw [length_entries] at hlt
    omega
  induction n generalizing start with
  | leaf frame =>
    obtain rfl := List.mem_singleton.1 h
    exact ⟨frame, if_pos rfl⟩
  | branch lo hi left right ihl ihr =>
    rcases List.mem_append.1 h with h | h
    · rw [node?_left (hbounds h).2]
      exact ihl h
    · obtain ⟨hle, hlt⟩ := hbounds h
      rw [node?_right hle hlt]
      exact ihr h

theorem ordered_of_node? (h : n.Ordered) (hm : n.node? id start = some (m, first)) : m.Ordered := by
  induction n generalizing start with
  | leaf frame =>
    rw [node?] at hm
    split at hm
    · cases hm
      exact h
    · cases hm
  | branch lo hi left right ihl ihr =>
    rw [node?] at hm
    split at hm
    · cases hm
      exact h
    · split at hm
      · exact ihl h.2.2.2.1 hm
      · exact ihr h.2.2.2.2 hm

end DispatchNode

namespace DispatchTree

open DispatchNode (Places)

variable {t : DispatchTree} {n m : DispatchNode} {id lo hi start upper tick duration : Nat}
  {frames : List Frame}

/-- The node of a number serves the ticks from `lo` to `hi` under seeking: the topmost one from its
first tick to the end of the animation, and a child of a branch as much of what the branch serves as
it is given. -/
inductive Serves (t : DispatchTree) : Nat → Nat → Nat → Prop where
  /-- The topmost node. -/
  | root {n : DispatchNode} (h : t.root = some n) : t.Serves (n.rootId 0) n.lo (t.duration - 1)
  /-- A child. -/
  | child {id lo hi child first last : Nat} {ranges : List (Nat × Nat × Nat)}
    (h : t.Serves id lo hi)
      (hranges : t.floorRanges? id hi = some ranges) (hmem : (child, first, last) ∈ ranges) :
      t.Serves child first last

/-- The spans of the leaves, from left to right. -/
def spans (t : DispatchTree) : List Span :=
  (t.root.map fun n => n.spans 0 (t.duration - 1)).getD []

theorem spans_eq (h : t.root = some n) : t.spans = n.spans 0 (t.duration - 1) := by
  rw [spans, h]
  rfl

theorem leafIds_eq (h : t.root = some n) : t.leafIds = n.leafIds 0 := by
  rw [leafIds, h]
  rfl

theorem floorRanges?_eq (h : t.root = some n) (hplace : n.Places 0 m start) (upper : Nat) :
    t.floorRanges? (m.rootId start) upper =
      some ((m.childIds start).zip ((m.floorRanges upper).map (·.2))) := by
  unfold floorRanges?
  rw [h]
  simp only [Option.bind_eq_bind, Option.bind_some, hplace.node?_eq]
  rfl

/-- What a node serves reaches the leaves below it as their spans. -/
theorem serves_of_mem_spans {s : Span} (h : t.root = some n) (hplace : n.Places 0 m start)
    (hserves : t.Serves (m.rootId start) m.lo upper) (hs : s ∈ m.spans start upper) :
    t.Serves s.leaf s.lo s.hi := by
  induction m generalizing start upper with
  | leaf frame =>
    obtain rfl := List.mem_singleton.1 hs
    exact hserves
  | branch lo hi left right ihl ihr =>
    have hranges := floorRanges?_eq h hplace upper
    rcases List.mem_append.1 hs with hs | hs
    · exact ihl hplace.inLeft (hserves.child hranges List.mem_cons_self) hs
    · exact ihr hplace.inRight
        (hserves.child hranges (List.mem_cons_of_mem _ (List.mem_singleton_self _))) hs

/-- Whatever serves ticks is a node of the tree, and the spans of the leaves below it are among
those of the tree. -/
theorem Serves.exists_places (h : t.root = some n) (hserves : t.Serves id lo hi) :
    ∃ m start, n.Places 0 m start ∧ id = m.rootId start ∧ lo = m.lo ∧
      ∀ s ∈ m.spans start hi, s ∈ t.spans := by
  induction hserves with
  | root hroot =>
    obtain rfl := Option.some.inj (h.symm.trans hroot)
    exact ⟨n, 0, .refl n 0, rfl, rfl, fun s hs => spans_eq h ▸ hs⟩
  | child _ hranges hmem ih =>
    obtain ⟨m, start, hplace, rfl, rfl, hspans⟩ := ih
    rw [floorRanges?_eq h hplace] at hranges
    cases hranges
    cases m with
    | leaf frame => cases hmem
    | branch lo hi left right =>
      rcases List.mem_pair.1 hmem with heq | heq
      · cases heq
        exact ⟨left, start, hplace.inLeft, rfl, rfl, fun s hs =>
          hspans s (List.mem_append_left _ hs)⟩
      · cases heq
        exact ⟨right, _, hplace.inRight, rfl, rfl, fun s hs =>
          hspans s (List.mem_append_right _ hs)⟩

/-- The spans are what the leaves serve. -/
theorem mem_spans_iff (h : t.root = some n) {s : Span} :
    s ∈ t.spans ↔ s.leaf ∈ t.leafIds ∧ t.Serves s.leaf s.lo s.hi := by
  constructor
  · intro hs
    rw [spans_eq h] at hs
    refine ⟨?_, serves_of_mem_spans h (.refl n 0) (.root h) hs⟩
    rw [leafIds_eq h, ← n.map_leaf_spans 0 (t.duration - 1)]
    exact List.mem_map_of_mem hs
  · rintro ⟨hleaf, hserves⟩
    obtain ⟨m, start, hplace, hid, hlo, hspans⟩ := hserves.exists_places h
    -- the node with the number of a leaf is a leaf
    rw [leafIds_eq h] at hleaf
    obtain ⟨frame, hnode⟩ := DispatchNode.node?_of_mem_leafIds hleaf
    rw [hid, hplace.node?_eq] at hnode
    cases hnode
    refine hspans s (List.mem_singleton.2 ?_)
    obtain ⟨own, first, last⟩ := s
    cases hid
    cases hlo
    rfl

/-- Where a branch shares its ticks, each child ends right before the next one begins; so there is a
tick before the first one of every child but the first. -/
theorem isChain_floorRanges? (h : t.root = some n) (hord : n.Ordered)
    {ranges : List (Nat × Nat × Nat)} (hranges : t.floorRanges? id upper = some ranges) :
    ranges.IsChain fun a b => a.2.2 + 1 = b.2.1 := by
  unfold floorRanges? at hranges
  rw [h, Option.bind_eq_bind, Option.bind_some] at hranges
  obtain ⟨⟨m, start⟩, hnode, hranges⟩ := Option.bind_eq_some_iff.1 hranges
  cases hranges
  cases m with
  | leaf frame => exact .nil
  | branch lo hi left right =>
    obtain ⟨-, -, hlt, -, -⟩ := DispatchNode.ordered_of_node? hord hnode
    have hnext : right.lo - 1 + 1 = right.lo := by omega
    exact .cons_cons hnext (.singleton _)

/-! ### Trees that are built -/

/-- The leaves have one span each, which is what they serve.  From left to right the spans are not
empty and lie behind one another; together they have all ticks from `first` to `last`, and the
seeking lookup finds a leaf exactly for the ticks of its span.  On the way down, no branch has a
child without a tick before it, but for the first one. -/
structure IsTiling (t : DispatchTree) (first last : Nat) (spans : List Span) : Prop where
  map_leaf : spans.map (·.leaf) = t.leafIds
  mem_iff : ∀ s, s ∈ spans ↔ s.leaf ∈ t.leafIds ∧ t.Serves s.leaf s.lo s.hi
  lo_le_hi : ∀ s ∈ spans, s.lo ≤ s.hi
  pairwise : spans.Pairwise fun a b => a.hi < b.lo
  exists_has_iff : ∀ tick, (∃ s ∈ spans, s.Has tick) ↔ first ≤ tick ∧ tick ≤ last
  has_iff : ∀ s ∈ spans, ∀ tick, s.Has tick ↔ t.route? tick = some s.leaf
  isChain : ∀ id upper ranges, t.floorRanges? id upper = some ranges →
    ranges.IsChain fun a b => a.2.2 + 1 = b.2.1

/-- The spans of an ordered tree tile its ticks. -/
theorem isTiling_of_root (h : t.root = some n) (hord : n.Ordered) (hhi : n.hi < t.duration) :
    t.IsTiling n.lo (t.duration - 1) t.spans := by
  have hupper : n.hi ≤ t.duration - 1 := by omega
  have hpairwise : t.spans.Pairwise fun a b => a.leaf < b.leaf ∧ a.hi < b.lo := by
    rw [spans_eq h]
    exact DispatchNode.pairwise_spans hord hupper
  have hnodup : (t.spans.map (·.leaf)).Nodup :=
    List.pairwise_map.2 (hpairwise.imp fun hab => Nat.ne_of_lt hab.1)
  have hbounds : ∀ s ∈ t.spans, n.lo ≤ s.lo ∧ s.lo ≤ s.hi ∧ s.hi ≤ t.duration - 1 := by
    intro s hs
    rw [spans_eq h] at hs
    have := DispatchNode.bounds_of_mem_spans hord hupper hs
    omega
  have hroute : ∀ s ∈ t.spans, ∀ tick, s.Has tick → t.route? tick = some s.leaf := by
    intro s hs tick hhas
    have htick : ¬t.duration ≤ tick := by
      have := hbounds s hs
      have := hhas.2
      omega
    rw [spans_eq h] at hs
    rw [route?, if_neg htick, h]
    exact DispatchNode.route?_of_mem_spans hord hupper hs hhas
  have hexists : ∀ tick, n.lo ≤ tick → tick ≤ t.duration - 1 → ∃ s ∈ t.spans, s.Has tick := by
    intro tick hlo hlast
    rw [spans_eq h]
    exact DispatchNode.exists_mem_spans hord hlo hlast
  constructor
  · rw [spans_eq h, leafIds_eq h, DispatchNode.map_leaf_spans]
  · exact fun s => mem_spans_iff h
  · exact fun s hs => (hbounds s hs).2.1
  · exact hpairwise.imp And.right
  · intro tick
    constructor
    · rintro ⟨s, hs, hlo, hhi⟩
      have := hbounds s hs
      omega
    · rintro ⟨hlo, hlast⟩
      exact hexists tick hlo hlast
  · intro s hs tick
    refine ⟨hroute s hs tick, fun hfound => ?_⟩
    -- the tick is in some span, and the leaf of that span is the one that is found
    have hfound' := hfound
    rw [route?] at hfound'
    split at hfound'
    · cases hfound'
    · rename_i hlast
      rw [h] at hfound'
      have hlo := DispatchNode.lo_le_of_route? hord hfound'
      obtain ⟨s', hs', hhas⟩ := hexists tick hlo (by omega)
      have hleaf : s'.leaf = s.leaf :=
        Option.some.inj ((hroute s' hs' tick hhas).symm.trans hfound)
      rwa [← List.inj_on_of_nodup_map hnodup hs' hs hleaf]
  · exact fun id upper ranges => isChain_floorRanges? h hord

/-- The first tick of a tree that is built is the least one of the frames below the duration. -/
theorem isLeast_lo_of_root_build (h : (build frames duration).root = some n) :
    IsLeast {tick | ∃ f ∈ frames, f.tick = tick ∧ tick < duration} n.lo := by
  obtain ⟨hord, hframes⟩ := root_build h
  obtain ⟨hlo, -, hall⟩ := hord.range
  rw [hframes] at hlo hall
  refine ⟨exists_mem_distinctFrames_iff.1 hlo, fun tick htick => ?_⟩
  obtain ⟨f, hf, rfl⟩ := exists_mem_distinctFrames_iff.2 htick
  exact (hall f hf).1

/-- Where a frame is below the duration, the spans of the tree tile the ticks from the first such
frame to the last tick of the animation. -/
theorem isTiling_build {frames : List Frame} {duration : Nat}
    (h : ∃ f ∈ frames, f.tick < duration) :
    ∃ first last, IsLeast {tick | ∃ f ∈ frames, f.tick = tick ∧ tick < duration} first ∧
      last + 1 = duration ∧
      (build frames duration).IsTiling first last (build frames duration).spans := by
  obtain ⟨f, hf, hlt⟩ := h
  obtain ⟨g, hg, -⟩ := exists_mem_distinctFrames_iff.2 ⟨f, hf, rfl, hlt⟩
  obtain ⟨n, hn⟩ := DispatchNode.exists_ofFrames? _ (List.ne_nil_of_mem hg)
  have hroot : (build frames duration).root = some n := hn
  refine ⟨n.lo, duration - 1, isLeast_lo_of_root_build hroot, by omega, ?_⟩
  exact isTiling_of_root hroot (root_build hroot).1 (hi_lt_of_root_build hroot)

/-- Four ticks that do not come in order, of which one has two frames and another is
behind the end. -/
theorem isTiling_build_four :
    let frames : List Frame :=
      [{ tick := 30 }, { tick := 4 }, { tick := 60 }, { tick := 9 }, { tick := 4 }]
    (build frames 50).spans = [⟨0, 4, 8⟩, ⟨1, 9, 29⟩, ⟨2, 30, 49⟩] ∧
      (build frames 50).IsTiling 4 49 (build frames 50).spans := by
  intro frames
  have hfour : ({ tick := 4 } : Frame) ∈ frames := by simp [frames]
  have hbefore : ∃ f ∈ frames, f.tick < 50 := ⟨_, hfour, by decide⟩
  have hall : ∀ f ∈ frames, 4 ≤ f.tick := by decide
  obtain ⟨first, last, ⟨⟨f, hf, htick, -⟩, hfirst⟩, hlast, htiling⟩ := isTiling_build hbefore
  have hle : first ≤ 4 := hfirst ⟨_, hfour, rfl, by decide⟩
  obtain rfl : first = 4 := Nat.le_antisymm hle (htick ▸ hall f hf)
  obtain rfl : last = 49 := by omega
  exact ⟨by cbv, htiling⟩

end DispatchTree

end Marionette
