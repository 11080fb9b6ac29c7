import Mathlib.Data.List.Dedup
import Mathlib.Data.Nat.Log
import Mathlib.Order.Bounds.Basic
import Marionette.Proofs.DispatchTree.Leaves

/-!
# The shape of dispatch trees

A tree that is built is as small and as flat as it can be, and the ranges of its branches are those
of the ticks below them.

- `DispatchNode.size_of_ofFrames?`, `DispatchNode.depth_of_ofFrames?`: the size and the depth of a
  node, from the number of its frames alone.
- `DispatchTree.Holds`: the list of all nodes shows a node, with everything below it, from a number
  on.
- `DispatchNode.flatMap_children_perm`: every node but the topmost is listed once as a child.
- `DispatchTree.HasTick`: the node of a number has a tick at or below it.
- `DispatchTree.IsTight`: the shape of a tree over a number of ticks; `shape_build`: trees that are
  built have it.
-/

namespace Marionette

namespace DispatchNode

/-- The numbers right below an entry. -/
def Entry.children : Entry → List Nat
  | leaf _ => []
  | branch _ _ children => children

/-- First tick of an entry. -/
def Entry.lo : Entry → Nat
  | leaf frame => frame.tick
  | branch lo _ _ => lo

/-- Last tick of an entry. -/
def Entry.hi : Entry → Nat
  | leaf frame => frame.tick
  | branch _ hi _ => hi

/-- A node as the list of all nodes shows it. -/
def entry (start : Nat) : DispatchNode → Entry
  | leaf frame => .leaf frame
  | branch lo hi left right => .branch lo hi ((branch lo hi left right).childIds start)

variable {n left right : DispatchNode} {lo hi start id : Nat} {fs : List Frame}

@[simp] theorem lo_entry (n : DispatchNode) (start : Nat) : (n.entry start).lo = n.lo := by
  cases n <;> rfl

@[simp] theorem hi_entry (n : DispatchNode) (start : Nat) : (n.entry start).hi = n.hi := by
  cases n <;> rfl

theorem size_pos (n : DispatchNode) : 0 < n.size := by
  cases n with
  | leaf frame => exact Nat.one_pos
  | branch lo hi left right => exact Nat.succ_pos _

/-! ### Size and depth -/

/-- There is one branch less than there are frames. -/
theorem size_of_ofFrames? (h : ofFrames? fs = some n) : n.size + 1 = 2 * fs.length := by
  refine ofFrames?_rec (P := fun fs n => n.size + 1 = 2 * fs.length) (fun f => rfl) ?_ h
  intro fs left right hlen hl hr
  rw [List.length_take] at hl
  rw [List.length_drop] at hr
  simp only [size]
  omega

/-- The way down is as long as it has to be for the frames to have room. -/
theorem depth_of_ofFrames? (h : ofFrames? fs = some n) : n.depth = Nat.clog 2 fs.length + 1 := by
  refine ofFrames?_rec (P := fun fs n => n.depth = Nat.clog 2 fs.length + 1) (fun f => ?_) ?_ h
  · rw [List.length_singleton, Nat.clog_one_right]
    rfl
  · intro fs left right hlen hl hr
    -- the right half is the larger one, and it is half of the frames, rounded up
    have hhalf : fs.length / 2 ≤ fs.length - fs.length / 2 := by omega
    have hup : fs.length - fs.length / 2 = (fs.length + 2 - 1) / 2 := by omega
    rw [List.length_take, Nat.min_eq_left (Nat.div_le_self _ _)] at hl
    rw [List.length_drop] at hr
    calc 1 + max left.depth right.depth
        = Nat.clog 2 (fs.length - fs.length / 2) + 1 + 1 := by
          rw [hl, hr, Nat.max_eq_right (Nat.succ_le_succ (Nat.clog_mono_right 2 hhalf)),
            Nat.add_comm]
      _ = Nat.clog 2 fs.length + 1 := by
          rw [hup, ← Nat.clog_of_one_lt Nat.one_lt_two hlen]

/-! ### Parents -/

theorem rootId_eq (n : DispatchNode) (start : Nat) : n.rootId start + 1 = start + n.size := by
  have := n.size_pos
  unfold rootId
  omega

/-- The numbers up to a node, one after the other, end with its own. -/
theorem range'_size (n : DispatchNode) (start : Nat) :
    List.range' start (n.size - 1) ++ [n.rootId start] = List.range' start n.size := by
  have hpos := n.size_pos
  have hid : n.rootId start = start + 1 * (n.size - 1) := by
    unfold rootId
    omega
  rw [hid, ← List.range'_concat, Nat.sub_add_cancel hpos]

/-- Below a node, every number but its own is listed once as a child. -/
theorem flatMap_children_perm (n : DispatchNode) (start : Nat) :
    ((n.entries start).flatMap Entry.children).Perm (List.range' start (n.size - 1)) := by
  induction n generalizing start with
  | leaf frame => exact .refl _
  | branch lo hi left right ihl ihr =>
    have hrange : List.range' start ((branch lo hi left right).size - 1) =
        List.range' start left.size ++ List.range' (start + left.size) right.size := by
      rw [List.range'_append_1]
      rfl
    rw [hrange, ← left.range'_size, ← right.range'_size, entries, List.flatMap_append,
      List.flatMap_append, List.flatMap_singleton]
    refine (((ihl start).append (ihr (start + left.size))).append_right _).trans ?_
    -- each child comes after what is below it
    rw [List.append_assoc, List.append_assoc]
    refine List.Perm.append_left _ ?_
    exact List.perm_middle

end DispatchNode

namespace DispatchTree

/-- In the list of all nodes, a node stands with everything below it, numbered from `start` on. -/
def Holds (t : DispatchTree) (n : DispatchNode) (start : Nat) : Prop :=
  ∃ before after, t.entries = before ++ n.entries start ++ after ∧ before.length = start

variable {t : DispatchTree} {n left right : DispatchNode} {lo hi start id tick duration : Nat}
  {frames : List Frame}

namespace Holds

theorem of_root (h : t.root = some n) : t.Holds n 0 :=
  ⟨[], [], by simp [entries, h], rfl⟩

theorem inLeft (h : t.Holds (.branch lo hi left right) start) : t.Holds left start := by
  obtain ⟨before, after, heq, hlen⟩ := h
  refine ⟨before, right.entries (start + left.size) ++ [.branch lo hi
    ((DispatchNode.branch lo hi left right).childIds start)] ++ after, ?_, hlen⟩
  rw [heq, DispatchNode.entries]
  simp only [List.append_assoc]

theorem inRight (h : t.Holds (.branch lo hi left right) start) :
    t.Holds right (start + left.size) := by
  obtain ⟨before, after, heq, hlen⟩ := h
  refine ⟨before ++ left.entries start, [.branch lo hi
    ((DispatchNode.branch lo hi left right).childIds start)] ++ after, ?_, ?_⟩
  · rw [heq, DispatchNode.entries]
    simp only [List.append_assoc]
  · rw [List.length_append, hlen, DispatchNode.length_entries]

/-- A node comes last among what is below it. -/
theorem getElem?_rootId (h : t.Holds n start) :
    t.entries[n.rootId start]? = some (n.entry start) := by
  obtain ⟨before, after, heq, hlen⟩ := h
  cases n with
  | leaf frame =>
    rw [heq, List.append_assoc,
      List.getElem?_append_right (by simp [DispatchNode.rootId, DispatchNode.size, hlen])]
    simp [DispatchNode.rootId, DispatchNode.size, hlen, DispatchNode.entries, DispatchNode.entry]
  | branch lo hi left right =>
    have hplace : (DispatchNode.branch lo hi left right).rootId start =
        (before ++ left.entries start ++ right.entries (start + left.size)).length := by
      simp only [DispatchNode.rootId, DispatchNode.size, List.length_append,
        DispatchNode.length_entries, hlen]
      omega
    have hsplit : t.entries = (before ++ left.entries start ++ right.entries (start + left.size)) ++
        (DispatchNode.branch lo hi left right).entry start :: after := by
      rw [heq, DispatchNode.entries]
      simp [DispatchNode.entry]
    rw [hplace, hsplit, List.getElem?_append_right (Nat.le_refl _), Nat.sub_self]
    rfl

/-- Every number from the first below a node up to its own is that of a node, which
is as ordered. -/
theorem exists_rootId_eq (h : t.Holds n start) (hord : n.Ordered) (hle : start ≤ id)
    (hlt : id < start + n.size) :
    ∃ m first, t.Holds m first ∧ m.Ordered ∧ id = m.rootId first := by
  induction n generalizing start with
  | leaf frame =>
    refine ⟨_, start, h, hord, ?_⟩
    simp only [DispatchNode.size] at hlt
    simp only [DispatchNode.rootId, DispatchNode.size]
    omega
  | branch lo hi left right ihl ihr =>
    have hlt' : id < start + (left.size + right.size + 1) := hlt
    rcases Nat.lt_or_ge id (start + left.size) with hl | hl
    · exact ihl h.inLeft hord.2.2.2.1 hle hl
    · rcases Nat.lt_or_ge id (start + left.size + right.size) with hr | hr
      · exact ihr h.inRight hord.2.2.2.2 hl hr
      · refine ⟨_, start, h, hord, ?_⟩
        simp only [DispatchNode.rootId, DispatchNode.size]
        omega

end Holds

/-! ### What stands below a node -/

/-- A node is right below another, by number. -/
def IsChild (t : DispatchTree) (id parent : Nat) : Prop :=
  ∃ e, t.entries[parent]? = some e ∧ id ∈ e.children

/-- A leaf at or below the node of a number has a tick. -/
inductive HasTick (t : DispatchTree) : Nat → Nat → Prop where
  /-- A leaf has its own. -/
  | leaf {id : Nat} {frame : Frame} (h : t.entries[id]? = some (.leaf frame)) :
      t.HasTick id frame.tick
  /-- A branch has those of its children. -/
  | branch {id child tick : Nat} (h : t.IsChild child id) (hchild : t.HasTick child tick) :
      t.HasTick id tick

/-- The ticks at or below a node are those of its frames. -/
theorem Holds.hasTick_iff (h : t.Holds n start) :
    t.HasTick (n.rootId start) tick ↔ ∃ f ∈ n.frames, f.tick = tick := by
  induction n generalizing start with
  | leaf frame =>
    -- a leaf has its own tick, and no children
    have hown := h.getElem?_rootId
    constructor
    · intro hhas
      cases hhas with
      | leaf hleaf =>
        obtain rfl := DispatchNode.Entry.leaf.inj (Option.some.inj (hown.symm.trans hleaf))
        exact ⟨frame, List.mem_singleton_self _, rfl⟩
      | branch hchild _ =>
        obtain ⟨e, he, hmem⟩ := hchild
        obtain rfl := Option.some.inj (hown.symm.trans he)
        cases hmem
    · rintro ⟨f, hf, rfl⟩
      obtain rfl := List.mem_singleton.1 hf
      exact .leaf hown
  | branch lo hi left right ihl ihr =>
    -- the ticks of a branch are those of its two children
    have hown := h.getElem?_rootId
    constructor
    · intro hhas
      cases hhas with
      | leaf hleaf => cases hown.symm.trans hleaf
      | branch hchild hbelow =>
        obtain ⟨e, he, hmem⟩ := hchild
        obtain rfl := Option.some.inj (hown.symm.trans he)
        rcases List.mem_pair.1 hmem with rfl | rfl
        · obtain ⟨f, hf, htick⟩ := (ihl h.inLeft).1 hbelow
          exact ⟨f, List.mem_append_left _ hf, htick⟩
        · obtain ⟨f, hf, htick⟩ := (ihr h.inRight).1 hbelow
          exact ⟨f, List.mem_append_right _ hf, htick⟩
    · rintro ⟨f, hf, htick⟩
      rcases List.mem_append.1 hf with hf | hf
      · exact .branch ⟨_, hown, List.mem_pair.2 (.inl rfl)⟩ ((ihl h.inLeft).2 ⟨f, hf, htick⟩)
      · exact .branch ⟨_, hown, List.mem_pair.2 (.inr rfl)⟩ ((ihr h.inRight).2 ⟨f, hf, htick⟩)

/-- The range of an ordered node is that of the ticks at or below it. -/
theorem Holds.range (h : t.Holds n start) (hord : n.Ordered) :
    IsLeast {tick | t.HasTick (n.rootId start) tick} n.lo ∧
      IsGreatest {tick | t.HasTick (n.rootId start) tick} n.hi := by
  obtain ⟨hlo, hhi, hall⟩ := hord.range
  refine ⟨⟨h.hasTick_iff.2 hlo, ?_⟩, h.hasTick_iff.2 hhi, ?_⟩
  · intro tick htick
    obtain ⟨f, hf, rfl⟩ := h.hasTick_iff.1 htick
    exact (hall f hf).1
  · intro tick htick
    obtain ⟨f, hf, rfl⟩ := h.hasTick_iff.1 htick
    exact (hall f hf).2

/-! ### Trees that are built -/

/-- Where every number is listed once as a child, it has one parent. -/
theorem existsUnique_isChild (h : (t.entries.flatMap DispatchNode.Entry.children).Nodup)
    (hid : id ∈ t.entries.flatMap DispatchNode.Entry.children) :
    ∃! parent, t.IsChild id parent := by
  obtain ⟨e, he, hmem⟩ := List.mem_flatMap.1 hid
  obtain ⟨parent, hparent⟩ := List.mem_iff_getElem?.1 he
  refine ⟨parent, ⟨e, hparent, hmem⟩, ?_⟩
  have hdisjoint := List.pairwise_iff_getElem.1 (List.nodup_flatMap.1 h).2
  -- of two parents, neither stands before the other
  have hlt : ∀ {p q}, t.IsChild id p → t.IsChild id q → ¬p < q := by
    rintro p q ⟨e, he, hp⟩ ⟨e', he', hq⟩ hpq
    obtain ⟨hplt, rfl⟩ := List.getElem?_eq_some_iff.1 he
    obtain ⟨hqlt, rfl⟩ := List.getElem?_eq_some_iff.1 he'
    exact hdisjoint p q hplt hqlt hpq hp hq
  intro other hother
  have := hlt hother ⟨e, hparent, hmem⟩
  have := hlt ⟨e, hparent, hmem⟩ hother
  omega

/-- A tree over `n` ticks, of which there is one at least, has no room to spare: every node but the
last has one parent, which comes after it, and every branch has two children and the range of the
ticks below it. -/
structure IsTight (t : DispatchTree) (n : Nat) : Prop where
  length_entries : t.entries.length = 2 * n - 1
  depth : t.depth = Nat.clog 2 n + 1
  rootId? : t.rootId? = some (t.entries.length - 1)
  parent : ∀ id < t.entries.length - 1, ∃! parent, t.IsChild id parent
  parent_after : ∀ id parent, t.IsChild id parent → id < parent
  branch : ∀ id lo hi children, t.entries[id]? = some (.branch lo hi children) →
    IsLeast {tick | t.HasTick id tick} lo ∧ IsGreatest {tick | t.HasTick id tick} hi ∧
      ∃ a b first second, children = [a, b] ∧ t.entries[a]? = some first ∧
        t.entries[b]? = some second ∧ first.hi < second.lo

theorem isTight_of_root (hroot : t.root = some n) (hord : n.Ordered) {count : Nat}
    (hsize : n.size + 1 = 2 * count) (hdepth : n.depth = Nat.clog 2 count + 1) :
    t.IsTight count := by
  have hentries : t.entries = n.entries 0 := by
    rw [entries, hroot]
    rfl
  have hlen : t.entries.length = n.size := by rw [hentries, n.length_entries]
  have hperm := n.flatMap_children_perm 0
  rw [← hentries, ← hlen] at hperm
  -- every number is that of a node
  have hnode : ∀ {id e}, t.entries[id]? = some e →
      ∃ m first, t.Holds m first ∧ m.Ordered ∧ id = m.rootId first ∧ e = m.entry first := by
    intro id e he
    obtain ⟨hlt, -⟩ := List.getElem?_eq_some_iff.1 he
    obtain ⟨m, first, hm, hmord, rfl⟩ :=
      (Holds.of_root hroot).exists_rootId_eq hord (Nat.zero_le id)
      (by omega)
    exact ⟨m, first, hm, hmord, rfl, Option.some.inj (he.symm.trans hm.getElem?_rootId)⟩
  refine ⟨by omega, by rw [DispatchTree.depth, hroot]; exact hdepth, ?_, ?_, ?_, ?_⟩
  · rw [rootId?, hroot, hlen]
    exact congrArg some (by rw [DispatchNode.rootId, Nat.zero_add])
  · intro id hid
    refine existsUnique_isChild (hperm.nodup_iff.2 List.nodup_range') ?_
    rw [hperm.mem_iff, List.mem_range'_1]
    omega
  · rintro id parent ⟨e, he, hid⟩
    obtain ⟨m, first, -, -, rfl, rfl⟩ := hnode he
    cases m with
    | leaf frame => cases hid
    | branch lo hi left right =>
      have := left.rootId_eq first
      have := right.rootId_eq (first + left.size)
      have := (DispatchNode.branch lo hi left right).rootId_eq first
      simp only [DispatchNode.size] at this
      rcases List.mem_pair.1 hid with rfl | rfl
      · omega
      · omega
  · intro id lo hi children he
    obtain ⟨m, first, hm, hmord, rfl, hentry⟩ := hnode he
    cases m with
    | leaf frame => cases hentry
    | branch lo' hi' left right =>
      cases hentry
      refine ⟨(hm.range hmord).1, (hm.range hmord).2, _, _, _, _, rfl, hm.inLeft.getElem?_rootId,
        hm.inRight.getElem?_rootId, ?_⟩
      rw [DispatchNode.hi_entry, DispatchNode.lo_entry]
      exact hmord.2.2.1

/-- The number of distinct ticks below the duration. -/
def tickCount (frames : List Frame) (duration : Nat) : Nat :=
  ((frames.map (·.tick)).filter (· < duration)).dedup.length

theorem length_distinctFrames (frames : List Frame) (duration : Nat) :
    (distinctFrames frames duration).length = tickCount frames duration := by
  have hinc : ((distinctFrames frames duration).map (·.tick)).Pairwise (· < ·) :=
    List.pairwise_map.2 (increasing_distinctFrames frames duration)
  have hperm : ((distinctFrames frames duration).map (·.tick)).Perm
      ((frames.map (·.tick)).filter (· < duration)).dedup := by
    refine (List.perm_ext_iff_of_nodup (hinc.imp Nat.ne_of_lt) (List.nodup_dedup _)).2
      fun tick => ?_
    rw [List.mem_map, exists_mem_distinctFrames_iff, List.mem_dedup, List.mem_filter, List.mem_map,
      decide_eq_true_eq]
    simp only [← and_assoc, exists_and_right]
  rw [tickCount, ← hperm.length_eq, List.length_map]

/-- A tree over no ticks is empty, and a tree over some is tight. -/
theorem shape_build (frames : List Frame) (duration : Nat) :
    (tickCount frames duration = 0 →
      (build frames duration).rootId? = none ∧ (build frames duration).entries = []) ∧
    (0 < tickCount frames duration →
      (build frames duration).IsTight (tickCount frames duration)) := by
  rw [← length_distinctFrames]
  constructor
  · intro hzero
    have hroot : (build frames duration).root = none := by
      unfold build
      rw [List.eq_nil_of_length_eq_zero hzero, DispatchNode.ofFrames?]
    rw [rootId?, entries, hroot]
    exact ⟨rfl, rfl⟩
  · intro hpos
    obtain ⟨n, hn⟩ := DispatchNode.exists_ofFrames? _ (List.ne_nil_of_length_pos hpos)
    have hroot : (build frames duration).root = some n := hn
    exact isTight_of_root hroot (root_build hroot).1 (DispatchNode.size_of_ofFrames? hn)
      (DispatchNode.depth_of_ofFrames? hn)

/-- Three ticks, of which one has two frames, and a frame after the end. -/
theorem isTight_build_three :
    let frames : List Frame :=
  [{ tick := 5 }, { tick := 0 }, { tick := 5 }, { tick := 12 }, { tick := 9 }]
    tickCount frames 10 = 3 ∧ (build frames 10).IsTight 3 := by
  intro frames
  have hcount : tickCount frames 10 = 3 := by decide
  exact ⟨hcount, hcount ▸ (shape_build frames 10).2 (by rw [hcount]; exact Nat.succ_pos 2)⟩

end DispatchTree

end Marionette
