import Marionette.Proofs.DispatchTree.Order
import Marionette.Proofs.DispatchTree.Ranking

/-!
# Frames that share a tick

Frames of one tick are merged in the order of the list that they come in.

- `Collects`: a list of entries holds a winner for each node of a set of entries, and nothing else.
- `Frame.Gathers`: a frame holds the winners of several frames; `Gathers.merge` adds one.
- `DispatchTree.IsGathered`: while frames are merged, those that are done gather those that have
  been read; so `DispatchTree.gathers_of_mem_distinctFrames`: a tree holds, for each tick, what the
  frames of that tick are merged to.
- `DispatchTree.build_ranked_of_perm`: the order of the list does not matter, where entries that tie
  are the same; otherwise it matters for no more than offset, rotation and scale.
- `DispatchTree.build_swapped_ne`: with different offsets it does matter.
-/

namespace Marionette

namespace Frame

/-! ### Entries -/

/-- A new node comes last; the entry of an old one is replaced in its place or stays. -/
theorem mergeEntry_cases (nodes : List (Uuid × NodeEntry)) (uuid : Uuid) (new : NodeEntry) :
    (uuid ∉ nodes.map (·.1) ∧ mergeEntry nodes (uuid, new) = nodes ++ [(uuid, new)]) ∨
      ∃ before old after, nodes = before ++ (uuid, old) :: after ∧
        mergeEntry nodes (uuid, new) =
          before ++ (uuid, if new.compare old = .gt then new else old) :: after := by
  induction nodes with
  | nil => exact .inl ⟨List.not_mem_nil, rfl⟩
  | cons first rest ih =>
    obtain ⟨own, old⟩ := first
    by_cases hown : own = uuid
    · subst hown
      exact .inr ⟨[], old, rest, rfl, by simp only [mergeEntry, if_pos, List.nil_append]⟩
    · simp only [mergeEntry, if_neg hown]
      rcases ih with ⟨hnew, heq⟩ | ⟨before, old', after, rfl, heq⟩
      · refine .inl ⟨?_, by rw [heq, List.cons_append]⟩
        rw [List.map_cons, List.mem_cons, not_or]
        exact ⟨Ne.symm hown, hnew⟩
      · exact .inr ⟨(own, old) :: before, old', after, rfl, by rw [heq, List.cons_append]⟩

end Frame

/-- A list of entries holds each node once, with the winner among the entries of a set, and no node
of the set is missing. -/
structure Collects (nodes : List (Uuid × NodeEntry)) (S : Uuid → NodeEntry → Prop) : Prop where
  nodup : (nodes.map (·.1)).Nodup
  wins : ∀ n ∈ nodes, SortsLast NodeEntry.compare (S n.1) n.2
  covers : ∀ uuid entry, S uuid entry → uuid ∈ nodes.map (·.1)

namespace Collects

variable {nodes nodes' : List (Uuid × NodeEntry)} {S S' : Uuid → NodeEntry → Prop}

/-- Entries of distinct nodes collect themselves. -/
theorem self (h : (nodes.map (·.1)).Nodup) :
    Collects nodes fun uuid entry => (uuid, entry) ∈ nodes where
  nodup := h
  wins := by
    intro n hn
    refine ⟨hn, fun other hother => ?_⟩
    have hsame : (n.1, other) = n := List.inj_on_of_nodup_map h hother hn rfl
    rw [show other = n.2 from congrArg Prod.snd hsame]
    exact Std.ReflCmp.isLE_rfl
  covers := fun uuid entry h => List.mem_map.2 ⟨_, h, rfl⟩

/-- The set may be described otherwise. -/
theorem congr (h : Collects nodes S) (hS : ∀ uuid entry, S uuid entry ↔ S' uuid entry) :
    Collects nodes S' := by
  have heq : S = S' := funext fun uuid => funext fun entry => propext (hS uuid entry)
  exact heq ▸ h

/-- The order of the entries does not matter. -/
theorem perm (h : Collects nodes S) (hperm : nodes.Perm nodes') : Collects nodes' S where
  nodup := (hperm.map _).nodup_iff.1 h.nodup
  wins := fun n hn => h.wins n (hperm.mem_iff.2 hn)
  covers := fun uuid entry hS => (hperm.map _).mem_iff.1 (h.covers uuid entry hS)

/-- One more entry is collected. -/
theorem mergeEntry (h : Collects nodes S) (uuid : Uuid) (new : NodeEntry) :
    Collects (Frame.mergeEntry nodes (uuid, new)) fun u e => S u e ∨ (u, e) = (uuid, new) := by
  -- at other nodes nothing is added
  have hother : ∀ n ∈ nodes, n.1 ≠ uuid →
      SortsLast NodeEntry.compare (fun e => S n.1 e ∨ (n.1, e) = (uuid, new)) n.2 :=
    fun n hn hne => (h.wins n hn).congr fun e => by
      simp only [Prod.mk.injEq, hne, false_and, or_false]
  rcases Frame.mergeEntry_cases nodes uuid new with ⟨hnew, heq⟩ | ⟨before, old, after, rfl, heq⟩
  · rw [heq]
    refine ⟨?_, ?_, ?_⟩
    · rw [List.map_append, List.nodup_append']
      exact ⟨h.nodup, List.nodup_singleton _, by simpa using hnew⟩
    · intro n hn
      rcases List.mem_append.1 hn with hn | hn
      · exact hother n hn fun hsame => hnew (hsame ▸ List.mem_map_of_mem hn)
      · rw [List.mem_singleton.1 hn]
        have hnone : ∀ e, ¬S uuid e := fun e hS => hnew (h.covers uuid e hS)
        exact SortsLast.single.congr fun e => by
          simp only [Prod.mk.injEq, hnone, true_and, false_or]
    · rintro u e (hS | heq)
      · rw [List.map_append]
        exact List.mem_append_left _ (h.covers u e hS)
      · cases heq
        simp
  · have hkeys : ∀ e, (before ++ (uuid, e) :: after).map (·.1) =
        (before ++ (uuid, old) :: after).map (·.1) := fun e => by simp
    have hnodup := h.nodup
    rw [List.map_append, List.map_cons, List.nodup_middle, List.nodup_cons, ← List.map_append]
      at hnodup
    have hne : ∀ n ∈ before ++ after, n.1 ≠ uuid := by
      rintro n hn rfl
      exact hnodup.1 (List.mem_map.2 ⟨n, hn, rfl⟩)
    rw [heq]
    refine ⟨?_, ?_, ?_⟩
    · rw [hkeys]
      exact h.nodup
    · intro n hn
      rcases List.mem_append.1 hn with hbefore | hrest
      · exact hother n (List.mem_append_left _ hbefore) (hne n (List.mem_append_left _ hbefore))
      · rcases List.mem_cons.1 hrest with rfl | hafter
        · exact ((h.wins (uuid, old) (by simp)).pick new).congr fun e => by
            simp only [Prod.mk.injEq, true_and]
        · exact hother n (by simp [hafter]) (hne n (List.mem_append_right _ hafter))
    · rintro u e (hS | heq)
      · rw [hkeys]
        exact h.covers u e hS
      · cases heq
        simp

/-- Entries of several nodes are collected one after the other. -/
theorem foldl_mergeEntry (h : Collects nodes S) (more : List (Uuid × NodeEntry)) :
    Collects (more.foldl Frame.mergeEntry nodes) fun u e => S u e ∨ (u, e) ∈ more := by
  induction more generalizing nodes S with
  | nil => exact h.congr fun u e => by simp
  | cons first rest ih =>
    refine (ih (h.mergeEntry first.1 first.2)).congr fun u e => ?_
    rw [or_assoc, List.mem_cons]

/-- What two lists collect from one set is the same to a view that takes ties for equal. -/
theorem mem_map_of {view : NodeEntry → NodeEntry} (h : Collects nodes S) (h' : Collects nodes' S)
    (hview : ∀ u a b, S u a → S u b → a.compare b = .eq → view a = view b)
    {n : Uuid × NodeEntry} (hn : n ∈ nodes.map fun n => (n.1, view n.2)) :
    n ∈ nodes'.map fun n => (n.1, view n.2) := by
  obtain ⟨m, hm, rfl⟩ := List.mem_map.1 hn
  have hwin := h.wins m hm
  obtain ⟨m', hm', hsame⟩ := List.mem_map.1 (h'.covers m.1 m.2 hwin.mem)
  have hwin' := h'.wins m' hm'
  rw [hsame] at hwin'
  refine List.mem_map.2 ⟨m', hm', Prod.ext hsame ?_⟩
  exact hview m.1 m'.2 m.2 hwin'.mem hwin.mem (hwin'.compare_eq hwin)

end Collects

/-! ### Frames -/

/-- The order in which nodes come in a merged frame. -/
def NodeBefore (x y : Uuid × NodeEntry) : Prop := x.1.bits.toNat < y.1.bits.toNat

instance : Std.Irrefl NodeBefore := ⟨fun _ => Nat.lt_irrefl _⟩

instance : Std.Antisymm NodeBefore := ⟨fun _ _ hab hba => absurd hba (Nat.lt_asymm hab)⟩

/-- The order in which frames come in a tree. -/
def TickBefore (f g : Frame) : Prop := f.tick < g.tick

instance : Std.Irrefl TickBefore := ⟨fun _ => Nat.lt_irrefl _⟩

instance : Std.Antisymm TickBefore := ⟨fun _ _ hab hba => absurd hba (Nat.lt_asymm hab)⟩

/-- Entries of distinct nodes can be sorted in one way only. -/
theorem pairwise_nodeBefore_mergeSort {nodes : List (Uuid × NodeEntry)}
    (h : (nodes.map (·.1)).Nodup) :
    (nodes.mergeSort fun x y => x.1.bits.toNat ≤ y.1.bits.toNat).Pairwise NodeBefore := by
  have hle := @List.pairwise_mergeSort _
    (fun x y : Uuid × NodeEntry => decide (x.1.bits.toNat ≤ y.1.bits.toNat))
    (fun a b c hab hbc => by
      simp only [decide_eq_true_eq] at *
      exact Nat.le_trans hab hbc)
    (fun a b => by
      simp only [Bool.or_eq_true, decide_eq_true_eq]
      exact Nat.le_total _ _) nodes
  have hne := ((List.mergeSort_perm nodes
    (fun x y => decide (x.1.bits.toNat ≤ y.1.bits.toNat))).map (·.1)).nodup_iff.2 h
  refine (hle.and (List.pairwise_map.1 hne)).imp fun hboth => ?_
  refine Nat.lt_of_le_of_ne (by simpa using hboth.1) fun hsame => hboth.2 ?_
  exact congrArg Uuid.mk (BitVec.eq_of_toNat_eq hsame)

namespace Frame

/-- Looks at every entry of a frame through a view. -/
def mapEntries (view : NodeEntry → NodeEntry) (f : Frame) : Frame :=
  { f with nodes := f.nodes.map fun n => (n.1, view n.2) }

@[simp] theorem tick_mapEntries (view : NodeEntry → NodeEntry) (f : Frame) :
    (f.mapEntries view).tick = f.tick := rfl

@[simp] theorem tick_merge (f g : Frame) : (f.merge g).tick = f.tick := rfl

@[simp] theorem mapEntries_id (f : Frame) : f.mapEntries id = f := by
  unfold mapEntries
  simp only [id_eq, List.map_id']

/-- A frame is what some frames of its tick are merged to: of a single frame all, and of several the
winners, in the order of the nodes. -/
structure Gathers (f : Frame) (fs : List Frame) : Prop where
  tick : ∀ g ∈ fs, g.tick = f.tick
  nodes : Collects f.nodes fun uuid entry => ∃ g ∈ fs, (uuid, entry) ∈ g.nodes
  shape : fs = [f] ∨ 1 < fs.length ∧ f.nodes.Pairwise NodeBefore
  variant : SortsLast compare (fun v => ∃ g ∈ fs, v = g.variant) f.variant
  commands : SortsLast compare (fun c => ∃ g ∈ fs, c = g.commands) f.commands

/-- In frames of one tick, a view shows the same of entries of one node that tie. -/
def TiesAgree (view : NodeEntry → NodeEntry) (frames : List Frame) : Prop :=
  ∀ f ∈ frames, ∀ g ∈ frames, f.tick = g.tick → ∀ uuid a b, (uuid, a) ∈ f.nodes →
    (uuid, b) ∈ g.nodes → a.compare b = .eq → view a = view b

namespace Gathers

variable {f f' g : Frame} {fs fs' : List Frame} {view : NodeEntry → NodeEntry}

/-- A frame gathers itself. -/
theorem single (h : (f.nodes.map (·.1)).Nodup) : f.Gathers [f] where
  tick := by simp
  nodes := (Collects.self h).congr fun u e => by simp
  shape := .inl rfl
  variant := SortsLast.single.congr fun v => by simp
  commands := SortsLast.single.congr fun c => by simp

/-- What is gathered is at least one frame. -/
theorem length_pos (h : f.Gathers fs) : 0 < fs.length := by
  obtain ⟨g, hg, -⟩ := h.variant.mem
  exact List.length_pos_of_mem hg

/-- One more frame of the tick is gathered. -/
theorem merge (h : f.Gathers fs) (ht : f.tick = g.tick) : (f.merge g).Gathers (fs ++ [g]) where
  tick := by
    intro k hk
    rcases List.mem_append.1 hk with hk | hk
    · exact h.tick k hk
    · rw [List.mem_singleton.1 hk]
      exact ht.symm
  nodes := by
    refine ((h.nodes.foldl_mergeEntry g.nodes).perm (List.mergeSort_perm _ _).symm).congr
      fun u e => ?_
    simp only [List.mem_append, List.mem_singleton, or_and_right, exists_or, exists_eq_left]
  shape := by
    refine .inr ⟨?_, pairwise_nodeBefore_mergeSort (h.nodes.foldl_mergeEntry g.nodes).nodup⟩
    have := h.length_pos
    rw [List.length_append, List.length_singleton]
    omega
  variant := (h.variant.later g.variant).congr fun v => by
    simp only [List.mem_append, List.mem_singleton, or_and_right, exists_or, exists_eq_left]
  commands := (h.commands.later g.commands).congr fun c => by
    simp only [List.mem_append, List.mem_singleton, or_and_right, exists_or, exists_eq_left]

/-- The nodes of several frames come in one order, whichever frame came first. -/
theorem pairwise_nodes (h : f.Gathers fs) (hlen : 1 < fs.length) : f.nodes.Pairwise NodeBefore := by
  rcases h.shape with rfl | ⟨-, hnodes⟩
  · exact absurd hlen (by simp)
  · exact hnodes

/-- The order in which frames are gathered does not matter to a view that shows the same of ties. -/
theorem mapEntries_eq (h : f.Gathers fs) (h' : f'.Gathers fs') (hperm : fs.Perm fs')
    (hview : TiesAgree view fs) : f.mapEntries view = f'.mapEntries view := by
  have hmem : ∀ k, k ∈ fs' ↔ k ∈ fs := fun k => hperm.symm.mem_iff
  rcases Nat.lt_or_ge 1 fs.length with hlen | hlen
  · have hvariant : f.variant = f'.variant := Std.LawfulEqOrd.eq_of_compare
      (h.variant.compare_eq (h'.variant.congr fun v => by simp only [hmem]))
    have hcommands : f.commands = f'.commands := Std.LawfulEqOrd.eq_of_compare
      (h.commands.compare_eq (h'.commands.congr fun c => by simp only [hmem]))
    have htick : f.tick = f'.tick := by
      obtain ⟨k, hk, -⟩ := h.variant.mem
      rw [← h.tick k hk, h'.tick k ((hmem k).2 hk)]
    have hnodes' : Collects f'.nodes fun uuid entry => ∃ k ∈ fs, (uuid, entry) ∈ k.nodes :=
      h'.nodes.congr fun u e => by simp only [hmem]
    have hties : ∀ u a b, (∃ k ∈ fs, (u, a) ∈ k.nodes) → (∃ k ∈ fs, (u, b) ∈ k.nodes) →
        a.compare b = .eq → view a = view b := by
      rintro u a b ⟨k, hk, ha⟩ ⟨k', hk', hb⟩
      exact hview k hk k' hk' ((h.tick k hk).trans (h.tick k' hk').symm) u a b ha hb
    -- both lists are in the order of the nodes and show the same
    have hnodes : f.nodes.map (fun n => (n.1, view n.2)) = f'.nodes.map fun n => (n.1, view n.2) :=
      List.Pairwise.eq_of_mem_iff (r := NodeBefore) (List.pairwise_map.2 (h.pairwise_nodes hlen))
        (List.pairwise_map.2 (h'.pairwise_nodes (hperm.length_eq ▸ hlen)))
        fun n => ⟨h.nodes.mem_map_of hnodes' hties, hnodes'.mem_map_of h.nodes hties⟩
    unfold mapEntries
    rw [hnodes, hvariant, hcommands, htick]
  · -- a single frame is itself
    obtain ⟨k, rfl⟩ := List.length_eq_one_iff.1 (Nat.le_antisymm hlen h.length_pos)
    rw [List.perm_singleton.1 hperm.symm] at h'
    have hself : ∀ {g : Frame}, g.Gathers [k] → g = k := by
      intro g hg
      rcases hg.shape with heq | ⟨hlt, -⟩
      · exact (List.cons.inj heq).1.symm
      · exact absurd hlt (by simp)
    rw [hself h, hself h']

end Gathers

end Frame

/-! ### Trees -/

namespace DispatchNode

/-- Looks at every entry below a node through a view. -/
def mapEntries (view : NodeEntry → NodeEntry) : DispatchNode → DispatchNode
  | leaf frame => leaf (frame.mapEntries view)
  | branch lo hi left right => branch lo hi (left.mapEntries view) (right.mapEntries view)

variable (view : NodeEntry → NodeEntry)

/-- A view leaves the ranges as they are. -/
theorem lo_mapEntries (n : DispatchNode) : (n.mapEntries view).lo = n.lo := by
  cases n <;> rfl

/-- And so it leaves their ends. -/
theorem hi_mapEntries (n : DispatchNode) : (n.mapEntries view).hi = n.hi := by
  cases n <;> rfl

theorem mapEntries_id (n : DispatchNode) : n.mapEntries id = n := by
  induction n with
  | leaf frame => rw [mapEntries, Frame.mapEntries_id]
  | branch lo hi left right ihl ihr => rw [mapEntries, ihl, ihr]

/-- A tree over frames that are looked at through a view is the tree, looked at. -/
theorem ofFrames?_map {fs : List Frame} {n : DispatchNode} (h : ofFrames? fs = some n) :
    ofFrames? (fs.map (Frame.mapEntries view)) = some (n.mapEntries view) := by
  refine ofFrames?_rec (P := fun fs n =>
    ofFrames? (fs.map (Frame.mapEntries view)) = some (n.mapEntries view)) ?_ ?_ h
  · intro f
    rw [List.map_singleton, ofFrames?]
    rfl
  · intro fs left right hlen hl hr
    have hlen' : 2 ≤ (fs.map (Frame.mapEntries view)).length := by rwa [List.length_map]
    obtain ⟨left', right', hl', hr', hsplit⟩ := ofFrames?_split hlen'
    rw [List.length_map, ← List.map_take, hl] at hl'
    rw [List.length_map, ← List.map_drop, hr] at hr'
    cases hl'
    cases hr'
    rw [hsplit, lo_mapEntries, hi_mapEntries, mapEntries]

end DispatchNode

namespace DispatchTree

/-- Looks at every entry of a tree through a view. -/
def mapEntries (view : NodeEntry → NodeEntry) (t : DispatchTree) : DispatchTree :=
  ⟨t.root.map (DispatchNode.mapEntries view), t.duration⟩

/-- Through the view that changes nothing a tree is itself. -/
theorem mapEntries_id (t : DispatchTree) : t.mapEntries id = t := by
  obtain ⟨_ | n, duration⟩ := t
  · rfl
  · simp only [mapEntries, Option.map_some, DispatchNode.mapEntries_id]

variable {frames frames' : List Frame} {duration : Nat} {view : NodeEntry → NodeEntry}

/-- The frames of a tick. -/
def framesAt (tick : Nat) (frames : List Frame) : List Frame :=
  frames.filter (·.tick = tick)

/-- A frame of the tick comes after those that are there. -/
theorem framesAt_concat_self {fs : List Frame} {f : Frame} {tick : Nat} (h : f.tick = tick) :
    framesAt tick (fs ++ [f]) = framesAt tick fs ++ [f] := by
  simp [framesAt, h]

/-- Another frame does not. -/
theorem framesAt_concat_other {fs : List Frame} {f : Frame} {tick : Nat} (h : f.tick ≠ tick) :
    framesAt tick (fs ++ [f]) = framesAt tick fs := by
  simp [framesAt, h]

/-- The frames that are done gather those that have been read. -/
structure IsGathered (pool done : List Frame) : Prop where
  ticks : ∀ g ∈ pool, ∃ a ∈ done, a.tick = g.tick
  gathers : ∀ a ∈ done, a.Gathers (framesAt a.tick pool)

namespace IsGathered

variable {pool done : List Frame} {last frame : Frame}

/-- A frame that is merged into the last one is gathered by it, and not by those before it. -/
theorem merge (h : IsGathered pool (last :: done)) (hdone : Increasing (last :: done).reverse)
    (heq : last.tick = frame.tick) :
    IsGathered (pool ++ [frame]) (last.merge frame :: done) where
  ticks := by
    intro g hg
    rcases List.mem_append.1 hg with hg | hg
    · obtain ⟨a, ha, htick⟩ := h.ticks g hg
      rcases List.mem_cons.1 ha with rfl | ha
      · exact ⟨_, List.mem_cons_self, htick⟩
      · exact ⟨a, List.mem_cons_of_mem _ ha, htick⟩
    · rw [List.mem_singleton.1 hg]
      exact ⟨_, List.mem_cons_self, heq⟩
  gathers := by
    intro a ha
    rcases List.mem_cons.1 ha with rfl | ha
    · rw [Frame.tick_merge, framesAt_concat_self heq.symm]
      exact (h.gathers last List.mem_cons_self).merge heq
    · have hbefore := (increasing_reverse_cons.1 hdone).2 a ha
      rw [framesAt_concat_other (by omega)]
      exact h.gathers a (List.mem_cons_of_mem _ ha)

/-- A frame that is behind all that are done is the only one of its tick. -/
theorem push (h : IsGathered pool done) (hlt : ∀ a ∈ done, a.tick < frame.tick)
    (hnodes : (frame.nodes.map (·.1)).Nodup) : IsGathered (pool ++ [frame]) (frame :: done) where
  ticks := by
    intro g hg
    rcases List.mem_append.1 hg with hg | hg
    · obtain ⟨a, ha, htick⟩ := h.ticks g hg
      exact ⟨a, List.mem_cons_of_mem _ ha, htick⟩
    · rw [List.mem_singleton.1 hg]
      exact ⟨_, List.mem_cons_self, rfl⟩
  gathers := by
    intro a ha
    rcases List.mem_cons.1 ha with rfl | ha
    · -- no frame that has been read is of the new tick
      have hnone : framesAt a.tick pool = [] := by
        rw [framesAt, List.filter_eq_nil_iff]
        intro g hg
        obtain ⟨b, hb, htick⟩ := h.ticks g hg
        have := hlt b hb
        simp only [decide_eq_true_eq]
        omega
      rw [framesAt_concat_self rfl, hnone]
      exact .single hnodes
    · have := hlt a ha
      rw [framesAt_concat_other (by omega)]
      exact h.gathers a ha

end IsGathered

/-- What is merged at the end gathers all frames of its tick. -/
theorem gathers_of_mem_mergeTicks {pool done rest : List Frame} {f : Frame}
    (hnodes : ∀ g ∈ rest, (g.nodes.map (·.1)).Nodup) (hmerging : IsMerging done rest)
    (hgathered : IsGathered pool done) (hf : f ∈ mergeTicks done rest) :
    f.Gathers (framesAt f.tick (pool ++ rest)) := by
  -- along the merge: what is done gathers the pool of the frames that have been read
  fun_induction mergeTicks done rest generalizing pool with
  | case1 done =>
    rw [List.append_nil]
    exact hgathered.gathers f (List.mem_reverse.1 hf)
  | case2 last done frame rest heq ih =>
    obtain ⟨-, hnodes⟩ := List.forall_mem_cons.1 hnodes
    rw [List.append_cons]
    exact ih hnodes hmerging.merge (hgathered.merge hmerging.increasing heq) hf
  | case3 last done frame rest hne ih =>
    obtain ⟨hframe, hnodes⟩ := List.forall_mem_cons.1 hnodes
    have hlt := hmerging.lt hne
    rw [List.append_cons]
    exact ih hnodes (hmerging.push hlt) (hgathered.push hlt hframe) hf
  | case4 frame rest ih =>
    obtain ⟨hframe, hnodes⟩ := List.forall_mem_cons.1 hnodes
    have hlt : ∀ a ∈ ([] : List Frame), a.tick < frame.tick := List.forall_mem_nil _
    rw [List.append_cons]
    exact ih hnodes (hmerging.push hlt) (hgathered.push hlt hframe) hf

/-- A tree holds, for each tick, what the frames of that tick are merged to. -/
theorem gathers_of_mem_distinctFrames {f : Frame}
    (hnodes : ∀ g ∈ frames, (g.nodes.map (·.1)).Nodup) (hf : f ∈ distinctFrames frames duration) :
    f.Gathers (framesAt f.tick (sortedFrames frames duration)) :=
  gathers_of_mem_mergeTicks (fun g hg => hnodes g (mem_sortedFrames.1 hg).1)
    (isMerging_sortedFrames frames duration) ⟨List.forall_mem_nil _, List.forall_mem_nil _⟩ hf

/-- Every tick of a frame keeps a frame. -/
theorem exists_mem_mergeTicks {done rest : List Frame} {g : Frame} (hg : g ∈ done ∨ g ∈ rest) :
    ∃ f ∈ mergeTicks done rest, f.tick = g.tick := by
  fun_induction mergeTicks done rest generalizing g with
  | case1 done =>
    -- no frames are left: what was done is returned in order
    rcases hg with hg | hg
    · exact ⟨g, List.mem_reverse.2 hg, rfl⟩
    · cases hg
  | case2 last done frame rest heq ih =>
    -- the next frame has the tick of the last one, and is merged into it
    rcases hg with hg | hg
    · rcases List.mem_cons.1 hg with rfl | hg
      · obtain ⟨f, hf, htick⟩ := ih (.inl List.mem_cons_self)
        exact ⟨f, hf, htick⟩
      · exact ih (.inl (List.mem_cons_of_mem _ hg))
    · rcases List.mem_cons.1 hg with rfl | hg
      · obtain ⟨f, hf, htick⟩ := ih (.inl List.mem_cons_self)
        exact ⟨f, hf, htick.trans heq⟩
      · exact ih (.inr hg)
  | case3 last done frame rest hne ih =>
    -- it has another tick, and becomes the last one
    rcases hg with hg | hg
    · exact ih (.inl (List.mem_cons_of_mem _ hg))
    · rcases List.mem_cons.1 hg with rfl | hg
      · exact ih (.inl List.mem_cons_self)
      · exact ih (.inr hg)
  | case4 frame rest ih =>
    -- it is the first frame
    rcases hg with hg | hg
    · cases hg
    · rcases List.mem_cons.1 hg with rfl | hg
      · exact ih (.inl List.mem_cons_self)
      · exact ih (.inr hg)

/-- A frame of one order of the list is found in the other. -/
theorem mem_map_distinctFrames (hperm : frames.Perm frames')
    (hnodes : ∀ f ∈ frames, (f.nodes.map (·.1)).Nodup) (hview : Frame.TiesAgree view frames)
    {f : Frame} (hf : f ∈ (distinctFrames frames duration).map (Frame.mapEntries view)) :
    f ∈ (distinctFrames frames' duration).map (Frame.mapEntries view) := by
  obtain ⟨g, hg, rfl⟩ := List.mem_map.1 hf
  have hsorted : (sortedFrames frames duration).Perm (sortedFrames frames' duration) :=
    (List.mergeSort_perm _ _).trans ((hperm.filter _).trans (List.mergeSort_perm _ _).symm)
  have hgathers := gathers_of_mem_distinctFrames hnodes hg
  -- the other list has a frame of the tick, too
  obtain ⟨k, hk, -⟩ := hgathers.variant.mem
  obtain ⟨hk, htick⟩ := List.mem_filter.1 hk
  obtain ⟨g', hg', htick'⟩ : ∃ g' ∈ distinctFrames frames' duration, g'.tick = k.tick :=
    exists_mem_mergeTicks (.inr (hsorted.mem_iff.1 hk))
  have hgathers' := gathers_of_mem_distinctFrames
    (fun f hf => hnodes f (hperm.mem_iff.2 hf)) hg'
  have hsame : g'.tick = g.tick := htick'.trans (of_decide_eq_true htick)
  rw [hsame] at hgathers'
  refine List.mem_map.2 ⟨g', hg', (hgathers.mapEntries_eq hgathers' (hsorted.filter _) ?_).symm⟩
  intro a ha b hb
  exact hview a (mem_sortedFrames.1 (List.mem_of_mem_filter ha)).1 b
    (mem_sortedFrames.1 (List.mem_of_mem_filter hb)).1

/-- The order of the frames does not matter to a view that shows the same of ties. -/
theorem mapEntries_build_of_perm (hperm : frames.Perm frames')
    (hnodes : ∀ f ∈ frames, (f.nodes.map (·.1)).Nodup) (hview : Frame.TiesAgree view frames)
    (duration : Nat) :
    (build frames duration).mapEntries view = (build frames' duration).mapEntries view := by
  -- what is assumed of one list of frames holds of the other one
  have hnodes' : ∀ f ∈ frames', (f.nodes.map (·.1)).Nodup := fun f hf =>
    hnodes f (hperm.mem_iff.2 hf)
  have hview' : Frame.TiesAgree view frames' := fun a ha b hb =>
    hview a (hperm.mem_iff.2 ha) b (hperm.mem_iff.2 hb)
  -- so each list of distinct frames is the other one, as both are sorted
  have hframes : (distinctFrames frames duration).map (Frame.mapEntries view) =
      (distinctFrames frames' duration).map (Frame.mapEntries view) :=
    List.Pairwise.eq_of_mem_iff (r := TickBefore)
      (List.pairwise_map.2 (increasing_distinctFrames frames duration))
      (List.pairwise_map.2 (increasing_distinctFrames frames' duration))
      fun f => ⟨mem_map_distinctFrames hperm hnodes hview,
        mem_map_distinctFrames hperm.symm hnodes' hview'⟩
  -- the view can be taken before the tree is built
  have hroot : ∀ fs, (DispatchNode.ofFrames? fs).map (DispatchNode.mapEntries view) =
      DispatchNode.ofFrames? (fs.map (Frame.mapEntries view)) := by
    intro fs
    cases fs with
    | nil =>
      rw [List.map_nil, DispatchNode.ofFrames?]
      rfl
    | cons first rest =>
      obtain ⟨n, hn⟩ := DispatchNode.exists_ofFrames? (first :: rest) (List.cons_ne_nil _ _)
      rw [DispatchNode.ofFrames?_map view hn, hn]
      rfl
  unfold mapEntries build
  rw [hroot, hroot, hframes]

/-- However the frames are ordered, the trees agree in all but offset, rotation and scale; and where
entries that tie are the same, the trees are the same. -/
theorem build_ranked_of_perm (hperm : frames.Perm frames')
    (hnodes : ∀ f ∈ frames, (f.nodes.map (·.1)).Nodup) (duration : Nat) :
    (build frames duration).mapEntries NodeEntry.ranked =
        (build frames' duration).mapEntries NodeEntry.ranked ∧
      (Frame.TiesAgree id frames → build frames duration = build frames' duration) := by
  constructor
  · refine mapEntries_build_of_perm hperm hnodes ?_ duration
    intro f _ g _ _ uuid a b _ _ htie
    exact NodeEntry.compare_eq_iff.1 htie
  · intro hties
    have h := mapEntries_build_of_perm hperm hnodes hties duration
    rwa [mapEntries_id, mapEntries_id] at h

/-- A frame in which the root says something, and a node is shown that is not moved. -/
def sayingFrame (line : String) : Frame where
  tick := 3
  nodes := [(⟨0⟩, ⟨Pose.one, none⟩)]
  commands := some ⟨[line], none⟩

/-- Three frames of one tick with the same entry give one tree in both directions. -/
theorem build_saying_reversed :
    Frame.TiesAgree id [sayingFrame "say a", sayingFrame "say c", sayingFrame "say b"] ∧
      build [sayingFrame "say a", sayingFrame "say c", sayingFrame "say b"] 4 =
        build [sayingFrame "say b", sayingFrame "say c", sayingFrame "say a"] 4 := by
  have hties :
      Frame.TiesAgree id [sayingFrame "say a", sayingFrame "say c", sayingFrame "say b"] := by
    simp only [Frame.TiesAgree, sayingFrame, List.mem_cons, List.not_mem_nil, or_false]
    rintro f (rfl | rfl | rfl) g (rfl | rfl | rfl) - uuid a b ha hb - <;>
      exact (Prod.mk.inj (List.mem_singleton.1 ha)).2.trans
        (Prod.mk.inj (List.mem_singleton.1 hb)).2.symm
  exact ⟨hties, (build_ranked_of_perm (List.reverse_perm _).symm (by simp [sayingFrame]) 4).2 hties⟩

/-- A frame that shows a node with an offset, and with the matrix of a node that is not moved. -/
def shiftedFrame (offset : Vec3) : Frame where
  tick := 0
  nodes := [(⟨0⟩, ⟨{ Pose.one with offset := offset }, none⟩)]

/-- Of two entries that tie, the first stays. -/
theorem frames_build_shifted (a b : Vec3) :
    (build [shiftedFrame a, shiftedFrame b] 1).frames = [shiftedFrame a] := by
  have htie : ∀ x y : Vec3, NodeEntry.compare ⟨{ Pose.one with offset := x }, none⟩
      ⟨{ Pose.one with offset := y }, none⟩ = .eq := fun x y => NodeEntry.compare_eq_iff.2 rfl
  rw [frames_build]
  simp [distinctFrames, List.mergeSort, mergeTicks, shiftedFrame, Frame.merge, Frame.mergeEntry,
    Frame.later, htie]

/-- With the same two frames in another order, the tree has another offset. -/
theorem build_swapped_ne :
    [shiftedFrame .zero, shiftedFrame .one].Perm [shiftedFrame .one, shiftedFrame .zero] ∧
      build [shiftedFrame .zero, shiftedFrame .one] 1 ≠
        build [shiftedFrame .one, shiftedFrame .zero] 1 := by
  refine ⟨.swap _ _ _, fun h => ?_⟩
  have hframes := congrArg frames h
  rw [frames_build_shifted, frames_build_shifted] at hframes
  have hoffset : Vec3.zero = Vec3.one := by simpa [shiftedFrame] using hframes
  exact absurd (congrArg Vec3.x hoffset) (by decide)

end DispatchTree

end Marionette
