import Mathlib.Data.List.Perm.Basic
import Mathlib.Logic.Relation
import Marionette.Proofs.Rig

/-!
# Hierarchies of nodes

The nodes of a rig name their parents, and a visit with an agenda brings them into an order.  Here
the order is read off the hierarchy itself.

- `Rig.HangsOn`: a node names another one as its parent; `Rig.IsRooted`: following parents leads to
  a node without one.
- `Rig.DepthFirst`: each node is followed by what hangs on it, in the order of the author; there is
  one such order (`DepthFirst.unique`).
- `Visiting.depthFirst_preorder`: the visit goes through the nodes in this order and does not stop
  early.
- `mem_ordered_iff`: it reaches exactly the nodes that are rooted.
- `exists_before_of_ordered`: it comes to a parent before the children.
-/

namespace Marionette

namespace Rig

variable {nodes siblings order order' : List RigNode} {n m : RigNode}

/-! ### Following parents -/

/-- A node names another one as its parent. -/
def HangsOn (nodes : List RigNode) (n m : RigNode) : Prop :=
  m ∈ nodes ∧ n.parent = some m.uuid

/-- A node has one parent. -/
theorem HangsOn.unique (hnodes : (nodes.map (·.uuid)).Nodup) {up up' : RigNode}
    (h : HangsOn nodes n up) (h' : HangsOn nodes n up') : up = up' :=
  List.inj_on_of_nodup_map hnodes h.1 h'.1 (Option.some.inj (h.2.symm.trans h'.2))

/-- Following parents from a node leads to a node without one. -/
def IsRooted (nodes : List RigNode) (n : RigNode) : Prop :=
  ∃ root, Relation.ReflTransGen (HangsOn nodes) n root ∧ root.parent = none

theorem IsRooted.of_parent_eq_none (h : n.parent = none) : IsRooted nodes n :=
  ⟨n, .refl, h⟩

theorem IsRooted.of_hangsOn (hm : IsRooted nodes m) (h : HangsOn nodes n m) : IsRooted nodes n := by
  obtain ⟨root, hpath, hroot⟩ := hm
  exact ⟨root, .head h hpath, hroot⟩

/-! ### Orders depth first -/

/-- The order of nodes that stand side by side: each of them, followed by the order of what hangs on
it, before the next. -/
inductive DepthFirst (nodes : List RigNode) : List RigNode → List RigNode → Prop
  | nil : DepthFirst nodes [] []
  | cons {n : RigNode} {siblings below after : List RigNode} :
      DepthFirst nodes (childrenOf nodes n.uuid) below → DepthFirst nodes siblings after →
      DepthFirst nodes (n :: siblings) (n :: (below ++ after))

namespace DepthFirst

theorem unique (h : DepthFirst nodes siblings order) (h' : DepthFirst nodes siblings order') :
    order = order' := by
  induction h generalizing order' with
  | nil =>
    cases h'
    rfl
  | cons _ _ ihBelow ihAfter =>
    cases h' with
    | cons hbelow hafter => rw [ihBelow hbelow, ihAfter hafter]

/-- The order of some nodes and further ones is the order of the first, then the order of the
others. -/
theorem exists_of_append {others : List RigNode} (h : DepthFirst nodes (siblings ++ others) order) :
    ∃ first later, order = first ++ later ∧ DepthFirst nodes siblings first ∧
      DepthFirst nodes others later := by
  induction siblings generalizing order with
  | nil => exact ⟨[], order, rfl, .nil, h⟩
  | cons n siblings ih =>
    cases h with
    | cons hbelow hafter =>
      obtain ⟨first, later, rfl, hfirst, hlater⟩ := ih hafter
      exact ⟨_, later, by rw [List.cons_append, List.append_assoc], .cons hbelow hfirst, hlater⟩

theorem mem (h : DepthFirst nodes siblings order) : ∀ n ∈ siblings, n ∈ order := by
  induction h with
  | nil => exact fun n hn => hn
  | cons _ _ _ ihAfter =>
    refine List.forall_mem_cons.2 ⟨List.mem_cons_self, fun m hm => ?_⟩
    exact List.mem_cons_of_mem _ (List.mem_append_right _ (ihAfter m hm))

/-- What hangs on a node of the order is in the order. -/
theorem mem_of_hangsOn (h : DepthFirst nodes siblings order) :
    ∀ m ∈ order, ∀ n ∈ nodes, n.parent = some m.uuid → n ∈ order := by
  induction h with
  | nil => exact fun m hm => nomatch hm
  | cons hbelow _ ihBelow ihAfter =>
    intro m hm n hn hparent
    refine List.mem_cons_of_mem _ (List.mem_append.2 ?_)
    rcases List.mem_cons.1 hm with rfl | hm
    · exact .inl (hbelow.mem n (mem_childrenOf.2 ⟨hn, hparent⟩))
    · rcases List.mem_append.1 hm with hm | hm
      · exact .inl (ihBelow m hm n hn hparent)
      · exact .inr (ihAfter m hm n hn hparent)

/-- What hangs on rooted nodes is rooted. -/
theorem isRooted (h : DepthFirst nodes siblings order)
    (hsiblings : ∀ n ∈ siblings, n ∈ nodes ∧ IsRooted nodes n) : ∀ n ∈ order, IsRooted nodes n := by
  induction h with
  | nil => exact fun n hn => nomatch hn
  | cons _ _ ihBelow ihAfter =>
    obtain ⟨⟨hnodes, hrooted⟩, hothers⟩ := List.forall_mem_cons.1 hsiblings
    refine List.forall_mem_cons.2 ⟨hrooted, List.forall_mem_append.2 ⟨?_, ihAfter hothers⟩⟩
    refine ihBelow fun m hm => ?_
    obtain ⟨hm, hparent⟩ := mem_childrenOf.1 hm
    exact ⟨hm, hrooted.of_hangsOn ⟨hnodes, hparent⟩⟩

end DepthFirst

/-! ### The visit -/

section Visit

variable {fuel : Nat} {visited : List Uuid} {agenda : List RigNode}

/-- With every node that is visited there is one less to visit. -/
theorem length_unvisited_lt (hn : n ∈ nodes) (hnew : n.uuid ∉ visited) :
    (nodes.filter fun m => m.uuid ∉ n.uuid :: visited).length <
      (nodes.filter fun m => m.uuid ∉ visited).length := by
  have hsplit : (nodes.filter fun m => m.uuid ∉ n.uuid :: visited) =
      (nodes.filter fun m => m.uuid ∉ visited).filter fun m => m.uuid ≠ n.uuid := by
    rw [List.filter_filter]
    refine List.filter_congr fun m _ => ?_
    simp
  rw [hsplit, List.length_filter_lt_length_iff_exists]
  exact ⟨n, List.mem_filter.2 ⟨hn, decide_eq_true hnew⟩, by simp⟩

/-- The visit goes through the agenda depth first if it may go on for as long as there are nodes
that have not been visited. -/
theorem Visiting.depthFirst_preorder (hnodes : (nodes.map (·.uuid)).Nodup)
    (h : Visiting nodes visited agenda)
    (hfuel : (nodes.filter fun m => m.uuid ∉ visited).length ≤ fuel) :
    DepthFirst nodes agenda (preorder nodes fuel agenda) := by
  induction fuel generalizing visited agenda with
  | zero =>
    cases agenda with
    | nil => exact .nil
    | cons n agenda =>
      -- what is on the agenda has not been visited
      have hn : n ∈ nodes.filter fun m => m.uuid ∉ visited :=
        List.mem_filter.2 ⟨h.mem n List.mem_cons_self,
          decide_eq_true (h.fresh n List.mem_cons_self)⟩
      rw [List.length_eq_zero_iff.1 (Nat.le_zero.1 hfuel)] at hn
      cases hn
  | succ fuel ih =>
    cases agenda with
    | nil => exact .nil
    | cons n agenda =>
      have hless := length_unvisited_lt (h.mem n List.mem_cons_self) (h.fresh n List.mem_cons_self)
      obtain ⟨below, after, heq, hbelow, hafter⟩ :=
        (ih (h.step hnodes) (by omega)).exists_of_append
      rw [preorder, heq]
      exact .cons hbelow hafter

/-- The visit comes to a node after its parent. -/
theorem Visiting.exists_before (hnodes : (nodes.map (·.uuid)).Nodup)
    (h : Visiting nodes visited agenda) {before after : List RigNode}
    (horder : preorder nodes fuel agenda = before ++ n :: after) {uuid : Uuid}
    (hparent : n.parent = some uuid) : uuid ∈ visited ∨ ∃ m ∈ before, m.uuid = uuid := by
  induction fuel generalizing visited agenda before with
  | zero => cases List.append_ne_nil_of_right_ne_nil before (List.cons_ne_nil n after) horder.symm
  | succ fuel ih =>
    cases agenda with
    | nil => cases List.append_ne_nil_of_right_ne_nil before (List.cons_ne_nil n after) horder.symm
    | cons first agenda =>
      rw [preorder] at horder
      cases before with
      | nil =>
        obtain ⟨rfl, -⟩ := List.cons.inj horder
        exact .inl (h.parent first (h.mem first List.mem_cons_self) (.inr List.mem_cons_self) uuid
          hparent)
      | cons head before =>
        obtain ⟨rfl, hrest⟩ := List.cons.inj horder
        rcases ih (h.step hnodes) hrest with hvisited | ⟨m, hm, huuid⟩
        · rcases List.mem_cons.1 hvisited with rfl | hvisited
          · exact .inr ⟨first, List.mem_cons_self, rfl⟩
          · exact .inl hvisited
        · exact .inr ⟨m, List.mem_cons_of_mem _ hm, huuid⟩

/-- Nodes are brought into the order depth first, beginning with those that hang on nothing. -/
theorem depthFirst_ordered (hnodes : (nodes.map (·.uuid)).Nodup) :
    DepthFirst nodes (nodes.filter (·.parent.isNone)) (ordered nodes) :=
  (visiting_start hnodes).depthFirst_preorder hnodes (List.length_filter_le _ _)

/-- A parent comes before its children. -/
theorem exists_before_of_ordered (hnodes : (nodes.map (·.uuid)).Nodup) {before after : List RigNode}
    (horder : ordered nodes = before ++ n :: after) {uuid : Uuid} (hparent : n.parent = some uuid) :
    ∃ m ∈ before, m.uuid = uuid :=
  ((visiting_start hnodes).exists_before hnodes horder hparent).resolve_left List.not_mem_nil

/-- Exactly the nodes that are rooted are reached. -/
theorem mem_ordered_iff (hnodes : (nodes.map (·.uuid)).Nodup) (hn : n ∈ nodes) :
    n ∈ ordered nodes ↔ IsRooted nodes n := by
  have horder := depthFirst_ordered hnodes
  constructor
  · refine horder.isRooted (fun m hm => ?_) n
    obtain ⟨hm, hroot⟩ := List.mem_filter.1 hm
    exact ⟨hm, .of_parent_eq_none (Option.isNone_iff_eq_none.1 hroot)⟩
  · rintro ⟨root, hpath, hroot⟩
    -- along the path from the root: what hangs on a node that is reached is reached, too
    induction hpath using Relation.ReflTransGen.head_induction_on with
    | refl => exact horder.mem _ (List.mem_filter.2 ⟨hn, Option.isNone_iff_eq_none.2 hroot⟩)
    | head hstep _ ih => exact horder.mem_of_hangsOn _ (ih hstep.1) _ hn hstep.2

/-- Nodes that are all rooted are brought into another order, and none is lost or added. -/
theorem ordered_perm (hnodes : (nodes.map (·.uuid)).Nodup)
    (hrooted : ∀ n ∈ nodes, IsRooted nodes n) : (ordered nodes).Perm nodes := by
  rw [List.perm_ext_iff_of_nodup (nodup_ordered hnodes).of_map hnodes.of_map]
  exact fun n => ⟨mem_of_mem_ordered n, fun hn => (mem_ordered_iff hnodes hn).2 (hrooted n hn)⟩

end Visit

end Rig

end Marionette
