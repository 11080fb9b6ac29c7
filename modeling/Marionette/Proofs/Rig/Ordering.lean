import Marionette.Proofs.Rig.Hierarchy

/-!
# Order of a rig

- `Rig.IsHierarchy`, `Rig.IsForest`: what the nodes of an author have to be like.
- `build_cases`: the checks one after the other.
- `firstLost_eq_none_iff`, `firstLost_eq_some_iff`: the nodes that are not reached are those that
  are not rooted.
- `parent_of_build`: the parent of a node stands at a place before it.
- `Rig.Arranges`: the nodes of a rig stand in the order of a visit depth first, and parents and
  identifiers lead to the right places.
- `build_arranges`: exactly forests become rigs, and the rigs arrange them.
-/

namespace Marionette

namespace Rig

variable {rig : Rig} {name : String} {nodes : List RigNode} {variants : List Variant} {n : RigNode}
  {uuid : Uuid}

/-! ### Nodes that are accepted -/

/-- Identifiers are distinct, and parents are nodes, too. -/
structure IsHierarchy (nodes : List RigNode) : Prop where
  nodup : (nodes.map (·.uuid)).Nodup
  known : ∀ n ∈ nodes, ∀ uuid, n.parent = some uuid → ∃ m ∈ nodes, m.uuid = uuid

/-- Following parents from any node leads to a node without one. -/
structure IsForest (nodes : List RigNode) : Prop extends IsHierarchy nodes where
  rooted : ∀ n ∈ nodes, IsRooted nodes n

theorem firstRepeated_eq_none {seen : List Uuid} (hnodes : (nodes.map (·.uuid)).Nodup)
    (hfresh : ∀ n ∈ nodes, n.uuid ∉ seen) : firstRepeated seen nodes = none := by
  induction nodes generalizing seen with
  | nil => rfl
  | cons n rest ih =>
    obtain ⟨hnew, hrest⟩ := List.nodup_cons.1 hnodes
    obtain ⟨hn, hfresh⟩ := List.forall_mem_cons.1 hfresh
    rw [firstRepeated, if_neg hn]
    refine ih hrest fun m hm hmem => ?_
    rcases List.mem_cons.1 hmem with huuid | hmem
    · exact hnew (List.mem_map.2 ⟨m, hm, huuid⟩)
    · exact hfresh m hm hmem

theorem any_uuid_iff : (nodes.any fun m => m.uuid == uuid) = true ↔ ∃ m ∈ nodes, m.uuid = uuid := by
  simp only [List.any_eq_true, beq_iff_eq]

/-- The node that is reported if not all nodes are reached. -/
def firstLost (nodes : List RigNode) : Option RigNode :=
  nodes.find? fun n => !(ordered nodes).any fun m => m.uuid == n.uuid

/-- Identifiers are looked at first, then parents, and then whether all nodes are reached. -/
theorem build_cases (name : String) (nodes : List RigNode) (variants : List Variant) :
    (∃ uuid, build name nodes variants = .error (.duplicateNode uuid) ∧
        ¬(nodes.map (·.uuid)).Nodup) ∨
      (∃ n ∈ nodes, ∃ uuid, build name nodes variants = .error (.missingParent n.uuid uuid) ∧
        n.parent = some uuid ∧ ¬∃ m ∈ nodes, m.uuid = uuid) ∨
      IsHierarchy nodes ∧
        ((∃ lost, build name nodes variants = .error (.hierarchyCycle lost.uuid) ∧
            firstLost nodes = some lost) ∨
          ∃ rig, build name nodes variants = .ok rig ∧ firstLost nodes = none) := by
  generalize hresult : build name nodes variants = result
  unfold build at hresult
  dsimp only at hresult
  split at hresult
  -- a node comes twice
  next uuid hrepeated =>
    refine .inl ⟨uuid, hresult.symm, fun hnodes => ?_⟩
    rw [firstRepeated_eq_none hnodes fun _ _ => List.not_mem_nil] at hrepeated
    cases hrepeated
  next hrepeated =>
    have hdistinct := (nodup_of_firstRepeated (Option.eq_none_iff_forall_ne_some.2 hrepeated)).1
    rcases bind_cases hresult with ⟨e, hloop, rfl⟩ | ⟨_, hloop, hresult⟩
    -- the loop over the nodes stops at a missing parent
    · obtain ⟨n, hn, hfail⟩ := exists_of_forIn_error hloop
      split at hfail
      next parent hparent =>
        split at hfail
        next hmissing =>
          cases hfail
          refine .inr (.inl ⟨n, hn, parent, rfl, hparent, fun hknown => ?_⟩)
          rw [any_uuid_iff.2 hknown] at hmissing
          cases hmissing
        next => cases hfail
      next => cases hfail
    -- it passes, and then all parents are there
    · have hpass := forall_of_forIn_ok (fun n => by split <;> [split; skip] <;> nofun) hloop
      have hknown : ∀ n ∈ nodes, ∀ uuid, n.parent = some uuid → ∃ m ∈ nodes, m.uuid = uuid := by
        intro n hn uuid hparent
        have hn := hpass n hn
        rw [hparent] at hn
        dsimp only at hn
        split at hn
        next => cases hn
        next hmem => exact any_uuid_iff.1 (by simpa using hmem)
      refine .inr (.inr ⟨⟨hdistinct, hknown⟩, ?_⟩)
      split at hresult
      next lost hlost => exact .inl ⟨lost, hresult.symm, hlost⟩
      next hlost => exact .inr ⟨_, hresult.symm, Option.eq_none_iff_forall_ne_some.2 hlost⟩

/-! ### Nodes that are reached -/

/-- Of nodes with distinct identifiers those are lost that are not rooted. -/
theorem not_any_ordered_iff (hnodes : (nodes.map (·.uuid)).Nodup) (hn : n ∈ nodes) :
    (!(ordered nodes).any fun m => m.uuid == n.uuid) = true ↔ ¬IsRooted nodes n := by
  rw [Bool.not_eq_true', ← Bool.not_eq_true, any_uuid_iff, ← mem_ordered_iff hnodes hn, not_iff_not]
  constructor
  · rintro ⟨m, hm, huuid⟩
    rwa [← List.inj_on_of_nodup_map hnodes (mem_of_mem_ordered m hm) hn huuid]
  · exact fun hmem => ⟨n, hmem, rfl⟩

theorem firstLost_eq_none_iff (hnodes : (nodes.map (·.uuid)).Nodup) :
    firstLost nodes = none ↔ ∀ n ∈ nodes, IsRooted nodes n := by
  rw [firstLost, List.find?_eq_none]
  exact forall₂_congr fun n hn => (not_congr (not_any_ordered_iff hnodes hn)).trans not_not

theorem firstLost_eq_some_iff (hnodes : (nodes.map (·.uuid)).Nodup) :
    firstLost nodes = some n ↔ ∃ before after, nodes = before ++ n :: after ∧ ¬IsRooted nodes n ∧
      ∀ m ∈ before, IsRooted nodes m := by
  have hreached : ∀ m ∈ nodes, (!!(ordered nodes).any fun k => k.uuid == m.uuid) = true ↔
      IsRooted nodes m := by
    intro m hm
    rw [Bool.not_eq_true', ← Bool.not_eq_true, not_any_ordered_iff hnodes hm, not_not]
  rw [firstLost, List.find?_eq_some_iff_append]
  constructor
  · rintro ⟨hn, before, after, rfl, hbefore⟩
    refine ⟨before, after, rfl, (not_any_ordered_iff hnodes (by simp)).1 hn, fun m hm => ?_⟩
    exact (hreached m (by simp [hm])).1 (hbefore m hm)
  · rintro ⟨before, after, rfl, hn, hbefore⟩
    refine ⟨(not_any_ordered_iff hnodes (by simp)).2 hn, before, after, rfl, fun m hm => ?_⟩
    exact (hreached m (by simp [hm])).2 (hbefore m hm)

/-- Exactly forests become rigs. -/
theorem exists_build_iff :
    (∃ rig, build name nodes variants = .ok rig) ↔ IsForest nodes := by
  have hcases := build_cases name nodes variants
  constructor
  · rintro ⟨rig, hbuild⟩
    rw [hbuild] at hcases
    rcases hcases with ⟨_, h, -⟩ | ⟨_, -, _, h, -⟩ | ⟨hnodes, ⟨_, h, -⟩ | ⟨_, -, hnone⟩⟩
    · cases h
    · cases h
    · cases h
    · exact ⟨hnodes, (firstLost_eq_none_iff hnodes.nodup).1 hnone⟩
  · intro hnodes
    rcases hcases with ⟨_, -, hrepeated⟩ | ⟨n, hn, uuid, -, hparent, hmissing⟩ |
      ⟨-, ⟨lost, -, hlost⟩ | ⟨rig, hbuild, -⟩⟩
    · exact absurd hnodes.nodup hrepeated
    · exact absurd (hnodes.known n hn uuid hparent) hmissing
    · rw [(firstLost_eq_none_iff hnodes.nodup).2 hnodes.rooted] at hlost
      cases hlost
    · exact ⟨rig, hbuild⟩

/-! ### Places -/

variable {i : Nat} {slot : Slot}

/-- Where identifiers are distinct, the first place of one is its only place. -/
theorem findIdx?_uuid_iff {uuids : List Uuid} (h : uuids.Nodup) :
    uuids.findIdx? (· == uuid) = some i ↔ uuids[i]? = some uuid := by
  rw [List.findIdx?_eq_some_iff_getElem, List.getElem?_eq_some_iff]
  simp only [beq_iff_eq]
  constructor
  · rintro ⟨hi, huuid, -⟩
    exact ⟨hi, huuid⟩
  · rintro ⟨hi, huuid⟩
    refine ⟨hi, huuid, fun j hji hj => Nat.ne_of_lt hji ?_⟩
    have hboth : uuids[j]? = uuids[i]? := by
      rw [List.getElem?_eq_getElem (Nat.lt_trans hji hi), List.getElem?_eq_getElem hi, hj, huuid]
    exact (List.getElem?_inj (Nat.lt_trans hji hi) h).1 hboth

theorem place_iff (hnodes : (nodes.map (·.uuid)).Nodup) :
    (ordered nodes).findIdx? (fun m => m.uuid == uuid) = some i ↔
      ∃ m, (ordered nodes)[i]? = some m ∧ m.uuid = uuid := by
  have hmap := List.findIdx?_map (p := (· == uuid)) (f := RigNode.uuid) (l := ordered nodes)
  have hiff : ((ordered nodes).map (·.uuid)).findIdx? (· == uuid) = some i ↔ _ :=
    findIdx?_uuid_iff (nodup_ordered hnodes)
  rw [hmap, List.getElem?_map, Option.map_eq_some_iff] at hiff
  exact hiff

/-- The places of identifiers are those of their nodes. -/
theorem IsBuilt.indexOf?_eq_some_iff (h : rig.IsBuilt) :
    rig.indexOf? uuid = some i ↔ ∃ slot, rig.slots[i]? = some slot ∧ slot.node.uuid = uuid := by
  have hmap := List.findIdx?_map (p := (· == uuid)) (f := fun s : Slot => s.node.uuid)
    (l := rig.slots.toList)
  have hiff : (rig.slots.toList.map (·.node.uuid)).findIdx? (· == uuid) = some i ↔ _ :=
    findIdx?_uuid_iff h.nodup_uuids
  rw [hmap, List.getElem?_map, Option.map_eq_some_iff, Array.getElem?_toList,
    ← List.findIdx?_toArray, Array.toArray_toList] at hiff
  exact hiff

/-- A place holds a node of the order, and knows where the parent is. -/
theorem slot_of_build (h : build name nodes variants = .ok rig)
    (hslot : rig.slots[i]? = some slot) : (ordered nodes)[i]? = some slot.node ∧
      slot.parent = slot.node.parent.bind fun uuid =>
        (ordered nodes).findIdx? fun m => m.uuid == uuid := by
  obtain ⟨-, hslots, -⟩ := build_eq h
  rw [← Array.getElem?_toList, hslots, List.getElem?_map] at hslot
  obtain ⟨⟨n, storageName⟩, hitem, rfl⟩ := Option.map_eq_some_iff.1 hslot
  exact ⟨(List.getElem?_zip_eq_some.1 hitem).1, rfl⟩

theorem mem_of_build (h : build name nodes variants = .ok rig) (hslot : rig.slots[i]? = some slot) :
    slot.node ∈ nodes :=
  mem_of_mem_ordered _ (List.mem_of_getElem? (slot_of_build h hslot).1)

theorem exists_slot_of_build (h : build name nodes variants = .ok rig)
    (hn : (ordered nodes)[i]? = some n) : ∃ slot, rig.slots[i]? = some slot ∧ slot.node = n := by
  rw [← nodes_of_build h, List.getElem?_map, Option.map_eq_some_iff, Array.getElem?_toList] at hn
  exact hn

/-- Every node has a place. -/
theorem exists_place_of_mem (h : build name nodes variants = .ok rig) (hn : n ∈ nodes) :
    ∃ (i : Nat) (slot : Slot), rig.slots[i]? = some slot ∧ slot.node = n := by
  have hforest : IsForest nodes := exists_build_iff.1 ⟨rig, h⟩
  have hmem := (mem_ordered_iff hforest.nodup hn).2 (hforest.rooted n hn)
  obtain ⟨i, hi⟩ := List.getElem?_of_mem hmem
  exact ⟨i, exists_slot_of_build h hi⟩

/-- The parent of a node stands at a place before it. -/
theorem parent_of_build (h : build name nodes variants = .ok rig)
    (hslot : rig.slots[i]? = some slot) (hparent : slot.node.parent = some uuid) :
    ∃ j < i, slot.parent = some j ∧ ∃ up, rig.slots[j]? = some up ∧ up.node.uuid = uuid := by
  have hnodes := (nodup_of_firstRepeated (build_eq h).1).1
  obtain ⟨hplace, hfound⟩ := slot_of_build h hslot
  obtain ⟨hi, hnode⟩ := List.getElem?_eq_some_iff.1 hplace
  have horder : ordered nodes =
      (ordered nodes).take i ++ slot.node :: (ordered nodes).drop (i + 1) := by
    conv_lhs => rw [← List.take_append_drop i (ordered nodes), List.drop_eq_getElem_cons hi, hnode]
  obtain ⟨m, hm, huuid⟩ := exists_before_of_ordered hnodes horder hparent
  obtain ⟨j, hj, hm⟩ := List.mem_take_iff_getElem.1 hm
  have hup : (ordered nodes)[j]? = some m := List.getElem?_eq_some_iff.2 ⟨by omega, hm⟩
  obtain ⟨up, hslotUp, rfl⟩ := exists_slot_of_build h hup
  refine ⟨j, by omega, ?_, up, hslotUp, huuid⟩
  rw [hfound, hparent]
  exact (place_iff hnodes).2 ⟨_, hup, huuid⟩

/-- A rig has the nodes of an author in the order of a visit depth first that begins with those that
hang on nothing.  A parent stands before its children, the places of parents and of identifiers are
the right ones, and names are distinct. -/
structure Arranges (rig : Rig) (nodes : List RigNode) : Prop where
  depthFirst : ∀ order, DepthFirst nodes (nodes.filter (·.parent.isNone)) order ↔
    rig.slots.toList.map (·.node) = order
  perm : (rig.slots.toList.map (·.node)).Perm nodes
  root : ∀ (i : Nat) (slot : Slot), rig.slots[i]? = some slot → slot.node.parent = none →
    slot.parent = none
  parent : ∀ (i : Nat) (slot : Slot), rig.slots[i]? = some slot →
    ∀ uuid, slot.node.parent = some uuid →
      ∃ j < i, slot.parent = some j ∧ ∃ up, rig.slots[j]? = some up ∧ up.node.uuid = uuid
  place : ∀ (uuid : Uuid) (i : Nat),
    rig.indexOf? uuid = some i ↔ ∃ slot, rig.slots[i]? = some slot ∧ slot.node.uuid = uuid
  nodup : (rig.slots.toList.map (·.storageName)).Nodup

theorem arranges_of_build (h : build name nodes variants = .ok rig) : rig.Arranges nodes := by
  have hforest : IsForest nodes := exists_build_iff.1 ⟨rig, h⟩
  have hrig : rig.IsBuilt := ⟨name, nodes, variants, h⟩
  constructor
  case depthFirst =>
    intro order
    rw [nodes_of_build h]
    have horder := depthFirst_ordered hforest.nodup
    exact ⟨horder.unique, fun heq => heq ▸ horder⟩
  case perm =>
    rw [nodes_of_build h]
    exact ordered_perm hforest.nodup hforest.rooted
  case root =>
    intro i slot hslot hparent
    rw [(slot_of_build h hslot).2, hparent]
    rfl
  case parent => exact fun i slot hslot uuid => parent_of_build h hslot
  case place => exact fun uuid i => hrig.indexOf?_eq_some_iff
  case nodup => exact hrig.nodup_storageNames

/-- Rigs are in order: whatever nodes an author gives, a rig is built of them exactly if their
identifiers are distinct, all parents are among them and following parents from any of them leads to
a node without one.  The rig has the nodes in their order depth first. -/
theorem build_arranges (name : String) (nodes : List RigNode) (variants : List Variant) :
    ((∃ rig, build name nodes variants = .ok rig) ↔ IsForest nodes) ∧
      Ensures (build name nodes variants) fun rig => rig.Arranges nodes :=
  ⟨exists_build_iff, Ensures.intro fun _ => arranges_of_build⟩

end Rig

end Marionette
