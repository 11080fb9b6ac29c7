import Mathlib.Data.List.Nodup
import Marionette.Proofs.Names.Allocation
import Marionette.Proofs.Results

/-!
# Rigs that are built

- `Rig.nodup_allocateNames`: names handed out in order are distinct.
- `Rig.build_eq`: what a rig that is built consists of.
- `Rig.IsBuilt`: the rig comes from nodes and variants of an author.
- `IsBuilt.nodup_storageNames`, `IsBuilt.nodup_variantNames`: its nodes and its variants have
  distinct names.
- `Rig.Visiting`: the invariant of a visit depth first; `Visiting.nodup_preorder`: no node is
  visited twice.
- `nodes_of_build`: a rig has its nodes in the order of the visit.
- `IsBuilt.nodup_uuids`: the nodes of a rig that is built have distinct identifiers.
-/

namespace Marionette

namespace Rig

theorem allocateNames_eq (a : NameAllocator) (names : List String) :
    allocateNames a names = a.allocateAll (names.map storageSafe) := by
  induction names generalizing a with
  | nil => rfl
  | cons name rest ih =>
    exact congrArg ((a.allocate (storageSafe name)).1.1 :: ·) (ih _)

theorem length_allocateNames (a : NameAllocator) (names : List String) :
    (allocateNames a names).length = names.length := by
  rw [allocateNames_eq, NameAllocator.length_allocateAll, List.length_map]

theorem nodup_allocateNames (a : NameAllocator) (names : List String) :
    (allocateNames a names).Nodup := by
  rw [allocateNames_eq]
  exact (a.nodup_allocateAll _).1

variable {rig : Rig} {name : String} {nodes : List RigNode} {variants : List Variant}

/-- What a rig that is built consists of. -/
theorem build_eq (h : build name nodes variants = .ok rig) :
    firstRepeated [] nodes = none ∧
      rig.slots.toList = ((ordered nodes).zip (allocateNames {} ((ordered nodes).map (·.name)))).map
        (fun (n, storageName) => ⟨n, storageName,
          n.parent.bind fun uuid => (ordered nodes).findIdx? fun m => m.uuid == uuid⟩) ∧
      rig.variants = variants.zip (allocateNames {} (variants.map (·.name))) := by
  unfold build at h
  cases hrepeated : firstRepeated [] nodes with
  | some uuid =>
    rw [hrepeated] at h
    cases h
  | none =>
    rw [hrepeated] at h
    dsimp only at h
    obtain ⟨-, -, h⟩ := exists_of_bind_ok h
    split at h
    · cases h
    · cases h
      exact ⟨rfl, rfl, rfl⟩

theorem name_of_build (h : build name nodes variants = .ok rig) : rig.name = name := by
  unfold build at h
  dsimp only at h
  split at h
  · cases h
  · obtain ⟨-, -, h⟩ := exists_of_bind_ok h
    split at h
    · cases h
    · cases h
      rfl

/-- The rig comes from nodes and variants of an author. -/
def IsBuilt (rig : Rig) : Prop :=
  ∃ name nodes variants, build name nodes variants = .ok rig

/-- The nodes of a rig have distinct names. -/
theorem IsBuilt.nodup_storageNames (h : rig.IsBuilt) :
    (rig.slots.toList.map (·.storageName)).Nodup := by
  obtain ⟨name, nodes, variants, hbuild⟩ := h
  obtain ⟨-, hslots, -⟩ := build_eq hbuild
  have hnames : rig.slots.toList.map (·.storageName) =
      ((ordered nodes).zip (allocateNames {} ((ordered nodes).map (·.name)))).map Prod.snd := by
    rw [hslots, List.map_map]
    rfl
  rw [hnames, List.map_snd_zip (Nat.le_of_eq (by rw [length_allocateNames, List.length_map]))]
  exact nodup_allocateNames _ _

/-- The variants of a rig have distinct names. -/
theorem IsBuilt.nodup_variantNames (h : rig.IsBuilt) : (rig.variants.map (·.2)).Nodup := by
  obtain ⟨name, nodes, variants, hbuild⟩ := h
  obtain ⟨-, -, hvariants⟩ := build_eq hbuild
  rw [hvariants, List.map_snd_zip (Nat.le_of_eq (by rw [length_allocateNames, List.length_map]))]
  exact nodup_allocateNames _ _

/-- The names of variants are plain. -/
theorem IsBuilt.isPlainName_variant (h : rig.IsBuilt) : ∀ v ∈ rig.variants, IsPlainName v.2 := by
  obtain ⟨name, nodes, variants, hbuild⟩ := h
  obtain ⟨-, -, hvariants⟩ := build_eq hbuild
  intro v hv
  rw [hvariants] at hv
  have hname : v.2 ∈ allocateNames {} (variants.map (·.name)) := (List.of_mem_zip hv).2
  rw [allocateNames_eq] at hname
  refine NameAllocator.isPlainName_of_mem_allocateAll _ ?_ _ hname
  intro base hbase
  obtain ⟨_, -, rfl⟩ := List.mem_map.1 hbase
  exact (isStorageName_storageSafe _).isPlainName

/-! ### Visits depth first -/

theorem nodup_of_firstRepeated {seen : List Uuid} (h : firstRepeated seen nodes = none) :
    (nodes.map (·.uuid)).Nodup ∧ ∀ n ∈ nodes, n.uuid ∉ seen := by
  induction nodes generalizing seen with
  | nil => exact ⟨List.nodup_nil, fun n hn => (nomatch hn)⟩
  | cons n rest ih =>
    rw [firstRepeated] at h
    split at h
    · cases h
    · next hnew =>
      obtain ⟨hnodup, hfresh⟩ := ih h
      constructor
      · refine List.nodup_cons.2 ⟨?_, hnodup⟩
        intro hmem
        obtain ⟨m, hm, huuid⟩ := List.mem_map.1 hmem
        exact hfresh m hm (huuid ▸ List.mem_cons_self)
      · intro m hm
        rcases List.mem_cons.1 hm with rfl | hm
        · exact hnew
        · exact fun hmem => hfresh m hm (List.mem_cons_of_mem _ hmem)

/-- A visit has been to some nodes, and the agenda holds what is next. -/
structure Visiting (nodes : List RigNode) (visited : List Uuid) (agenda : List RigNode) :
    Prop where
  nodup : (agenda.map (·.uuid)).Nodup
  mem : ∀ n ∈ agenda, n ∈ nodes
  fresh : ∀ n ∈ agenda, n.uuid ∉ visited
  /-- What has been visited or put on the agenda hangs on what has been visited. -/
  parent : ∀ n ∈ nodes, n.uuid ∈ visited ∨ n ∈ agenda →
    ∀ uuid, n.parent = some uuid → uuid ∈ visited

theorem mem_childrenOf {m : RigNode} {uuid : Uuid} :
    m ∈ childrenOf nodes uuid ↔ m ∈ nodes ∧ m.parent = some uuid := by
  rw [childrenOf, List.mem_filter, beq_iff_eq]

theorem mem_of_mem_preorder {fuel : Nat} {agenda : List RigNode} (h : ∀ n ∈ agenda, n ∈ nodes) :
    ∀ n ∈ preorder nodes fuel agenda, n ∈ nodes := by
  induction fuel generalizing agenda with
  | zero => exact fun n hn => nomatch hn
  | succ fuel ih =>
    cases agenda with
    | nil => exact fun n hn => nomatch hn
    | cons n agenda =>
      obtain ⟨hn, hagenda⟩ := List.forall_mem_cons.1 h
      refine List.forall_mem_cons.2 ⟨hn, ih (List.forall_mem_append.2 ⟨fun m hm => ?_, hagenda⟩)⟩
      exact (mem_childrenOf.1 hm).1

/-- Only nodes of the author are visited. -/
theorem mem_of_mem_ordered : ∀ n ∈ ordered nodes, n ∈ nodes :=
  mem_of_mem_preorder fun _ hn => (List.mem_filter.1 hn).1

/-- The visit goes on with the first node of the agenda: what hangs on it is new, since it would
have to have been visited before otherwise. -/
theorem Visiting.step (hnodes : (nodes.map (·.uuid)).Nodup) {visited : List Uuid} {n : RigNode}
    {agenda : List RigNode} (h : Visiting nodes visited (n :: agenda)) :
    Visiting nodes (n.uuid :: visited) (childrenOf nodes n.uuid ++ agenda) := by
  have hn : n ∈ nodes := h.mem n List.mem_cons_self
  have hnew : n.uuid ∉ visited := h.fresh n List.mem_cons_self
  obtain ⟨hhead, hrest⟩ := List.nodup_cons.1 h.nodup
  have hsame : ∀ m ∈ nodes, ∀ k ∈ nodes, m.uuid = k.uuid → m = k :=
    fun m hm k hk => List.inj_on_of_nodup_map hnodes hm hk
  -- a child comes up only through its parent, and the parent has just now been reached
  have hchild : ∀ m ∈ childrenOf nodes n.uuid, m.uuid ∉ visited ∧ m ∉ n :: agenda := by
    intro m hm
    obtain ⟨hm, hparent⟩ := mem_childrenOf.1 hm
    constructor
    · exact fun hmem => hnew (h.parent m hm (.inl hmem) _ hparent)
    · exact fun hmem => hnew (h.parent m hm (.inr hmem) _ hparent)
  constructor
  case nodup =>
    rw [List.map_append, List.nodup_append]
    refine ⟨(List.filter_sublist.map _).nodup hnodes, hrest, ?_⟩
    intro uuid hm uuid' hk heq
    obtain ⟨m, hchildm, huuidm⟩ := List.mem_map.1 hm
    obtain ⟨k, hagenda, huuidk⟩ := List.mem_map.1 hk
    have hagenda := List.mem_cons_of_mem n hagenda
    have hmk : m = k := by
      apply hsame m (mem_childrenOf.1 hchildm).1 k (h.mem k hagenda)
      rw [huuidm, huuidk, heq]
    exact (hchild m hchildm).2 (hmk ▸ hagenda)
  case mem =>
    intro m hm
    rcases List.mem_append.1 hm with hm | hm
    · exact (mem_childrenOf.1 hm).1
    · exact h.mem m (List.mem_cons_of_mem _ hm)
  case fresh =>
    intro m hm hmem
    rcases List.mem_append.1 hm with hm | hm
    · rcases List.mem_cons.1 hmem with huuid | hmem
      · obtain rfl := hsame m (mem_childrenOf.1 hm).1 n hn huuid
        exact (hchild m hm).2 List.mem_cons_self
      · exact (hchild m hm).1 hmem
    · rcases List.mem_cons.1 hmem with huuid | hmem
      · exact hhead (List.mem_map.2 ⟨m, hm, huuid⟩)
      · exact h.fresh m (List.mem_cons_of_mem _ hm) hmem
  case parent =>
    intro m hm hwhere uuid hparent
    by_cases hchildren : m ∈ childrenOf nodes n.uuid
    · cases (mem_childrenOf.1 hchildren).2.symm.trans hparent
      exact List.mem_cons_self
    · refine List.mem_cons_of_mem _ (h.parent m hm ?_ uuid hparent)
      rcases hwhere with hmem | hmem
      · rcases List.mem_cons.1 hmem with huuid | hmem
        · exact .inr (hsame m hm n hn huuid ▸ List.mem_cons_self)
        · exact .inl hmem
      · rcases List.mem_append.1 hmem with hmem | hmem
        · exact absurd hmem hchildren
        · exact .inr (List.mem_cons_of_mem _ hmem)

/-- No node is visited twice. -/
theorem Visiting.nodup_preorder (hnodes : (nodes.map (·.uuid)).Nodup) (fuel : Nat)
    {visited : List Uuid} {agenda : List RigNode} (h : Visiting nodes visited agenda) :
    ((preorder nodes fuel agenda).map (·.uuid)).Nodup ∧
      ∀ n ∈ preorder nodes fuel agenda, n.uuid ∉ visited := by
  induction fuel generalizing visited agenda with
  | zero => exact ⟨List.nodup_nil, fun n hn => (nomatch hn)⟩
  | succ fuel ih =>
    cases agenda with
    | nil => exact ⟨List.nodup_nil, fun n hn => (nomatch hn)⟩
    | cons n agenda =>
      obtain ⟨hnodup, hfresh⟩ := ih (h.step hnodes)
      rw [preorder]
      constructor
      · refine List.nodup_cons.2 ⟨?_, hnodup⟩
        intro hmem
        obtain ⟨m, hm, huuid⟩ := List.mem_map.1 hmem
        exact hfresh m hm (huuid ▸ List.mem_cons_self)
      · intro m hm
        rcases List.mem_cons.1 hm with rfl | hm
        · exact h.fresh m List.mem_cons_self
        · exact fun hmem => hfresh m hm (List.mem_cons_of_mem _ hmem)

/-- The visit begins with the nodes that hang on nothing. -/
theorem visiting_start (hnodes : (nodes.map (·.uuid)).Nodup) :
    Visiting nodes [] (nodes.filter (·.parent.isNone)) := by
  constructor
  case nodup => exact (List.filter_sublist.map _).nodup hnodes
  case mem => exact fun n hn => (List.mem_filter.1 hn).1
  case fresh => exact fun n _ hmem => (nomatch hmem)
  case parent =>
    rintro n - (hmem | hmem) uuid hparent
    · nomatch hmem
    · have hroot := (List.mem_filter.1 hmem).2
      rw [hparent] at hroot
      cases hroot

theorem nodup_ordered (hnodes : (nodes.map (·.uuid)).Nodup) :
    ((ordered nodes).map (·.uuid)).Nodup :=
  ((visiting_start hnodes).nodup_preorder hnodes _).1

/-- The places of a rig hold the nodes in the order in which they are visited. -/
theorem nodes_of_build (h : build name nodes variants = .ok rig) :
    rig.slots.toList.map (·.node) = ordered nodes := by
  obtain ⟨-, hslots, -⟩ := build_eq h
  have hfirst : rig.slots.toList.map (·.node) =
      ((ordered nodes).zip (allocateNames {} ((ordered nodes).map (·.name)))).map Prod.fst := by
    rw [hslots, List.map_map]
    rfl
  rw [hfirst, List.map_fst_zip (Nat.le_of_eq (by rw [length_allocateNames, List.length_map]))]

/-- The nodes of a rig have distinct identifiers. -/
theorem IsBuilt.nodup_uuids (h : rig.IsBuilt) :
    (rig.slots.toList.map (·.node.uuid)).Nodup := by
  obtain ⟨name, nodes, variants, hbuild⟩ := h
  have huuids : rig.slots.toList.map (·.node.uuid) =
      (rig.slots.toList.map (·.node)).map (·.uuid) := by
    rw [List.map_map]
    rfl
  rw [huuids, nodes_of_build hbuild]
  exact nodup_ordered (nodup_of_firstRepeated (build_eq hbuild).1).1

end Rig

end Marionette
