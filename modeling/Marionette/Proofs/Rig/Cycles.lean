import Mathlib.Data.Fintype.Card
import Mathlib.Data.Set.Finite.List
import Marionette.Proofs.Rig.Ordering

/-!
# Cycles of parents

A node that is not rooted leads into a cycle, but it need not be a part of the cycle: it may hang on
one.  The first such node is reported.

- `Rig.OnCycle`: following parents leads back to the node; `OnCycle.not_isRooted`.
- `IsHierarchy.exists_onCycle`: following parents from a node that is not rooted leads into a cycle.
- `build_eq_hierarchyCycle_iff`: the first node that is not rooted is reported.
- `reports_of_build`: it is on a cycle exactly if some node of a cycle stands before all that hang
  on cycles.
- `kite_reports_tail`: what hangs on a cycle is reported if it stands first.
-/

namespace Marionette

namespace Rig

open Relation (ReflTransGen TransGen)

variable {name : String} {nodes : List RigNode} {variants : List Variant} {n m : RigNode}
    {uuid : Uuid}

/-- Following parents from a node, one or more times, leads back to it. -/
def OnCycle (nodes : List RigNode) (n : RigNode) : Prop :=
  TransGen (HangsOn nodes) n n

theorem mem_of_path (hn : n ∈ nodes) (h : ReflTransGen (HangsOn nodes) n m) : m ∈ nodes := by
  rcases ReflTransGen.cases_tail h with rfl | ⟨_, -, hstep⟩
  · exact hn
  · exact hstep.1

/-- Nobody leaves a cycle. -/
theorem OnCycle.parent (hnodes : (nodes.map (·.uuid)).Nodup) (h : OnCycle nodes n)
    (hm : HangsOn nodes n m) : OnCycle nodes m := by
  obtain ⟨up, hstep, hback⟩ := TransGen.head'_iff.1 h
  rw [hm.unique hnodes hstep]
  exact .tail' hback hstep

theorem OnCycle.not_isRooted (hnodes : (nodes.map (·.uuid)).Nodup) (h : OnCycle nodes n) :
    ¬IsRooted nodes n := by
  rintro ⟨root, hpath, hroot⟩
  induction hpath using ReflTransGen.head_induction_on with
  | refl =>
    obtain ⟨up, hstep, -⟩ := TransGen.head'_iff.1 h
    cases hroot.symm.trans hstep.2
  | head hstep _ ih => exact ih (h.parent hnodes hstep)

/-- Following parents from a node that is not rooted leads into a cycle. -/
theorem IsHierarchy.exists_onCycle (h : IsHierarchy nodes) (hn : n ∈ nodes)
    (hlost : ¬IsRooted nodes n) : ∃ m, ReflTransGen (HangsOn nodes) n m ∧ OnCycle nodes m := by
  by_contra hnone
  have hacyclic : ∀ m, ReflTransGen (HangsOn nodes) n m → ¬OnCycle nodes m := fun m hm hcycle =>
    hnone ⟨m, hm, hcycle⟩
  -- there are only so many nodes, so that without a cycle following parents comes to an end
  let Above := { m // m ∈ nodes ∧ ReflTransGen (HangsOn nodes) n m }
  have : Finite Above := (nodes.finite_toSet.subset fun m hm => hm.1).to_subtype
  have : Std.Irrefl fun up m : Above => TransGen (HangsOn nodes) m.1 up.1 :=
    ⟨fun m hcycle => hacyclic m.1 m.2.2 hcycle⟩
  have : IsTrans Above fun up m => TransGen (HangsOn nodes) m.1 up.1 :=
    ⟨fun _ _ _ hab hbc => hbc.trans hab⟩
  have hends := Finite.wellFounded_of_trans_of_irrefl
    fun up m : Above => TransGen (HangsOn nodes) m.1 up.1
  refine hlost (hends.induction (C := fun m => IsRooted nodes m.1) ⟨n, hn, .refl⟩ ?_)
  rintro ⟨m, hm, hpath⟩ ih
  cases hparent : m.parent with
  | none => exact .of_parent_eq_none hparent
  | some uuid =>
    obtain ⟨up, hup, rfl⟩ := h.known m hm uuid hparent
    have hstep : HangsOn nodes m up := ⟨hup, hparent⟩
    exact (ih ⟨up, hup, hpath.tail hstep⟩ (.single hstep)).of_hangsOn hstep

/-! ### The node that is reported -/

/-- The first node that is not rooted is reported, and only if nothing else is wrong. -/
theorem build_eq_hierarchyCycle_iff :
    build name nodes variants = .error (.hierarchyCycle uuid) ↔
      IsHierarchy nodes ∧ ∃ before n after, nodes = before ++ n :: after ∧ n.uuid = uuid ∧
        ¬IsRooted nodes n ∧ ∀ m ∈ before, IsRooted nodes m := by
  constructor
  · intro hfail
    rcases build_cases name nodes variants with ⟨_, h, -⟩ | ⟨_, -, _, h, -⟩ |
      ⟨hnodes, ⟨lost, h, hlost⟩ | ⟨_, h, -⟩⟩ <;> cases hfail.symm.trans h
    obtain ⟨before, after, heq, hcut⟩ := (firstLost_eq_some_iff hnodes.nodup).1 hlost
    exact ⟨hnodes, before, lost, after, heq, rfl, hcut⟩
  · rintro ⟨hnodes, before, n, after, heq, rfl, hcut⟩
    have hlost := (firstLost_eq_some_iff hnodes.nodup).2 ⟨before, after, heq, hcut⟩
    rcases build_cases name nodes variants
      with ⟨_, -, hrepeated⟩ | ⟨k, hk, uuid, -, hparent, hmissing⟩ |
      ⟨-, ⟨lost, h, hlost'⟩ | ⟨_, -, hnone⟩⟩
    · exact absurd hnodes.nodup hrepeated
    · exact absurd (hnodes.known k hk uuid hparent) hmissing
    · rw [h, Option.some.inj (hlost.symm.trans hlost')]
    · cases hlost.symm.trans hnone

/-- The first node that is not rooted is on a cycle exactly if before each node that only hangs on a
cycle there is one that is on a cycle. -/
theorem onCycle_iff_of_first (hnodes : (nodes.map (·.uuid)).Nodup) {before after : List RigNode}
    (heq : nodes = before ++ n :: after) (hn : ¬IsRooted nodes n)
    (hbefore : ∀ m ∈ before, IsRooted nodes m) :
    OnCycle nodes n ↔ ∀ front k back, nodes = front ++ k :: back → ¬IsRooted nodes k →
      ¬OnCycle nodes k → ∃ m ∈ front, OnCycle nodes m := by
  constructor
  · intro hcycle front k back hsplit hk hoff
    rcases List.append_eq_append_iff.1 (heq.symm.trans hsplit) with
      ⟨between, hfront, hrest⟩ | ⟨between, hfront, hrest⟩
    · rcases List.cons_eq_append_iff.1 hrest with ⟨-, hback⟩ | ⟨between', rfl, -⟩
      · cases hback
        exact absurd hcycle hoff
      · exact ⟨n, by simp [hfront], hcycle⟩
    · rcases List.cons_eq_append_iff.1 hrest with ⟨-, hback⟩ | ⟨between', rfl, -⟩
      · cases hback
        exact absurd hcycle hoff
      · exact absurd (hbefore k (by simp [hfront])) hk
  · intro hfirst
    by_contra hoff
    obtain ⟨m, hm, hcycle⟩ := hfirst before n after heq hn hoff
    exact hcycle.not_isRooted hnodes (hbefore m hm)

/-- What is reported as a cycle: the first node that is not rooted.  Following parents from it leads
into a cycle, and it is on the cycle itself exactly if no node that only hangs on a cycle stands
before all that are on one. -/
theorem reports_of_build (h : build name nodes variants = .error (.hierarchyCycle uuid)) :
    ∃ before n after, nodes = before ++ n :: after ∧ n.uuid = uuid ∧
      ¬IsRooted nodes n ∧ (∀ m ∈ before, IsRooted nodes m) ∧
      (∃ m, ReflTransGen (HangsOn nodes) n m ∧ OnCycle nodes m) ∧
      (OnCycle nodes n ↔ ∀ front k back, nodes = front ++ k :: back → ¬IsRooted nodes k →
        ¬OnCycle nodes k → ∃ m ∈ front, OnCycle nodes m) := by
  obtain ⟨hnodes, before, n, after, heq, huuid, hn, hbefore⟩ := build_eq_hierarchyCycle_iff.1 h
  have hmem : n ∈ nodes := heq ▸ List.mem_append_right _ List.mem_cons_self
  exact ⟨before, n, after, heq, huuid, hn, hbefore, hnodes.exists_onCycle hmem hn,
    onCycle_iff_of_first hnodes.nodup heq hn hbefore⟩

/-- Two cameras that hang on each other between one that hangs on nothing and one that hangs on
them. -/
def wheel : List RigNode :=
  [⟨⟨1⟩, "axle", none, .camera, {}⟩, ⟨⟨2⟩, "left", some ⟨3⟩, .camera, {}⟩,
    ⟨⟨3⟩, "right", some ⟨2⟩, .camera, {}⟩, ⟨⟨4⟩, "spoke", some ⟨3⟩, .camera, {}⟩]

theorem reports_of_build_wheel :
    build "wheel" wheel [] = .error (.hierarchyCycle ⟨2⟩) ∧
      ∃ before n after, wheel = before ++ n :: after ∧ n.uuid = ⟨2⟩ ∧
        ¬IsRooted wheel n ∧ (∀ m ∈ before, IsRooted wheel m) ∧
        (∃ m, ReflTransGen (HangsOn wheel) n m ∧ OnCycle wheel m) ∧
        (OnCycle wheel n ↔ ∀ front k back, wheel = front ++ k :: back → ¬IsRooted wheel k →
          ¬OnCycle wheel k → ∃ m ∈ front, OnCycle wheel m) :=
  ⟨rfl, reports_of_build (show build "wheel" wheel [] = _ from rfl)⟩

/-- A camera that hangs on one that hangs on itself. -/
def kite : List RigNode :=
  [⟨⟨1⟩, "tail", some ⟨2⟩, .camera, {}⟩, ⟨⟨2⟩, "kite", some ⟨2⟩, .camera, {}⟩]

/-- What hangs on a cycle is reported if it stands first, though it is not on the cycle. -/
theorem kite_reports_tail :
    build "kite" kite [] = .error (.hierarchyCycle ⟨1⟩) ∧
      ¬∃ n ∈ kite, n.uuid = ⟨1⟩ ∧ OnCycle kite n := by
  refine ⟨rfl, ?_⟩
  rintro ⟨n, hn, huuid, hcycle⟩
  -- nothing hangs on the tail
  obtain ⟨m, hpath, -, hparent⟩ := TransGen.tail'_iff.1 hcycle
  rw [huuid] at hparent
  have hnone : ∀ m ∈ kite, m.parent ≠ some ⟨1⟩ := by decide
  exact hnone m (mem_of_path hn hpath) hparent

end Rig

end Marionette
