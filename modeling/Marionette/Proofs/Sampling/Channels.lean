import Mathlib
import Marionette.Proofs.Bisection
import Marionette.Proofs.Floats.Differences
import Marionette.Proofs.Sampling.Keys

/-!
# Channels are continuous from the left

The value of a channel at a time depends on how many keys are before it.  These are the first ones,
as keys are in order.  The next key decides: if it has the time itself it is the first one that
does, and its value is the one before a jump.

- `Channel.IsSorted`: keys at finite times and in order; `Channel.isSorted_channelsOf`: in an
  animation that can be played all channels are so.
- `Channel.IsSorted.keysBefore_eq`: the number of keys before a time.
- `Channel.IsSorted.exists_first`: the first of the keys that have a time.
- `Channel.IsSorted.exists_neighbours`: the two keys around a time that no key has.
- `Channel.IsLeftContinuousAt`: what the value of a channel at a time is, at keys, between them
  and at both ends.
- `Channel.isLeftContinuousAt_of_isSorted`: so it is at every finite time.
-/

namespace Marionette.Channel

variable {keys : Array TransformKey} {time : Float}

/-- Keys at finite times and in order.  Any number of them may share a time. -/
structure IsSorted (keys : Array TransformKey) : Prop where
  finite : ∀ key ∈ keys, key.time.isFinite = true
  sorted : keys.toList.Pairwise fun left right => left.time ≤ right.time

theorem isSorted_filter {keys : List TransformKey} (h : IsTimeline (keys.map (·.time)))
    (p : TransformKey → Bool) : IsSorted (keys.filter p).toArray where
  finite _ hkey :=
    h.finite _ (List.mem_map_of_mem (List.mem_of_mem_filter (List.mem_toArray.1 hkey)))
  sorted := (List.pairwise_map.1 h.sorted).filter p

/-- In an animation that can be played the channels of every node are sorted. -/
theorem isSorted_channelsOf {a : Animation} (ha : a.check = .ok ()) (n : RigNode) :
    IsSorted (a.channelsOf n).position ∧ IsSorted (a.channelsOf n).rotation ∧
      IsSorted (a.channelsOf n).scale := by
  have htimes : (a.animatorOf n.uuid).HasTimelines := by
    unfold Animation.animatorOf
    cases hfound : a.animators.find? fun animator => animator.node == n.uuid with
    | none =>
      have hempty : IsTimeline [] := ⟨List.forall_mem_nil _, List.forall_mem_nil _, .nil⟩
      exact ⟨hempty, hempty, hempty, hempty⟩
    | some animator => exact hasTimelines_of_mem ha (List.mem_of_find?_eq_some hfound)
  exact ⟨isSorted_filter htimes.position _, isSorted_filter htimes.rotation _,
    isSorted_filter htimes.scale _⟩

/-! ### Keys before a time -/

namespace IsSorted

variable (h : IsSorted keys)

include h

theorem isFinite {i : Nat} (hi : i < keys.size) : keys[i].time.isFinite = true :=
  h.finite _ (Array.getElem_mem hi)

/-- The times of keys, as numbers, are in order. -/
theorem number_le {i j : Nat} (hij : i ≤ j) (hj : j < keys.size) :
    number keys[i].time ≤ number keys[j].time := by
  rcases Nat.eq_or_lt_of_le hij with rfl | hlt
  · exact le_rfl
  · have hle := List.pairwise_iff_getElem.1 h.sorted i j (hij.trans_lt hj) hj hlt
    rw [Array.getElem_toList, Array.getElem_toList] at hle
    exact (float_le_iff_number (h.isFinite _) (h.isFinite hj)).1 hle

variable (htime : time.isFinite = true)

include htime

theorem lt_iff {i : Nat} (hi : i < keys.size) :
    keys[i].time < time ↔ number keys[i].time < number time :=
  float_lt_iff_number (h.isFinite hi) htime

theorem gt_iff {i : Nat} (hi : i < keys.size) :
    time < keys[i].time ↔ number time < number keys[i].time :=
  float_lt_iff_number htime (h.isFinite hi)

theorem beq_iff {i : Nat} (hi : i < keys.size) :
    (keys[i].time == time) = true ↔ number keys[i].time = number time :=
  float_beq_iff_number (h.isFinite hi) htime

/-- The test of the search, on numbers. -/
theorem any_lt_iff {i : Nat} (hi : i < keys.size) :
    ((keys[i]?).any fun key => key.time < time) = true ↔ number keys[i].time < number time := by
  rw [Array.getElem?_eq_getElem hi, Option.any_some, decide_eq_true_iff]
  exact h.lt_iff htime hi

/-- The keys before a time are the first ones. -/
theorem lt_keysBefore_iff :
    keysBefore keys time ≤ keys.size ∧ ∀ (i : Nat) (hi : i < keys.size),
      i < keysBefore keys time ↔ number keys[i].time < number time := by
  have hdown : ∀ i j, i ≤ j → j < keys.size → ((keys[j]?).any fun key => key.time < time) = true →
      ((keys[i]?).any fun key => key.time < time) = true := by
    intro i j hij hj hlt
    rw [h.any_lt_iff htime hj] at hlt
    rw [h.any_lt_iff htime (hij.trans_lt hj)]
    exact (h.number_le hij hj).trans_lt hlt
  obtain ⟨hle, hiff⟩ := Bisection.lt_lowerBound_iff hdown
  refine ⟨hle, fun i hi => ?_⟩
  rw [← h.any_lt_iff htime hi]
  exact hiff i hi

/-- If the first keys are before a time and the next one is not, they are all the keys before it. -/
theorem keysBefore_eq {i : Nat} (hle : i ≤ keys.size)
    (hbefore : ∀ (j : Nat) (hj : j < keys.size), j < i → number keys[j].time < number time)
    (hnext : ∀ hi : i < keys.size, number time ≤ number keys[i].time) :
    keysBefore keys time = i := by
  obtain ⟨hcount, hiff⟩ := h.lt_keysBefore_iff htime
  rcases lt_trichotomy (keysBefore keys time) i with hlt | heq | hgt
  · exact absurd ((hiff _ (by omega)).2 (hbefore _ (by omega) hlt)) (lt_irrefl _)
  · exact heq
  · exact absurd ((hiff i (by omega)).1 hgt) (hnext (by omega)).not_gt

/-- If keys have a time, the first of them is the one after the keys before it. -/
theorem exists_first (hexists : ∃ key ∈ keys, (key.time == time) = true) :
    ∃ first, keys.find? (fun key => key.time == time) = some first ∧
      keys[keysBefore keys time]? = some first ∧ (first.time == time) = true := by
  obtain ⟨first, hfind⟩ := Option.isSome_iff_exists.1
    (Array.find?_isSome (p := fun key : TransformKey => key.time == time).2 hexists)
  obtain ⟨hequal, i, hi, rfl, hothers⟩ := Array.find?_eq_some_iff_getElem.1 hfind
  have hnumber := (h.beq_iff htime hi).1 hequal
  have hcount : keysBefore keys time = i := by
    refine h.keysBefore_eq htime hi.le (fun j hj hlt => ?_) fun _ => hnumber.ge
    refine ((h.number_le hlt.le hi).trans_eq hnumber).lt_of_ne fun heq => ?_
    have hother := hothers j hlt
    rw [(h.beq_iff htime hj).2 heq] at hother
    cases hother
  exact ⟨keys[i], hfind, by rw [hcount, Array.getElem?_eq_getElem hi], hequal⟩

theorem keysBefore_eq_zero (hall : ∀ key ∈ keys, time < key.time) : keysBefore keys time = 0 :=
  h.keysBefore_eq htime (Nat.zero_le _) (fun j _ hlt => absurd hlt j.not_lt_zero)
    fun hi => ((h.gt_iff htime hi).1 (hall _ (Array.getElem_mem hi))).le

theorem keysBefore_eq_size (hall : ∀ key ∈ keys, key.time < time) :
    keysBefore keys time = keys.size :=
  h.keysBefore_eq htime le_rfl
    (fun _ hj _ => (h.lt_iff htime hj).1 (hall _ (Array.getElem_mem hj)))
    fun hi => absurd hi (lt_irrefl _)

/-- A time that no key has, and that is neither before nor after all keys, lies between two
neighbouring keys.  Some time passes between these. -/
theorem exists_neighbours (hnone : ¬∃ key ∈ keys, (key.time == time) = true)
    (hfirst : ¬∀ key ∈ keys, time < key.time) (hlast : ¬∀ key ∈ keys, key.time < time) :
    ∃ i, ∃ hi : i + 1 < keys.size, keysBefore keys time = i + 1 ∧
      (∀ (j : Nat) (hj : j < keys.size), keys[j].time < time ↔ j ≤ i) ∧
      (∀ (j : Nat) (hj : j < keys.size), time < keys[j].time ↔ i < j) ∧
      0 < keys[i + 1].time - keys[i].time := by
  obtain ⟨-, hiff⟩ := h.lt_keysBefore_iff htime
  -- keys before the time are those with a smaller index
  have hbefore : ∀ (j : Nat) (hj : j < keys.size),
      keys[j].time < time ↔ j < keysBefore keys time := fun j hj =>
    (h.lt_iff htime hj).trans (hiff j hj).symm
  have hafter : ∀ (j : Nat) (hj : j < keys.size),
      -- and as no key has the time, the others come after it
      time < keys[j].time ↔ ¬j < keysBefore keys time := by
    intro j hj
    have hne : number time ≠ number keys[j].time := fun heq =>
      hnone ⟨_, Array.getElem_mem hj, (h.beq_iff htime hj).2 heq.symm⟩
    rw [h.gt_iff htime hj, hiff j hj, not_lt, hne.le_iff_lt]
  have hsome : keysBefore keys time ≠ 0 := by
    intro hzero
    refine hfirst fun key hkey => ?_
    obtain ⟨j, hj, rfl⟩ := Array.mem_iff_getElem.1 hkey
    exact (hafter j hj).2 (by omega)
  have hrest : keysBefore keys time < keys.size := by
    by_contra hall
    refine hlast fun key hkey => ?_
    obtain ⟨j, hj, rfl⟩ := Array.mem_iff_getElem.1 hkey
    exact (hbefore j hj).2 (by omega)
  -- the neighbours are the last key before the time and the next one
  obtain ⟨i, hcount⟩ := Nat.exists_eq_succ_of_ne_zero hsome
  rw [hcount] at hbefore hafter hrest
  have hlow := (hbefore i (by omega)).2 i.lt_succ_self
  have hhigh := (hafter _ hrest).2 (lt_irrefl _)
  refine ⟨i, hrest, hcount, fun j hj => ?_, fun j hj => ?_, ?_⟩
  · rw [hbefore j hj, Nat.lt_succ_iff]
  · rw [hafter j hj, not_lt, Nat.succ_le_iff]
  · refine float_sub_pos (h.isFinite _) (h.isFinite hrest) ?_
    rw [float_lt_iff_number (h.isFinite _) (h.isFinite hrest)]
    exact ((h.lt_iff htime _).1 hlow).trans ((h.gt_iff htime hrest).1 hhigh)

end IsSorted

/-! ### The value by the number of keys before the time -/

section Places

variable {i : Nat} {left right : TransformKey}

/-- The first key that is not before the time gives the value if it has that time, or if no key is
before it. -/
theorem sample_of_reached (hright : keys[keysBefore keys time]? = some right)
    (hreached : keysBefore keys time = 0 ∨ (right.time == time) = true) :
    sample keys time = some right.value := by
  unfold sample
  dsimp only
  rw [hright]
  dsimp only
  rw [if_pos (by simpa using hreached)]

theorem sample_of_passed (hpassed : keysBefore keys time = keys.size) :
    sample keys time = keys.back?.map (·.value) := by
  unfold sample
  dsimp only
  rw [hpassed, Array.getElem?_size]

/-- Between two keys the value is found in their segment, if that takes some time. -/
theorem sample_of_between (hcount : keysBefore keys time = i + 1) (hleft : keys[i]? = some left)
    (hright : keys[i + 1]? = some right) (hne : ¬(right.time == time) = true)
    (hspan : 0 < right.time - left.time) :
    sample keys time = some (blend left right ((keys[i - 1]?).getD left).value
      ((keys[i + 2]?).getD right).value ((time - left.time) / (right.time - left.time))) := by
  have hbefore : (if i + 1 ≥ 2 then ((keys[i + 1 - 2]?).getD left).value else left.value) =
      ((keys[i - 1]?).getD left).value := by
    cases i with
    | zero =>
      rw [hleft]
      rfl
    | succ i => exact if_pos (by omega)
  unfold sample
  dsimp only
  rw [hcount, hright]
  dsimp only
  rw [if_neg (by simpa using hne), Nat.add_sub_cancel, hleft]
  dsimp only
  rw [if_pos hspan, hbefore]

end Places

/-! ### Values -/

/-- The value of a channel at a time, by the keys around it. -/
structure IsLeftContinuousAt (keys : Array TransformKey) (time : Float) : Prop where
  /-- At the time of keys it is the value of the first of them. -/
  at_key : (∃ key ∈ keys, (key.time == time) = true) →
    ∃ first, keys.find? (fun key => key.time == time) = some first ∧
      sample keys time = some first.value
  /-- Before all keys it is the first value. -/
  before_all : (∀ key ∈ keys, time < key.time) →
    ∃ first, keys[0]? = some first ∧ sample keys time = some first.value
  /-- After all keys it is the last value. -/
  after_all : (∀ key ∈ keys, key.time < time) →
    ∃ last, keys.back? = some last ∧ sample keys time = some last.value
  /-- Otherwise it lies in the segment from the last key before the time to the first key after it.
  The segment takes some time, and is filled in the mode of the key at its start. -/
  between : (¬∃ key ∈ keys, (key.time == time) = true) → (¬∀ key ∈ keys, time < key.time) →
    (¬∀ key ∈ keys, key.time < time) →
    ∃ i left right, keys[i]? = some left ∧ keys[i + 1]? = some right ∧
      (∀ j key, keys[j]? = some key → (key.time < time ↔ j ≤ i)) ∧
      (∀ j key, keys[j]? = some key → (time < key.time ↔ i < j)) ∧
      0 < right.time - left.time ∧
      sample keys time = some (blend left right ((keys[i - 1]?).getD left).value
        ((keys[i + 2]?).getD right).value ((time - left.time) / (right.time - left.time)))

/-- A channel with keys in order is continuous from the left. -/
theorem isLeftContinuousAt_of_isSorted (hne : keys ≠ #[]) (h : IsSorted keys)
    (htime : time.isFinite = true) : IsLeftContinuousAt keys time := by
  have hpos : 0 < keys.size := Array.size_pos_iff.2 hne
  -- at a key, before all, after all, or between two neighbours
  constructor
  case at_key =>
    intro hexists
    obtain ⟨first, hfind, hplace, hequal⟩ := h.exists_first htime hexists
    exact ⟨first, hfind, sample_of_reached hplace (.inr hequal)⟩
  case before_all =>
    intro hall
    have hcount := h.keysBefore_eq_zero htime hall
    have hfirst := Array.getElem?_eq_getElem hpos
    exact ⟨keys[0], hfirst, sample_of_reached (by rw [hcount, hfirst]) (.inl hcount)⟩
  case after_all =>
    intro hall
    obtain ⟨last, hlast⟩ : ∃ last, keys.back? = some last :=
      ⟨_, Array.back?_eq_getElem?.trans (Array.getElem?_eq_getElem (by omega))⟩
    refine ⟨last, hlast, ?_⟩
    rw [sample_of_passed (h.keysBefore_eq_size htime hall), hlast, Option.map_some]
  case between =>
    intro hnone hfirst hlast
    obtain ⟨i, hi, hcount, hbefore, hafter, hspan⟩ := h.exists_neighbours htime hnone hfirst hlast
    have hleft := Array.getElem?_eq_getElem (show i < keys.size by omega)
    have hright := Array.getElem?_eq_getElem hi
    -- the right neighbour is not at the time, so that the channel interpolates
    have hother : ¬(keys[i + 1].time == time) = true := fun hequal =>
      hnone ⟨_, Array.getElem_mem hi, hequal⟩
    refine ⟨i, keys[i], keys[i + 1], hleft, hright, fun j key hkey => ?_, fun j key hkey => ?_,
      hspan, sample_of_between hcount hleft hright hother hspan⟩
    · obtain ⟨hj, rfl⟩ := Array.getElem?_eq_some_iff.1 hkey
      exact hbefore j hj
    · obtain ⟨hj, rfl⟩ := Array.getElem?_eq_some_iff.1 hkey
      exact hafter j hj

/-- Two keys share the time of half a second. -/
def halfway : Array TransformKey :=
  #[{ time := 0, value := .zero }, { time := 0.5, value := .one },
    { time := 0.5, value := ⟨5, 5, 5⟩ }, { time := 1, value := .zero }]

theorem isLeftContinuousAt_halfway :
    halfway ≠ #[] ∧ IsSorted halfway ∧ (0.5 : Float).isFinite = true ∧
      IsLeftContinuousAt halfway 0.5 := by
  have hsorted : IsSorted halfway := by
    constructor
    · decide +kernel
    · decide +kernel
  have hfinite : (0.5 : Float).isFinite = true := by decide +kernel
  have hne : halfway ≠ #[] := nofun
  exact ⟨hne, hsorted, hfinite, isLeftContinuousAt_of_isSorted hne hsorted hfinite⟩

end Marionette.Channel
