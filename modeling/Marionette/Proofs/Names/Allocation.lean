import Mathlib.Order.Nat
import Marionette.Proofs.Names

/-!
# Names that are handed out

The first request for a base gets the base itself, and every later one the base with the least
number that is free.  A name with a number may be asked for as a base in its turn, so what is free
depends on everything that was handed out earlier.

- `NameAllocator.allocate_not_mem`: a name that is handed out was not handed out before.
- `NameAllocator.allocateAll`: names handed out in order; they are distinct, and plain if they are
  handed out for plain names.
- `NameAllocator.answers`: the answers to requests in order.
- `NameAllocator.IsFirstCome`: the answer that a request has to get after some names were handed
  out.
- `NameAllocator.firstFree_eq`: the search comes to the first free number and stays there.
- `NameAllocator.isFirstCome_allocate`: what one request gets.
- `NameAllocator.nodup_isFirstCome_answers`: the answers to a sequence of requests.
-/

namespace Marionette

namespace NameAllocator

variable {taken : List String} {base : String} {n start steps : Nat}

theorem numbered_inj {m n : Nat} (h : numbered base m = numbered base n) : m = n := by
  have hlist := congrArg String.toList h
  simp only [numbered, String.toList_append] at hlist
  exact Nat.repr_injective (String.toList_inj.1 (List.append_cancel_left hlist))

/-- Among more numbered names than are taken, one is free. -/
theorem exists_numbered_not_mem (taken : List String) (base : String) (n : Nat) :
    ∃ i ≤ taken.length, numbered base (n + i) ∉ taken := by
  refine Classical.byContradiction fun hall => ?_
  have htaken : ∀ i ≤ taken.length, numbered base (n + i) ∈ taken := fun i hi =>
    Classical.byContradiction fun hi' => hall ⟨i, hi, hi'⟩
  have hdistinct : ((List.range (taken.length + 1)).map fun i => numbered base (n + i)).Nodup := by
    refine List.Pairwise.map _ (fun i j hij heq => hij ?_) List.nodup_range
    have hnumber := numbered_inj heq
    omega
  have hsubset : ((List.range (taken.length + 1)).map fun i => numbered base (n + i)) ⊆ taken := by
    intro name hname
    obtain ⟨i, hi, rfl⟩ := List.mem_map.1 hname
    rw [List.mem_range] at hi
    exact htaken i (by omega)
  have hlength := hdistinct.length_le_of_subset hsubset
  rw [List.length_map, List.length_range] at hlength
  omega

/-- With enough steps the search comes to the first free number, and more of them change nothing. -/
theorem firstFree_eq (hle : start ≤ n) (hfree : numbered base n ∉ taken)
    (htaken : ∀ k, start ≤ k → k < n → numbered base k ∈ taken) (hsteps : n ≤ start + steps) :
    firstFree taken base steps start = n := by
  induction steps generalizing start with
  | zero => exact Nat.le_antisymm hle hsteps
  | succ steps ih =>
    rw [firstFree]
    rcases Nat.eq_or_lt_of_le hle with rfl | hlt
    · exact if_neg hfree
    · rw [if_pos (htaken start (Nat.le_refl _) hlt)]
      exact ih hlt (fun k hk => htaken k (by omega)) (by omega)

theorem firstFree_eq_of_isLeast (h : IsLeast {k | 2 ≤ k ∧ numbered base k ∉ taken} n)
    (hsteps : n ≤ 2 + steps) : firstFree taken base steps 2 = n := by
  refine firstFree_eq h.1.1 h.1.2 (fun k hk hlt => ?_) hsteps
  refine Classical.byContradiction fun hfree => ?_
  exact absurd (h.2 ⟨hk, hfree⟩) (Nat.not_le_of_lt hlt)

/-- There is a least free number, and no more numbers are passed over than names are taken. -/
theorem exists_isLeast_free (taken : List String) (base : String) :
    ∃ n ≤ 2 + taken.length, IsLeast {k | 2 ≤ k ∧ numbered base k ∉ taken} n := by
  obtain ⟨i, hi, hfree⟩ := exists_numbered_not_mem taken base 2
  have hfound : ∃ k, 2 ≤ k ∧ numbered base k ∉ taken := ⟨2 + i, Nat.le_add_right 2 i, hfree⟩
  have hbound : Nat.find hfound ≤ 2 + i := Nat.find_min' hfound ⟨Nat.le_add_right 2 i, hfree⟩
  exact ⟨Nat.find hfound, by omega, Nat.isLeast_find hfound⟩

/-- A name that is handed out was not handed out before, and from then on it counts as handed
out. -/
theorem allocate_not_mem (a : NameAllocator) (base : String) :
    (a.allocate base).1.1 ∉ a.taken ∧
      (a.allocate base).2.taken = (a.allocate base).1.1 :: a.taken := by
  unfold allocate
  split
  · obtain ⟨n, hn, hleast⟩ := exists_isLeast_free a.taken base
    rw [firstFree_eq_of_isLeast hleast hn]
    exact ⟨hleast.1.2, rfl⟩
  · rename_i hfree
    exact ⟨hfree, rfl⟩

/-- Names handed out for bases in order. -/
def allocateAll (a : NameAllocator) : List String → List String
  | [] => []
  | base :: rest => (a.allocate base).1.1 :: allocateAll (a.allocate base).2 rest

theorem length_allocateAll (a : NameAllocator) (bases : List String) :
    (a.allocateAll bases).length = bases.length := by
  induction bases generalizing a with
  | nil => rfl
  | cons base rest ih =>
    rw [allocateAll, List.length_cons, List.length_cons, ih]

/-- Names handed out in order are distinct, and differ from all names handed out before. -/
theorem nodup_allocateAll (a : NameAllocator) (bases : List String) :
    (a.allocateAll bases).Nodup ∧ ∀ name ∈ a.allocateAll bases, name ∉ a.taken := by
  induction bases generalizing a with
  | nil => exact ⟨List.nodup_nil, fun name h => (nomatch h)⟩
  | cons base rest ih =>
    obtain ⟨hnew, htaken⟩ := a.allocate_not_mem base
    obtain ⟨hnodup, hfresh⟩ := ih (a.allocate base).2
    rw [htaken] at hfresh
    rw [allocateAll]
    constructor
    · exact List.nodup_cons.2 ⟨fun hmem => hfresh _ hmem List.mem_cons_self, hnodup⟩
    · intro later hlater
      rcases List.mem_cons.1 hlater with rfl | hlater
      · exact hnew
      · exact fun hmem => hfresh later hlater (List.mem_cons_of_mem _ hmem)

/-- A name is the base or the base with a number. -/
theorem allocate_cases (a : NameAllocator) (base : String) :
    (a.allocate base).1.1 = base ∨ ∃ n, (a.allocate base).1.1 = numbered base n := by
  unfold allocate
  split
  · exact .inr ⟨_, rfl⟩
  · exact .inl rfl

/-- Every name in a list is one of the bases, or a base with a number. -/
theorem mem_allocateAll_cases (a : NameAllocator) {bases : List String} {name : String}
    (h : name ∈ a.allocateAll bases) :
    ∃ base ∈ bases, name = base ∨ ∃ n, name = numbered base n := by
  induction bases generalizing a with
  | nil => nomatch h
  | cons base rest ih =>
    rcases List.mem_cons.1 h with rfl | h
    · exact ⟨base, List.mem_cons_self, a.allocate_cases base⟩
    · obtain ⟨later, hlater, hname⟩ := ih (a.allocate base).2 h
      exact ⟨later, List.mem_cons_of_mem _ hlater, hname⟩

/-- Names that are handed out for plain names are plain. -/
theorem isPlainName_of_mem_allocateAll (a : NameAllocator) {bases : List String}
    (hbases : ∀ base ∈ bases, IsPlainName base) :
    ∀ name ∈ a.allocateAll bases, IsPlainName name := by
  intro name hname
  obtain ⟨base, hbase, rfl | ⟨n, rfl⟩⟩ := a.mem_allocateAll_cases hname
  · exact hbases _ hbase
  · exact ((hbases base hbase).append (by decide)).append (isPlainName_repr n).separator

/-! ### First come, first served -/

variable {earlier earlier' : List String} {answer : String × Bool}

/-- The answers to requests in order: names, and whether they differ from their bases. -/
def answers (a : NameAllocator) : List String → List (String × Bool)
  | [] => []
  | base :: rest => (a.allocate base).1 :: answers (a.allocate base).2 rest

theorem map_fst_answers (a : NameAllocator) (bases : List String) :
    (a.answers bases).map (·.1) = a.allocateAll bases := by
  induction bases generalizing a with
  | nil => rfl
  | cons base rest ih => rw [answers, allocateAll, List.map_cons, ih]

/-! ### One request -/

/-- After some names were handed out, a base that is not among them is handed out unchanged.  Any
other one gets the least number from two on that is free.  The search finds it in as many steps as
there are smaller numbers, more steps change nothing, and it can be counted up to in 32 bits. -/
structure IsFirstCome (earlier : List String) (base : String) (answer : String × Bool) : Prop where
  unchanged_iff : answer = (base, false) ↔ base ∉ earlier
  exists_number : base ∈ earlier → ∃ n < UInt32.size, answer = (numbered base n, true) ∧
    IsLeast {k | 2 ≤ k ∧ numbered base k ∉ earlier} n ∧
    ∀ steps, n ≤ 2 + steps → firstFree earlier base steps 2 = n

/-- What a request gets, as long as the names that are taken leave room for a number. -/
theorem isFirstCome_allocate (a : NameAllocator) (base : String)
    (hroom : 2 + a.taken.length < UInt32.size) : IsFirstCome a.taken base (a.allocate base).1 := by
  by_cases hbase : base ∈ a.taken
  · obtain ⟨n, hn, hleast⟩ := exists_isLeast_free a.taken base
    have hanswer : (a.allocate base).1 = (numbered base n, true) := by
      rw [allocate, if_pos hbase, firstFree_eq_of_isLeast hleast hn]
    constructor
    · rw [hanswer]
      exact ⟨fun h => absurd (congrArg Prod.snd h) Bool.noConfusion, fun h => absurd hbase h⟩
    · exact fun _ => ⟨n, by omega, hanswer, hleast, fun _ => firstFree_eq_of_isLeast hleast⟩
  · have hanswer : (a.allocate base).1 = (base, false) := by rw [allocate, if_neg hbase]
    exact ⟨⟨fun _ => hbase, fun _ => hanswer⟩, fun h => absurd h hbase⟩

/-- Only which names were handed out earlier matters, not when. -/
theorem IsFirstCome.congr (h : IsFirstCome earlier base answer)
    (hmem : ∀ name, name ∈ earlier ↔ name ∈ earlier') : IsFirstCome earlier' base answer := by
  refine ⟨by rw [← hmem]; exact h.unchanged_iff, fun hbase => ?_⟩
  obtain ⟨n, hn, hanswer, hleast, -⟩ := h.exists_number ((hmem base).2 hbase)
  simp only [hmem] at hleast
  exact ⟨n, hn, hanswer, hleast, fun _ => firstFree_eq_of_isLeast hleast⟩

/-! ### Many requests -/

/-- What a request gets after those before it, from an allocator that may have handed out names
already. -/
theorem isFirstCome_answers (a : NameAllocator) {bases : List String} {i : Nat}
    (hroom : 2 + (a.taken.length + i) < UInt32.size) (hbase : bases[i]? = some base)
    (hanswer : (a.answers bases)[i]? = some answer) :
    IsFirstCome (((a.answers bases).take i).map (·.1) ++ a.taken) base answer := by
  -- along the requests: what the first one gets counts as handed out for the others
  induction bases generalizing a i with
  | nil => cases hbase
  | cons first rest ih =>
    cases i with
    | zero =>
      cases hbase
      cases hanswer
      exact a.isFirstCome_allocate base hroom
    | succ i =>
      have htaken := (a.allocate_not_mem first).2
      have hlater := ih (a.allocate first).2 (i := i)
        (by rw [htaken, List.length_cons]; omega) hbase hanswer
      rw [htaken] at hlater
      rw [answers, List.take_succ_cons, List.map_cons]
      exact hlater.congr fun name => List.perm_middle.mem_iff

/-- Fewer requests than there are numbers of 32 bits from two on all get an answer.  The names are
distinct, and every request gets what is its due after those before it. -/
theorem nodup_isFirstCome_answers {bases : List String} (h : bases.length < UInt32.size - 2) :
    (answers {} bases).length = bases.length ∧ ((answers {} bases).map (·.1)).Nodup ∧
      ∀ i base answer, bases[i]? = some base → (answers {} bases)[i]? = some answer →
        IsFirstCome (((answers {} bases).take i).map (·.1)) base answer := by
  have hnames : (answers {} bases).map (·.1) = allocateAll {} bases := map_fst_answers {} bases
  refine ⟨?_, ?_, ?_⟩
  · rw [← length_allocateAll {} bases, ← hnames, List.length_map]
  · rw [hnames]
    exact (nodup_allocateAll {} bases).1
  · intro i base answer hbase hanswer
    obtain ⟨hi, -⟩ := List.getElem?_eq_some_iff.1 hbase
    have hserved := isFirstCome_answers {} (by simp only [List.length_nil]; omega) hbase hanswer
    rwa [List.append_nil] at hserved

/-- The third request asks for a name that the second one was given. -/
theorem nodup_isFirstCome_answers_walk :
    let answered := [("walk", false), ("walk_2", true), ("walk_2_2", true), ("walk_3", true)]
    answers {} ["walk", "walk", "walk_2", "walk"] = answered ∧ (answered.map (·.1)).Nodup ∧
      IsFirstCome ["walk"] "walk" ("walk_2", true) ∧
      IsFirstCome ["walk", "walk_2"] "walk_2" ("walk_2_2", true) ∧
      IsFirstCome ["walk", "walk_2", "walk_2_2"] "walk" ("walk_3", true) := by
  have hanswers : answers {} ["walk", "walk", "walk_2", "walk"] =
      [("walk", false), ("walk_2", true), ("walk_2_2", true), ("walk_3", true)] := by decide
  have hroom : ["walk", "walk", "walk_2", "walk"].length < UInt32.size - 2 := by decide
  obtain ⟨-, hnodup, hserved⟩ := nodup_isFirstCome_answers hroom
  rw [hanswers] at hnodup hserved
  exact ⟨hanswers, hnodup, hserved 1 _ _ rfl rfl, hserved 2 _ _ rfl rfl, hserved 3 _ _ rfl rfl⟩

end NameAllocator

end Marionette
