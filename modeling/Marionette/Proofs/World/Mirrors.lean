import Marionette.Proofs.World.Twins

/-!
# Commands run for instances in the same state

A command that stays home looks at nothing but the instance for which it runs.  So it does the same
for two instances that are in the same state, in whatever worlds they are.

- `StaysHome.agree`: a command that stays home keeps two instances in the same state and has the
  same result for both.
- `Mirrors.agree_carry`: so do the commands that take a score over to the passengers.  They go
  through a name that all instances share, but they set its score before they read it.
- `Mirrors.agree_callFunction`: so does a function, however deep it calls others.
-/

namespace Marionette

open Run (Agree)
open World (Runs)

namespace Pairing

variable {P : Pairing} {functions : Std.HashMap FunctionPath (List Command)} {w w' : World}
  {m : Nat × Nat} {call call' : FunctionPath → Option Nat → Run Outcome} {objective : String}

namespace Mirrors

/-! ### Single commands -/

/-- Commands on scores do the same for both, if each writes to its own. -/
theorem agree_updateScores (h : P.Mirrors functions w w') (hm : m ∈ P.root :: P.riders)
    {f : Option Int32 → Int32} :
    Agree (P.Mirrors functions) (World.updateScores .this objective (some m.1) f)
      (World.updateScores .this objective (some m.2) f) w w' := by
  refine World.agree_requireObjective (.looking ?_)
  obtain ⟨found, ho, ho'⟩ := h.owners hm
  rw [ho, ho']
  cases found with
  | false => exact .nothing _ h
  | true =>
    have hscore : w'.ownerScore? (.entity m.2) objective = w.ownerScore? (.entity m.1) objective :=
      (h.like m hm).score? objective
    refine .looking (.changing ?_)
    rw [hscore]
    exact .nothing _ (h.setOwn hm objective _)

/-- Combining a score with another one of the same entity does the same for both. -/
theorem agree_scoreOperation (h : P.Mirrors functions w w') (hm : m ∈ P.root :: P.riders)
    {target source : String} {op : ScoreOp} :
    Agree (P.Mirrors functions)
      (World.runCommand call (.scoreOperation .this target op .this source) (some m.1))
      (World.runCommand call' (.scoreOperation .this target op .this source) (some m.2)) w w' := by
  refine World.agree_requireObjective (World.agree_requireObjective (.looking ?_))
  obtain ⟨found, ho, ho'⟩ := h.owners hm
  rw [ho, ho']
  cases found with
  | false => exact .nothing _ h
  | true =>
    have hscore : ∀ objective, w'.ownerScore? (.entity m.2) objective =
        w.ownerScore? (.entity m.1) objective := (h.like m hm).score?
    refine .bind (S := P.Mirrors functions)
      (.looking (.changing (f := fun _ => _) (g := fun _ => _) ?_))
      fun _ _ _ hu => .nothing _ hu
    rw [hscore, hscore]
    exact .nothing _ (h.setOwn hm target _)

/-- Removing scores does. -/
theorem agree_scoreReset (h : P.Mirrors functions w w') (hm : m ∈ P.root :: P.riders)
    {objective : Option String} :
    Agree (P.Mirrors functions) (World.runCommand call (.scoreReset .this objective) (some m.1))
      (World.runCommand call' (.scoreReset .this objective) (some m.2)) w w' := by
  refine .looking ?_
  obtain ⟨found, ho, ho'⟩ := h.owners hm
  rw [ho, ho']
  cases found with
  | false =>
    refine .changing (.nothing _ (h.rescore fun n hn b => ?_))
    have hscore : w'.scores[(Owner.entity n.2, b)]? = w.scores[(Owner.entity n.1, b)]? :=
      (h.like n hn).score? b
    rw [Std.HashMap.getElem?_filter', Std.HashMap.getElem?_filter', hscore]
    rfl
  | true => exact .changing (.nothing _ (h.resetOwn hm objective))

/-- A tag that both lack is given to both, and counted alike. -/
theorem agree_tagAdd (h : P.Mirrors functions w w') (hm : m ∈ P.root :: P.riders) {tag : String} :
    Agree (P.Mirrors functions) (World.runCommand call (.tagAdd .this tag) (some m.1))
      (World.runCommand call' (.tagAdd .this tag) (some m.2)) w w' := by
  refine .looking ?_
  obtain ⟨found, hs, hs'⟩ := h.select hm (s := .this) rfl
  rw [hs, hs']
  cases found with
  | false => exact .changing (f := fun _ => _) (g := fun _ => _) (.nothing _ h)
  | true =>
    have htag := (h.like m hm).hasTag tag
    simp only [if_true, World.addTags, List.foldl_cons, List.foldl_nil, htag]
    split
    · exact .changing (f := fun _ => _) (g := fun _ => _) (.nothing _ h)
    · exact .changing (f := fun _ => _) (g := fun _ => _)
        (.nothing _ (h.alter hm (fun _ => rfl) fun _ => rfl))

/-- A tag that both have is taken from both. -/
theorem agree_tagRemove (h : P.Mirrors functions w w') (hm : m ∈ P.root :: P.riders)
    {tag : String} :
    Agree (P.Mirrors functions) (World.runCommand call (.tagRemove .this tag) (some m.1))
      (World.runCommand call' (.tagRemove .this tag) (some m.2)) w w' := by
  refine .looking ?_
  obtain ⟨found, hs, hs'⟩ := h.select hm (s := .this) rfl
  rw [hs, hs']
  cases found with
  | false => exact .changing (f := fun _ => _) (g := fun _ => _) (.nothing _ h)
  | true =>
    have htag := (h.like m hm).hasTag tag
    simp only [if_true, World.removeTags, List.foldl_cons, List.foldl_nil, htag]
    split
    · exact .changing (f := fun _ => _) (g := fun _ => _)
        (.nothing _ (h.alter hm (fun _ => rfl) fun _ => rfl))
    · exact .changing (f := fun _ => _) (g := fun _ => _) (.nothing _ h)

/-- Commands that change what the executing entity looks like. -/
theorem agree_changeEntities (h : P.Mirrors functions w w') (hm : m ∈ P.root :: P.riders)
    {f : Entity → Entity} (hties : ∀ e, (f e).ties = e.ties) (hseen : ∀ e, (f e).seen = f e.seen) :
    Agree (P.Mirrors functions)
      (do World.changeEntities ((← get).select .this (some m.1)) f)
      (do World.changeEntities ((← get).select .this (some m.2)) f) w w' := by
  refine .looking ?_
  obtain ⟨found, hs, hs'⟩ := h.select hm (s := .this) rfl
  rw [hs, hs']
  cases found with
  | false => exact .changing (.nothing _ h)
  | true => exact .changing (.nothing _ (h.alter hm hties hseen))

/-- A test of the executing entity, or of what the author asks. -/
theorem agree_test (h : P.Mirrors functions w w') (hm : m ∈ P.root :: P.riders) {clause : Clause}
    {rest : List Clause} {behind behind' : Option Nat → Run Outcome}
    (htest : clause.isOwnTest = true)
    (hrest : Agree (P.Mirrors functions) (World.runClauses behind rest (some m.1))
      (World.runClauses behind' rest (some m.2)) w w') :
    Agree (P.Mirrors functions) (World.runClauses behind (clause :: rest) (some m.1))
      (World.runClauses behind' (clause :: rest) (some m.2)) w w' := by
  cases clause with
  -- both find the same score, so the test comes out the same
  | score negate holder objective range =>
    obtain rfl := beq_iff_eq.1 htest
    refine World.agree_requireObjective (.looking ?_)
    rw [h.firstScore? hm]
    exact .guard _ hrest h
  | entity negate selector =>
    refine .looking ?_
    obtain ⟨found, hs, hs'⟩ := h.select hm (beq_iff_eq.1 htest)
    have hempty :
        (w'.select selector (some m.2)).isEmpty = (w.select selector (some m.1)).isEmpty := by
      rw [hs, hs']
      cases found <;> rfl
    rw [hempty]
    exact .guard _ hrest h
  -- the answers to the author are part of what both worlds share
  | raw condition =>
    refine .looking ?_
    rw [h.answers]
    exact .guard _ hrest h
  | atEach | positionedLocal | rotatedRelative => exact hrest
  | asEach | onPassengers | storeResultEntity | storeResultScore => cases htest

/-- Going on as the passengers of the two roots. -/
theorem agree_onPassengers {R : World → World → Prop} (h : P.Mirrors functions w w') (hR : R w w')
    {rest : List Clause} {behind behind' : Option Nat → Run Outcome}
    (hgo : ∀ m ∈ P.riders, ∀ u u', R u u' → Agree R (World.runClauses behind rest (some m.1))
      (World.runClauses behind' rest (some m.2)) u u') :
    Agree R (World.runClauses behind (.onPassengers :: rest) (some P.root.1))
      (World.runClauses behind' (.onPassengers :: rest) (some P.root.2)) w w' := by
  refine .looking ?_
  obtain ⟨pairs, hpairs, haboard, haboard'⟩ := h.aboard
  simp only [Option.toList_some, List.flatMap_singleton, haboard, haboard']
  exact World.agree_fork (fun m hm => hgo m (hpairs m hm)) hR

end Mirrors

end Pairing

namespace Command.StaysHome

variable {P : Pairing} {functions : Std.HashMap FunctionPath (List Command)} {w w' : World}
  {m : Nat × Nat} {call call' : FunctionPath → Option Nat → Run Outcome}
  {calls : FunctionPath → Prop} {tags : String → Prop} {rides : Bool} {c : Command}

/-- Private commands do the same for both. -/
theorem agree_own (hc : c.isPrivate = true) (hm : m ∈ P.root :: P.riders)
    (h : P.Mirrors functions w w') :
    Agree (P.Mirrors functions) (World.runCommand call c (some m.1))
      (World.runCommand call' c (some m.2)) w w' := by
  cases c with
  | scoreSet holder objective value | scoreAdd holder objective value
  | scoreRemove holder objective value =>
    obtain rfl := beq_iff_eq.1 hc
    exact h.agree_updateScores hm
  | scoreReset holder objective =>
    obtain rfl := beq_iff_eq.1 hc
    exact h.agree_scoreReset hm
  | scoreOperation target targetObjective op source sourceObjective =>
    obtain ⟨htarget, hsource⟩ := Bool.and_eq_true_iff.1 hc
    obtain rfl := beq_iff_eq.1 htarget
    obtain rfl := beq_iff_eq.1 hsource
    exact h.agree_scoreOperation hm
  | tagRemove target tag =>
    obtain rfl := beq_iff_eq.1 hc
    exact h.agree_tagRemove hm
  | _ => cases hc

/-- So do commands on looks. -/
theorem agree_look (hc : c.isLook = true) (hm : m ∈ P.root :: P.riders)
    (h : P.Mirrors functions w w') :
    Agree (P.Mirrors functions) (World.runCommand call c (some m.1))
      (World.runCommand call' c (some m.2)) w w' := by
  cases c with
  | dataMerge target data | teleport target offset yaw pitch =>
    obtain rfl := beq_iff_eq.1 hc
    exact h.agree_changeEntities hm (fun _ => rfl) fun _ => rfl
  | _ => cases hc

/-- A command that stays home does the same for both instances, as long as the functions do that it
may call. -/
theorem agree
    (hcall : ∀ path, calls path → ∀ w w', P.Mirrors functions w w' →
      Agree (P.Mirrors functions) (call path (some P.root.1)) (call' path (some P.root.2)) w w')
    (h : c.StaysHome calls tags rides) (hm : if rides then m ∈ P.riders else m = P.root)
    (hw : P.Mirrors functions w w') :
    Agree (P.Mirrors functions) (World.runCommand call c (some m.1))
      (World.runCommand call' c (some m.2)) w w' := by
  -- whoever runs the command is one of the pair
  have hmem : m ∈ P.root :: P.riders := by
    cases rides with
    | false => exact List.mem_cons.2 (.inl hm)
    | true => exact List.mem_cons_of_mem _ hm
  induction h generalizing w w' m with
  | @quiet rides c note =>
    cases c with
    | comment text => exact .nothing _ hw
    | raw text => exact .changing (.nothing _ (hw.record _ _))
    | _ => cases note
  | own own => exact agree_own own hmem hw
  | tag given => exact hw.agree_tagAdd hmem
  | look look => exact agree_look look hmem hw
  -- functions are called by the roots only
  | function known =>
    obtain rfl : m = P.root := hm
    exact hcall _ known w w' hw
  | run _ ih => exact ih hm hw hmem
  | test test _ ih => exact hw.agree_test hmem test (ih hm hw hmem)
  -- passengers take their turns in the same order
  | onPassengers _ ih =>
    obtain rfl : m = P.root := hm
    exact hw.agree_onPassengers hw fun n hn u u' hu => ih hn hu (List.mem_cons_of_mem _ hn)

end Command.StaysHome

namespace Pairing.Mirrors

variable {P : Pairing} {functions : Std.HashMap FunctionPath (List Command)} {w w' : World}
  {call call' : FunctionPath → Option Nat → Run Outcome} {objective : String}

/-- Taking a score over to the passengers: the shared name gets the score of the root first. -/
theorem agree_carry (h : P.Mirrors functions w w') (name objective path : String) :
    let body : List Command := [.copyScore (.fake name) objective .this objective,
      .execute [.onPassengers, .storeResultEntity path] (.scoreGet (.fake name) objective)]
    Agree (P.Mirrors functions)
      (World.runAll (fun c => World.runCommand call c (some P.root.1)) body)
      (World.runAll (fun c => World.runCommand call' c (some P.root.2)) body) w w' := by
  let Carrying (u u' : World) : Prop := P.Mirrors functions u u' ∧
    u'.fakeScore? name objective = u.fakeScore? name objective
  have hroot : P.root ∈ P.root :: P.riders := List.mem_cons_self
  -- both roots hand out the same score
  have hcopy : Agree Carrying
      (World.runCommand call (.copyScore (.fake name) objective .this objective) (some P.root.1))
      (World.runCommand call' (.copyScore (.fake name) objective .this objective) (some P.root.2))
      w w' := by
    refine World.agree_requireObjective (World.agree_requireObjective (.looking ?_))
    rw [World.owners_this h.living, World.owners_this h.living']
    have hscore : w'.ownerScore? (.entity P.root.2) objective =
        w.ownerScore? (.entity P.root.1) objective := (h.like P.root hroot).score? objective
    refine .bind (S := Carrying) (.looking (.changing (f := fun _ => _) (g := fun _ => _) ?_))
      fun _ _ _ hu => .nothing _ hu
    rw [hscore]
    refine .nothing _ ⟨h.setCarried name objective _ _, ?_⟩
    unfold World.fakeScore?
    rw [World.ownerScore?_setOwnerScore, World.ownerScore?_setOwnerScore, if_pos rfl, if_pos rfl]
    rfl
  -- and each passenger keeps what it reads
  have hstore : ∀ m ∈ P.riders, ∀ u u', Carrying u u' →
      Agree Carrying
        (World.runClauses (World.runCommand call (.scoreGet (.fake name) objective))
          [.storeResultEntity path] (some m.1))
        (World.runClauses (World.runCommand call' (.scoreGet (.fake name) objective))
          [.storeResultEntity path] (some m.2)) u u' := by
    intro m hm u u' hu
    refine .bind (S := Carrying) (World.agree_requireObjective (.looking ?_))
      fun value v v' hv => ?_
    · show Agree Carrying (pure (u.fakeScore? name objective))
        (pure (u'.fakeScore? name objective)) u u'
      rw [hu.2]
      exact .nothing _ hu
    · have hmem := List.mem_cons_of_mem P.root hm
      have hnone : (v'.entity? m.2).isNone = (v.entity? m.1).isNone := by
        have hseen := congrArg Option.isNone (hv.1.like m hmem).seen
        rwa [Option.isNone_map, Option.isNone_map] at hseen
      refine .bind (S := Carrying) (.looking ?_) fun _ _ _ hv => .nothing _ hv
      rw [hnone]
      split
      · exact .failing _ _
      · exact .changing (.nothing _ ⟨hv.1.alter hmem (fun _ => rfl) fun _ => rfl, hv.2⟩)
  refine .bind hcopy fun _ u u' hu => .bind (S := Carrying) ?_ fun _ _ _ hv => .nothing _ hv.1
  exact hu.1.agree_onPassengers hu hstore

/-- A function that stays home does the same for both instances, and so does one whose commands,
taken together, do the same. -/
theorem agree_callFunction (calls : FunctionPath → Prop) (tags : String → Prop)
    (hhome : ∀ path body, functions[path]? = some body → calls path →
      (∀ c ∈ body, c.StaysHome calls tags false) ∨
        ∀ n w w', P.Mirrors functions w w' → Agree (P.Mirrors functions)
          (World.runAll (fun c => World.runCommand (World.callFunction n) c (some P.root.1)) body)
          (World.runAll (fun c => World.runCommand (World.callFunction n) c (some P.root.2)) body)
          w w')
    {path : FunctionPath} (hpath : calls path) (depth : Nat) (h : P.Mirrors functions w w') :
    Agree (P.Mirrors functions) (World.callFunction depth path (some P.root.1))
      (World.callFunction depth path (some P.root.2)) w w' := by
  induction depth generalizing path w w' with
  | zero => exact .looking (.failing _ _)
  | succ depth ih =>
    refine .looking ?_
    rw [h.runs.functions, h.runs'.functions]
    split
    · exact .failing _ _
    · next body hbody =>
      refine .bind (S := P.Mirrors functions) ?_ fun _ _ _ hu => .nothing _ hu
      -- the body stays home, or it was proved to do the same as a whole
      rcases hhome path body hbody hpath with hstays | hbody
      · exact World.agree_runAll (fun c hc u u' hu =>
          (hstays c hc).agree (fun path hpath u u' hu => ih hpath hu) rfl hu) h
      · exact hbody depth w w' h

end Pairing.Mirrors

end Marionette
