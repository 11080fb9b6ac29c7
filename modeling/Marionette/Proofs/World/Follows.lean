import Marionette.Proofs.World.Looks

/-!
# Runs with other functions

A function may be split differently, so that what one run does at once another does in a further
call.  The two runs do the same as long as the other one does not go too deep.

- `Run.IsTooDeep`: a run stopped because functions call each other too deeply.
- `Run.Follows`: from every world, with functions of its own, the second run goes too deep, or both
  runs end without an error, with related results and in worlds that differ in their functions only.
- One rule for each way in which runs are put together: `Follows.bind`, `Follows.looking`,
  `Follows.runClauses`, `Follows.runAll_append`.
- `Follows.callLeft`, `Follows.callRight`: a call on one side only.
- `Follows.cosmetic`: commands that change looks only and call nothing.
-/

namespace Marionette

variable {α β γ δ : Type}

/-- The world with other functions. -/
def World.withFunctions (w : World) (functions : Std.HashMap FunctionPath (List Command)) : World :=
  { w with functions := functions }

namespace Run

/-- The run stopped because functions call each other too deeply. -/
def IsTooDeep (r : Except SimError α × World) : Prop :=
  ∃ path limit, r.1 = .error (.recursionLimit path limit)

/-- From every world with the functions `F`, the second run, with the functions `F'`, goes too deep,
or both runs end without an error, their results are related, and the worlds that they leave differ
in their functions only. -/
def Follows (F F' : Std.HashMap FunctionPath (List Command)) (r : α → β → Prop) (x : Run α)
    (y : Run β) : Prop :=
  ∀ w : World, w.functions = F → IsTooDeep (Run.on y (w.withFunctions F')) ∨
    ∃ a b w', w'.functions = F ∧ r a b ∧ Run.on x w = (.ok a, w') ∧
      Run.on y (w.withFunctions F') = (.ok b, w'.withFunctions F')

namespace Follows

variable {F F' : Std.HashMap FunctionPath (List Command)} {r : α → β → Prop} {q : γ → δ → Prop}
  {x : Run α} {y : Run β}

/-- Runs that do nothing leave both worlds as they are. -/
theorem nothing {a : α} {b : β} (h : r a b) : Follows F F' r (pure a) (pure b) :=
  fun w hw => .inr ⟨a, b, w, hw, h, on_pure a w, on_pure b _⟩

/-- Less may be said of the results. -/
theorem imp {r' : α → β → Prop} (h : Follows F F' r x y) (hr : ∀ a b, r a b → r' a b) :
    Follows F F' r' x y := by
  intro w hw
  obtain hdeep | ⟨a, b, w', hw', hab, hx, hy⟩ := h w hw
  · exact .inl hdeep
  · exact .inr ⟨a, b, w', hw', hr a b hab, hx, hy⟩

/-- Runs that follow each other are put together on both sides. -/
theorem bind {f : α → Run γ} {g : β → Run δ} (h : Follows F F' r x y)
    (hfg : ∀ a b, r a b → Follows F F' q (f a) (g b)) : Follows F F' q (x >>= f) (y >>= g) := by
  intro w hw
  obtain ⟨path, limit, hdeep⟩ | ⟨a, b, w', hw', hab, hx, hy⟩ := h w hw
  · refine .inl ⟨path, limit, ?_⟩
    rw [on_bind]
    rcases hrun : Run.on y (w.withFunctions F') with ⟨e | b, w'⟩
    · rw [hrun] at hdeep
      exact congrArg Except.error (Except.error.inj hdeep)
    · rw [hrun] at hdeep
      cases hdeep
  · rw [on_bind_ok hx, on_bind_ok hy]
    exact hfg a b hab w' hw'

/-- Runs that look at their worlds first. -/
theorem looking {f : World → Run γ} {g : World → Run δ}
    (h : ∀ w : World, w.functions = F → Follows F F' q (f w) (g (w.withFunctions F'))) :
    Follows F F' q (get >>= f) (get >>= g) := by
  intro w hw
  rw [on_bind_ok (on_get w), on_bind_ok (on_get _)]
  exact h w hw w hw

/-- Only the second run looks at its world first. -/
theorem lookingRight {g : World → Run β}
    (h : ∀ w : World, w.functions = F → Follows F F' r x (g (w.withFunctions F'))) :
    Follows F F' r x (get >>= g) := by
  intro w hw
  rw [on_bind_ok (on_get _)]
  exact h w hw w hw

/-- Runs that change their worlds first, in a way that has nothing to do with functions. -/
theorem changing {f : World → World} {c : PUnit → Run γ} {d : PUnit → Run δ}
    (hf : ∀ w fs, f (w.withFunctions fs) = (f w).withFunctions fs)
    (h : Follows F F' q (c ⟨⟩) (d ⟨⟩)) : Follows F F' q (modify f >>= c) (modify f >>= d) := by
  intro w hw
  rw [on_bind_ok (on_modify f w), on_bind_ok (on_modify f _), hf]
  refine h (f w) ?_
  have hsame : f w = (f w).withFunctions w.functions := hf w w.functions
  rw [hsame]
  exact hw

/-- Runs that go on only under a condition. -/
theorem guard {r : Outcome → Outcome → Prop} {x y : Run Outcome} (b : Bool) (h : Follows F F' r x y)
    (hnone : r none none) :
    Follows F F' r (if b then x else pure none) (if b then y else pure none) := by
  cases b with
  | true => exact h
  | false => exact nothing hnone

/-- A function that must not be called any more. -/
theorem tooDeep {r : α → Outcome → Prop} (path : FunctionPath) (executor : Option Nat) :
    Follows F F' r x (World.callFunction 0 path executor) :=
  fun w _ => .inl ⟨path, w.maxDepth, rfl⟩

open World (Cosmetic)

/-! ### Commands -/

/-- Branches to the same entities in the same order. -/
theorem fork {go go' : Option Nat → Run Outcome}
    (h : ∀ id, Follows F F' Eq (go (some id)) (go' (some id))) (ids : List Nat) (succeeded : Nat) :
    Follows F F' Eq (World.fork go ids succeeded) (World.fork go' ids succeeded) := by
  induction ids generalizing succeeded with
  | nil => exact nothing rfl
  | cons id rest ih =>
    refine (h id).bind fun o o' heq => ?_
    rw [heq]
    exact ih _

/-- Plain clauses with related commands behind them. -/
theorem runClauses {behind behind' : Option Nat → Run Outcome} {clauses : List Clause}
    (hplain : ∀ c ∈ clauses, c.isPlain = true)
    (h : ∀ executor, Follows F F' Eq (behind executor) (behind' executor)) (executor : Option Nat) :
    Follows F F' Eq (World.runClauses behind clauses executor)
      (World.runClauses behind' clauses executor) := by
  induction clauses generalizing executor with
  | nil => exact h executor
  | cons clause rest ih =>
    obtain ⟨hclause, hrest⟩ := List.forall_mem_cons.1 hplain
    cases clause with
    | score | storeResultEntity | storeResultScore => cases hclause
    | entity | raw => exact looking fun w hw => guard _ (ih hrest executor) rfl
    | asEach | onPassengers => exact looking fun w hw => fork (fun id => ih hrest (some id)) _ 0
    | atEach | positionedLocal | rotatedRelative => exact ih hrest executor

/-- Lists of commands that begin alike may go on in two ways. -/
theorem runAll_append {run run' : Command → Run Outcome} {r : Unit → Unit → Prop}
    {cs as bs : List Command} (hcs : ∀ c ∈ cs, Follows F F' (fun _ _ => True) (run c) (run' c))
    (h : Follows F F' r (World.runAll run as) (World.runAll run' bs)) :
    Follows F F' r (World.runAll run (cs ++ as)) (World.runAll run' (cs ++ bs)) := by
  induction cs with
  | nil => exact h
  | cons c rest ih =>
    obtain ⟨hc, hrest⟩ := List.forall_mem_cons.1 hcs
    exact hc.bind fun _ _ _ => ih hrest

/-- Lists that correspond command by command. -/
theorem runAll {run run' : Command → Run Outcome} {cs : List Command}
    (hcs : ∀ c ∈ cs, Follows F F' (fun _ _ => True) (run c) (run' c)) :
    Follows F F' Eq (World.runAll run cs) (World.runAll run' cs) := by
  have hall : Follows F F' Eq (World.runAll run (cs ++ [])) (World.runAll run' (cs ++ [])) :=
    runAll_append hcs (nothing rfl)
  rwa [List.append_nil] at hall

/-- Entities change in the same way. -/
theorem changeEntities (ids : List Nat) (f : Entity → Entity) :
    Follows F F' Eq (World.changeEntities ids f) (World.changeEntities ids f) := by
  refine changing (fun w fs => ?_) (nothing rfl)
  induction ids generalizing w with
  | nil => rfl
  | cons id rest ih => exact ih (w.modifyEntity id f)

/-- A command that changes looks only and calls nothing does the same, whatever calls would do. -/
theorem cosmetic {call call' : FunctionPath → Option Nat → Run Outcome} {c : Command}
    (h : Cosmetic {} 0 c) (executor : Option Nat) :
    Follows F F' Eq (World.runCommand call c executor) (World.runCommand call' c executor) := by
  generalize hd : 0 = d at h
  induction h generalizing executor with
  | dataMerge | teleport => exact looking fun w hw => changeEntities _ _
  | raw text => exact changing (fun _ _ => rfl) (nothing rfl)
  | comment text => exact nothing rfl
  | execute plain _ ih => exact runClauses plain (fun executor => ih executor hd) executor
  | function => cases hd

/-! ### Calls -/

/-- A call on the first side only. -/
theorem callLeft {r : Outcome → β → Prop} {path : FunctionPath} {body : List Command}
    {executor : Option Nat} {depth : Nat} (hbody : F[path]? = some body)
    (h : Follows F F' (fun _ b => r (some (Int32.ofNat body.length)) b)
      (World.runAll (fun c => World.runCommand (World.callFunction depth) c executor) body) y) :
    Follows F F' r (World.callFunction (depth + 1) path executor) y := by
  intro w hw
  obtain hdeep | ⟨a, b, w', hw', hab, hx, hy⟩ := h w hw
  · exact .inl hdeep
  · refine .inr ⟨_, b, w', hw', hab, ?_, hy⟩
    show Run.on (get >>= _) w = _
    rw [on_bind_ok (on_get w), hw, hbody]
    exact (on_bind_ok hx).trans (on_pure _ _)

/-- A call on the second side only. -/
theorem callRight {r : α → Outcome → Prop} {path : FunctionPath} {body : List Command}
    {executor : Option Nat} {depth : Nat} (hbody : F'[path]? = some body)
    (h : Follows F F' (fun a _ => r a (some (Int32.ofNat body.length))) x
      (World.runAll (fun c => World.runCommand (World.callFunction depth) c executor) body)) :
    Follows F F' r x (World.callFunction (depth + 1) path executor) := by
  intro w hw
  have hcall : Run.on (World.callFunction (depth + 1) path executor) (w.withFunctions F') =
      Run.on (World.runAll
        (fun c => World.runCommand (World.callFunction depth) c executor) body >>=
        fun _ => pure (some (Int32.ofNat body.length))) (w.withFunctions F') := by
    show Run.on (get >>= _) _ = _
    rw [on_bind_ok (on_get _), show (w.withFunctions F').functions[path]? = some body from hbody]
  rw [hcall]
  have hdone := h.bind (f := fun a => (pure a : Run α)) (q := r) fun a _ hab => nothing hab
  rw [bind_pure] at hdone
  exact hdone w hw

end Follows

end Run

end Marionette
