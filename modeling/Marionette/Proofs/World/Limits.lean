import Marionette.Proofs.Results
import Marionette.Proofs.World.Commands

/-!
# The limit of calls only cuts runs off

Functions may call each other only up to a depth, which is a part of the world.  Nothing else in a
run looks at this limit, so a run that ends before it gets there goes the same way under every
higher limit.

- `World.limited`: the same world with another limit.
- `Run.Outlasts`: where a run ends otherwise than at the limit, another run under another limit ends
  in the same way.
- One rule for each way in which runs are put together, and for each kind of command.
- `World.outlasts_callFunction`: a function outlasts itself with fewer levels of calls.
- `World.ends_of_limit_le`: a higher limit never changes a run that has come to its end.
-/

namespace Marionette

variable {α β : Type} {m : Nat} {w : World}

/-- Functions called each other too deeply. -/
def SimError.IsLimit : SimError → Prop
  | .recursionLimit _ _ => True
  | _ => False

namespace World

/-- The same world with another limit for the depth of calls. -/
def limited (w : World) (m : Nat) : World := { w with maxDepth := m }

@[simp] theorem functions_limited : (w.limited m).functions = w.functions := rfl

@[simp] theorem entity?_limited (id : Nat) : (w.limited m).entity? id = w.entity? id := rfl

@[simp] theorem hasTag_limited (id : Nat) (tag : String) :
    (w.limited m).hasTag id tag = w.hasTag id tag := rfl

@[simp] theorem hasObjective_limited (objective : String) :
    (w.limited m).hasObjective objective = w.hasObjective objective := rfl

/-- Killing an entity asks for no limit. -/
theorem limited_kill (w : World) (m id : Nat) : (w.limited m).kill id = (w.kill id).limited m := by
  unfold kill
  rw [entity?_limited]
  cases w.entity? id with
  | none => rfl
  | some e =>
    dsimp only
    cases e.alive <;> rfl

/-- What does not look at the limit at any of several steps does not look at it at all. -/
theorem limited_foldl {γ : Type} {f : World → γ → World}
    (hf : ∀ w c, f (w.limited m) c = (f w c).limited m) (items : List γ) (w : World) :
    items.foldl f (w.limited m) = (items.foldl f w).limited m := by
  induction items generalizing w with
  | nil => rfl
  | cons c rest ih => rw [List.foldl_cons, List.foldl_cons, hf, ih]

/-- The same of steps that count. -/
theorem limited_counting {γ : Type} {f : World × Nat → γ → World × Nat}
    (hf : ∀ w n c, f (w.limited m, n) c = ((f (w, n) c).1.limited m, (f (w, n) c).2))
    (items : List γ) (w : World) (n : Nat) :
    items.foldl f (w.limited m, n) =
      ((items.foldl f (w, n)).1.limited m, (items.foldl f (w, n)).2) := by
  induction items generalizing w n with
  | nil => rfl
  | cons c rest ih =>
    rw [List.foldl_cons, List.foldl_cons, hf]
    exact ih (f (w, n) c).1 (f (w, n) c).2

/-- Giving tags asks for no limit either, and counts the same. -/
theorem limited_addTags (w : World) (m : Nat) (ids : List Nat) (tag : String) :
    (w.limited m).addTags ids tag = ((w.addTags ids tag).1.limited m, (w.addTags ids tag).2) := by
  refine limited_counting (fun w n id => ?_) ids w 0
  dsimp only
  rw [hasTag_limited]
  cases w.hasTag id tag <;> rfl

/-- Nor does taking tags. -/
theorem limited_removeTags (w : World) (m : Nat) (ids : List Nat) (tag : String) :
    (w.limited m).removeTags ids tag =
      ((w.removeTags ids tag).1.limited m, (w.removeTags ids tag).2) := by
  refine limited_counting (fun w n id => ?_) ids w 0
  dsimp only
  rw [hasTag_limited]
  cases w.hasTag id tag <;> rfl

end World

namespace Run

/-- Where the first run ends otherwise than at the limit of its world, the second one ends in the
same way in the world with another limit. -/
def Outlasts (m : Nat) (x x' : Run α) (w : World) : Prop :=
  ∀ r u, Run.on x w = (r, u) → FailsOnly (fun e => ¬ e.IsLimit) r →
    Run.on x' (w.limited m) = (r, u.limited m)

namespace Outlasts

theorem nothing (a : α) : Outlasts m (pure a) (pure a) w := by
  rintro _ _ ⟨⟩ -
  rfl

theorem failing (e : SimError) : Outlasts m (throw e : Run α) (throw e) w := by
  rintro _ _ ⟨⟩ -
  rfl

/-- What outlasts a change of the limit may be followed by what does. -/
theorem bind {x x' : Run α} {f f' : α → Run β} (hx : Outlasts m x x' w)
    (hf : ∀ a u, Outlasts m (f a) (f' a) u) : Outlasts m (x >>= f) (x' >>= f') w := by
  intro r u hrun hfinished
  rw [on_bind] at hrun ⊢
  rcases hstep : Run.on x w with ⟨e | a, v⟩
  · rw [hstep] at hrun
    obtain ⟨rfl, rfl⟩ := Prod.mk.inj hrun
    rw [hx _ _ hstep hfinished]
  · rw [hstep] at hrun
    rw [hx _ _ hstep (.ok a)]
    exact hf a v r u hrun hfinished

/-- Runs that look at their worlds first. -/
theorem looking {f f' : World → Run β} (h : Outlasts m (f w) (f' (w.limited m)) w) :
    Outlasts m (get >>= f) (get >>= f') w := by
  intro r u hrun hfinished
  rw [on_bind_ok (on_get _)] at hrun ⊢
  exact h r u hrun hfinished

/-- Runs that change their worlds first, without a look at the limit. -/
theorem changing {g g' : World → World} {x x' : PUnit → Run β}
    (hg : g' (w.limited m) = (g w).limited m) (h : Outlasts m (x ⟨⟩) (x' ⟨⟩) (g w)) :
    Outlasts m (modify g >>= x) (modify g' >>= x') w := by
  intro r u hrun hfinished
  rw [on_bind_ok (on_modify _ _)] at hrun ⊢
  rw [hg]
  exact h r u hrun hfinished

/-- Runs that put other worlds in the place of theirs first. -/
theorem setting {v v' : World} {x x' : PUnit → Run β} (hv : v' = v.limited m)
    (h : Outlasts m (x ⟨⟩) (x' ⟨⟩) v) : Outlasts m (set v >>= x) (set v' >>= x') w := by
  intro r u hrun hfinished
  rw [on_bind_ok (on_set _ _)] at hrun ⊢
  rw [hv]
  exact h r u hrun hfinished

/-- Runs that go on under the same condition. -/
theorem guard (b : Bool) {x x' : Run Outcome} (h : Outlasts m x x' w) :
    Outlasts m (if b then x else pure none) (if b then x' else pure none) w := by
  cases b with
  | true => exact h
  | false => exact nothing none

end Outlasts

end Run

namespace World

open Run (Outlasts)

variable {objective : String} {executor : Option Nat}

/-! ### Commands -/

/-- A missing objective is found missing under both limits. -/
theorem outlasts_requireObjective :
    Outlasts m (requireObjective objective) (requireObjective objective) w := by
  refine .looking ?_
  rw [hasObjective_limited]
  split
  · exact .failing _
  · exact .nothing _

theorem outlasts_updateOwners {f : Option Int32 → Int32} {owners : List Owner} {last : Outcome} :
    Outlasts m (updateOwners objective f owners last) (updateOwners objective f owners last) w := by
  induction owners generalizing w last with
  | nil => exact .nothing _
  | cons o rest ih => exact .looking (.changing rfl ih)

/-- Commands on scores look at objectives, entities and scores only. -/
theorem outlasts_updateScores {h : Holder} {f : Option Int32 → Int32} :
    Outlasts m (updateScores h objective executor f) (updateScores h objective executor f) w :=
  outlasts_requireObjective.bind fun _ _ => .looking outlasts_updateOwners

theorem outlasts_combineFrom {target : Owner} {targetObjective : String} {op : ScoreOp}
    {sources : List Owner} {last : Outcome} :
    Outlasts m (combineFrom target targetObjective op objective sources last)
      (combineFrom target targetObjective op objective sources last) w := by
  induction sources generalizing w last with
  | nil => exact .nothing _
  | cons source rest ih => exact .looking (.setting rfl ih)

/-- Scores are combined target by target, whatever the limit. -/
theorem outlasts_combineAll {targetObjective : String} {op : ScoreOp} {sources targets : List Owner}
    {last : Outcome} :
    Outlasts m (combineAll targetObjective op sources objective targets last)
      (combineAll targetObjective op sources objective targets last) w := by
  induction targets generalizing w last with
  | nil => exact .nothing _
  | cons target rest ih => exact outlasts_combineFrom.bind fun _ _ => ih

theorem outlasts_changeEntities {ids : List Nat} {f : Entity → Entity} :
    Outlasts m (changeEntities ids f) (changeEntities ids f) w :=
  .changing (limited_foldl (fun _ _ => rfl) ids w) (.nothing _)

/-- An executor that was never created ends both runs with the same error. -/
theorem outlasts_storeInEntity {path : String} {value : Int32} :
    Outlasts m (storeInEntity executor path value) (storeInEntity executor path value) w := by
  cases executor with
  | none => exact .nothing _
  | some id =>
    refine .looking ?_
    rw [entity?_limited]
    split
    · exact .failing _
    · exact .changing rfl (.nothing _)

/-- Going on as several entities; a run that is cut off at one of them does not go on
as the others. -/
theorem outlasts_fork {go go' : Option Nat → Run Outcome}
    (hgo : ∀ executor w, Outlasts m (go executor) (go' executor) w) {ids : List Nat}
    {succeeded : Nat} : Outlasts m (fork go ids succeeded) (fork go' ids succeeded) w := by
  induction ids generalizing w succeeded with
  | nil => exact .nothing _
  | cons id rest ih => exact (hgo (some id) w).bind fun _ _ => ih

/-- Clauses go on under both limits in the same way, up to what runs behind them. -/
theorem outlasts_runClauses {behind behind' : Option Nat → Run Outcome}
    (hbehind : ∀ executor w, Outlasts m (behind executor) (behind' executor) w)
    {clauses : List Clause} :
    Outlasts m (runClauses behind clauses executor) (runClauses behind' clauses executor) w := by
  induction clauses generalizing w executor with
  | nil => exact hbehind executor w
  | cons clause rest ih =>
    cases clause with
    | score negate holder objective range =>
      exact outlasts_requireObjective.bind fun _ _ => .looking (.guard _ ih)
    | entity negate selector => exact .looking (.guard _ ih)
    | asEach selector => exact .looking (outlasts_fork fun _ _ => ih)
    | onPassengers => exact .looking (outlasts_fork fun _ _ => ih)
    | atEach | positionedLocal | rotatedRelative => exact ih
    | storeResultEntity path =>
      exact ih.bind fun _ _ => outlasts_storeInEntity.bind fun _ _ => .nothing _
    | storeResultScore holder objective =>
      exact ih.bind fun _ _ => outlasts_updateScores.bind fun _ _ => .nothing _
    | raw condition => exact .looking (.guard _ ih)

/-- A command looks at the limit only where it calls a function. -/
theorem outlasts_runCommand {call call' : FunctionPath → Option Nat → Run Outcome}
    (hcall : ∀ path executor w, Outlasts m (call path executor) (call' path executor) w)
    {c : Command} : Outlasts m (runCommand call c executor) (runCommand call' c executor) w := by
  induction c generalizing w executor with
  | comment text => exact .nothing _
  | objectiveAdd name =>
    refine .looking ?_
    rw [hasObjective_limited]
    -- whether an objective is there does not depend on the limit
    split
    · exact .nothing _
    · exact .setting rfl (.nothing _)
  | scoreSet | scoreAdd | scoreRemove => exact outlasts_updateScores
  | scoreOperation target targetObjective op source sourceObjective =>
    exact outlasts_requireObjective.bind fun _ _ => outlasts_requireObjective.bind fun _ _ =>
      .looking outlasts_combineAll
  | scoreGet holder objective =>
    exact outlasts_requireObjective.bind fun _ _ => .looking (.nothing _)
  | scoreReset holder objective => exact .looking (.changing rfl (.nothing _))
  -- giving and taking tags yields the same world and the same count
  | tagAdd target tag =>
    refine .looking ?_
    rw [limited_addTags]
    exact .setting rfl (.nothing _)
  | tagRemove target tag =>
    refine .looking ?_
    rw [limited_removeTags]
    exact .setting rfl (.nothing _)
  -- the one case where the limit counts
  | function path => exact hcall path executor w
  | execute clauses run ih => exact outlasts_runClauses fun _ _ => ih
  | dataMerge target data => exact .looking outlasts_changeEntities
  | teleport target offset yaw pitch => exact .looking outlasts_changeEntities
  | summon entityType data => exact .changing rfl (.nothing _)
  | kill selector =>
    exact .looking (.changing (limited_foldl (fun w id => w.limited_kill m id) _ w) (.nothing _))
  | raw text => exact .changing rfl (.nothing _)

/-- Commands in a row, each of them under both limits. -/
theorem outlasts_runAll {run run' : Command → Run Outcome} {cs : List Command}
    (hrun : ∀ c w, Outlasts m (run c) (run' c) w) :
    Outlasts m (runAll run cs) (runAll run' cs) w := by
  induction cs generalizing w with
  | nil => exact .nothing _
  | cons c rest ih => exact (hrun c w).bind fun _ _ => ih

/-! ### Functions -/

/-- A function outlasts itself with fewer levels of calls: where these are used up, it goes on, and
everywhere else it does the same. -/
theorem outlasts_callFunction {n n' : Nat} (hle : n ≤ n') (path : FunctionPath) :
    Outlasts m (callFunction n path executor) (callFunction n' path executor) w := by
  induction n generalizing n' path executor w with
  | zero =>
    intro r u hrun hfinished
    obtain ⟨rfl, rfl⟩ := Prod.mk.inj hrun
    exact absurd trivial hfinished
  | succ n ih =>
    obtain ⟨n', rfl⟩ : ∃ k, n' = k + 1 := ⟨n' - 1, by omega⟩
    refine .looking ?_
    rw [functions_limited]
    split
    · exact .failing _
    · exact (outlasts_runAll fun _ _ => outlasts_runCommand fun path _ _ =>
        ih (by omega) path).bind fun _ _ => .nothing _

/-- A run under a limit is outlasted by the same run under a higher one. -/
theorem outlasts_run {limit : Nat} (hle : limit ≤ m) (path : FunctionPath) :
    Outlasts m (run path executor) (run path executor) (w.limited limit) :=
  .looking ((outlasts_callFunction hle path).bind fun _ _ => .nothing _)

/-- A function that calls itself first comes to every limit, and does nothing else. -/
theorem callFunction_of_cycle {path : FunctionPath} {rest : List Command}
    (h : w.functions[path]? = some (.function path :: rest)) (n : Nat) :
    Run.on (callFunction n path executor) w = (.error (.recursionLimit path w.maxDepth), w) := by
  induction n with
  | zero => rfl
  | succ n ih =>
    show Run.on (Bind.bind (get : Run World) _) w = _
    rw [Run.on_bind_ok (Run.on_get w), h]
    show Run.on (Bind.bind (Bind.bind (callFunction n path executor) _) _) w = _
    rw [Run.on_bind, Run.on_bind, ih]

/-- A higher limit never changes a run that has come to its end: whatever functions a world has,
also functions that call each other in circles, a run that ends without an error or with another
error than the limit has the same result under every higher limit and leaves the same world; and a
run that comes to the higher limit comes to the lower one, too. -/
theorem ends_of_limit_le (w : World) (path : FunctionPath) (executor : Option Nat)
    {limit limit' : Nat} (hle : limit ≤ limit') :
    (∀ r u, Run.on (run path executor) (w.limited limit) = (r, u) →
        (∀ e, r = .error e → ¬ e.IsLimit) →
        Run.on (run path executor) (w.limited limit') = (r, u.limited limit')) ∧
      ∀ e' u', Run.on (run path executor) (w.limited limit') = (.error e', u') → e'.IsLimit →
        ∃ e u, Run.on (run path executor) (w.limited limit) = (.error e, u) ∧ e.IsLimit := by
  have houtlasts : Outlasts limit' (run path executor) (run path executor) (w.limited limit) :=
    outlasts_run hle path
  constructor
  · intro r u hrun hends
    refine houtlasts r u hrun ?_
    cases r with
    | ok => exact .ok ()
    | error e => exact hends e rfl
  · intro e' u' hrun' hlimit
    rcases hrun : Run.on (run path executor) (w.limited limit) with ⟨e | _, u⟩
    · by_cases he : e.IsLimit
      · exact ⟨e, u, rfl, he⟩
      -- it would have ended in the same way under the higher limit
      · have hsame := (houtlasts _ u hrun he).symm.trans hrun'
        obtain ⟨⟨⟩, -⟩ := Prod.mk.inj hsame
        exact absurd hlimit he
    · have hsame := (houtlasts _ u hrun (.ok ())).symm.trans hrun'
      obtain ⟨hsame, -⟩ := Prod.mk.inj hsame
      cases hsame

/-- A function that calls another one ends under a limit of two, and so it does the same under the
default limit; and a function that calls itself comes to the default limit, and so it comes to the
limit of two. -/
theorem ends_of_limit_le_stairs : ∃ (w u : World) (call cycle : FunctionPath),
    2 ≤ defaultMaxDepth ∧
    Run.on (run call none) (w.limited 2) = (.ok (), u.limited 2) ∧
    u.output = #[⟨none, "say hello"⟩] ∧
    Run.on (run call none) (w.limited defaultMaxDepth) = (.ok (), u.limited defaultMaxDepth) ∧
    (∃ e v, Run.on (run cycle none) (w.limited defaultMaxDepth) = (.error e, v) ∧ e.IsLimit) ∧
    ∃ e v, Run.on (run cycle none) (w.limited 2) = (.error e, v) ∧ e.IsLimit := by
  let call : FunctionPath := ⟨"stairs", "call"⟩
  let speak : FunctionPath := ⟨"stairs", "speak"⟩
  let cycle : FunctionPath := ⟨"stairs", "cycle"⟩
  let functions : List (FunctionPath × List Command) :=
    [(call, [.function speak]), (speak, [.raw "say hello"]), (cycle, [.function cycle])]
  let w : World :=
    { functions := Std.HashMap.ofList functions, tickFunctions := [], loadFunctions := [] }
  let u : World := { w with output := #[⟨none, "say hello"⟩] }
  have hbody : ∀ m, ∀ f ∈ functions, (w.limited m).functions[f.1]? = some f.2 := fun _ f hf =>
    Std.HashMap.getElem?_ofList_of_mem (beq_self_eq_true f.1) (by decide) hf
  -- the call goes two levels deep, which is just what the limit of two allows
  have hcalls : Does 2 (.function call) none (w.limited 2) (· = u.limited 2) := by
    refine Does.function (hbody 2 (call, _) List.mem_cons_self) (DoesAll.cons ?_)
    refine Does.function (hbody 2 (speak, _) (List.mem_cons_of_mem _ List.mem_cons_self))
      (DoesAll.cons ?_)
    exact Leads.of_on rfl (DoesAll.nil (DoesAll.nil rfl))
  obtain ⟨-, _, hruns, rfl⟩ := Leads.run_on hcalls (Nat.le_refl 2)
  -- the cycle is followed down to the last level and fails there
  have hcycle : ∃ e v, Run.on (run cycle none) (w.limited defaultMaxDepth) = (.error e, v) ∧
      e.IsLimit := by
    refine ⟨.recursionLimit cycle defaultMaxDepth, w.limited defaultMaxDepth, ?_, trivial⟩
    show Run.on (Bind.bind (get : Run World) _) _ = _
    rw [Run.on_bind_ok (Run.on_get _), Run.on_bind,
      callFunction_of_cycle (hbody _ (cycle, _) (List.mem_of_getLast? rfl))]
    rfl
  have hle : 2 ≤ defaultMaxDepth := by decide
  obtain ⟨e, v, hdeep, hlimit⟩ := hcycle
  exact ⟨w, u, call, cycle, hle, hruns, rfl,
    (ends_of_limit_le w call none hle).1 _ (u.limited 2) hruns (fun _ h => nomatch h),
    ⟨e, v, hdeep, hlimit⟩,
    (ends_of_limit_le w cycle none hle).2 e v hdeep hlimit⟩

end World

end Marionette
