import Marionette.World.Run
import Mathlib.Order.Defs.Unbundled

/-!
# What runs lead to

A run takes a world to a result and another world.  How deeply functions may call each other matters
only for runs that go deeper, so statements about runs leave the depth open.

- `Run.on`: the result of a run and the world that it leaves.
- `Run.Leaves`: whether or not it ends with an error, that world is related to the first one.
- `Leads`: from a world, with enough levels of calls left, a run ends without an error in a result
  and a world with a given property, which are the same for every number of levels.
- `Does`: the same for a command, whatever its result.
- One rule for each way in which runs are put together: `Leads.bind`, `Leads.runAll_cons`,
  `Leads.callFunction`, and `Does.execute_entity` and its like for the clauses.
-/

namespace Marionette

variable {α β : Type}

/-- The result of a run, and the world that it leaves. -/
def Run.on (x : Run α) (w : World) : Except SimError α × World :=
  StateT.run (ExceptT.run x) w

namespace Run

theorem on_pure (a : α) (w : World) : Run.on (pure a : Run α) w = (.ok a, w) := rfl

/-- A run goes on from the world that the run before it has left, unless that ended with an
error. -/
theorem on_bind (x : Run α) (f : α → Run β) (w : World) :
    Run.on (x >>= f) w = match Run.on x w with
      | (.ok a, w') => Run.on (f a) w'
      | (.error e, w') => (.error e, w') := by
  show (match x w with | (r, w') => (ExceptT.bindCont f r) w') = _
  unfold Run.on
  show _ = match x w with
    | (.ok a, w') => (f a) w'
    | (.error e, w') => (.error e, w')
  rcases x w with ⟨r | a, w'⟩ <;> rfl

/-- After a run without an error the world is the one that it has left. -/
theorem on_bind_ok {x : Run α} {f : α → Run β} {w w' : World} {a : α}
    (h : Run.on x w = (.ok a, w')) : Run.on (x >>= f) w = Run.on (f a) w' := by
  rw [on_bind, h]

theorem on_get (w : World) : Run.on (get : Run World) w = (.ok w, w) := rfl

theorem on_modify (f : World → World) (w : World) :
    Run.on (modify f : Run PUnit) w = (.ok ⟨⟩, f w) := rfl

theorem on_set (v w : World) : Run.on (set v : Run PUnit) w = (.ok ⟨⟩, v) := rfl

/-- Commands in order are the first ones and then the others. -/
theorem on_runAll_append (run : Command → Run Outcome) (as bs : List Command) (w : World) :
    Run.on (World.runAll run (as ++ bs)) w =
      Run.on (World.runAll run as >>= fun _ => World.runAll run bs) w := by
  induction as generalizing w with
  | nil => rfl
  | cons a as ih =>
    show Run.on (run a >>= fun _ => World.runAll run (as ++ bs)) w =
      Run.on ((run a >>= fun _ => World.runAll run as) >>= fun _ => World.runAll run bs) w
    rw [on_bind, on_bind, on_bind]
    rcases Run.on (run a) w with ⟨e | o, w'⟩
    · rfl
    · exact (ih w').trans (on_bind _ _ _)

/-- Whether or not the run ends with an error, the world that it leaves stands in a relation to the
first one. -/
def Leaves (R : World → World → Prop) (x : Run α) (w : World) : Prop :=
  R w (Run.on x w).2

namespace Leaves

variable {R : World → World → Prop} {w : World}

/-- The relation holds for the world that a run really leaves. -/
theorem of_on {x : Run α} {r : Except SimError α} {w' : World} (h : Leaves R x w)
    (hrun : Run.on x w = (r, w')) : R w w' := by
  unfold Leaves at h
  rwa [hrun] at h

/-- A run that looks at the world first. -/
theorem looking {f : World → Run β} (h : Leaves R (f w) w) : Leaves R (get >>= f) w := by
  unfold Leaves
  rw [Run.on_bind_ok (Run.on_get w)]
  exact h

variable [IsPreorder World R]

theorem nothing (a : α) : Leaves R (pure a : Run α) w :=
  Std.Refl.refl w

theorem failing (e : SimError) : Leaves R (throw e : Run α) w :=
  Std.Refl.refl w

/-- Where a run and the one that goes on from it both leave related worlds, so do they
together. -/
theorem bind {x : Run α} {f : α → Run β} (hx : Leaves R x w)
    (hf : ∀ a w', Run.on x w = (.ok a, w') → Leaves R (f a) w') : Leaves R (x >>= f) w := by
  unfold Leaves at hx ⊢
  rw [Run.on_bind]
  rcases hrun : Run.on x w with ⟨e | a, w'⟩
  · rwa [hrun] at hx
  · rw [hrun] at hx
    exact IsTrans.trans _ _ _ hx (hf a w' hrun)

/-- A run, and then another one that keeps to the relation from every world. -/
theorem andThen {x : Run α} {f : α → Run β} (hx : Leaves R x w) (hf : ∀ a w', Leaves R (f a) w') :
    Leaves R (x >>= f) w :=
  hx.bind fun a w' _ => hf a w'

/-- A run that changes the world first. -/
theorem changing {f : World → World} {x : PUnit → Run β} (hf : R w (f w))
    (hx : Leaves R (x ⟨⟩) (f w)) : Leaves R (modify f >>= x) w := by
  unfold Leaves
  rw [Run.on_bind_ok (Run.on_modify f w)]
  exact IsTrans.trans _ _ _ hf hx

end Leaves

end Run

namespace World

section Objectives

variable {w : World} {objective : String}

/-- An objective that is there is no hindrance. -/
theorem on_requireObjective (ho : w.hasObjective objective = true) :
    Run.on (requireObjective objective) w = (.ok (), w) := by
  show Run.on (Bind.bind (get : Run World) _) w = _
  rw [Run.on_bind_ok (Run.on_get w), ho]
  rfl

/-- An objective that is not there ends the run. -/
theorem on_requireObjective_of_not (ho : w.hasObjective objective = false) :
    Run.on (requireObjective objective) w = (.error (.unknownObjective objective), w) := by
  show Run.on (Bind.bind (get : Run World) _) w = _
  rw [Run.on_bind_ok (Run.on_get w), ho]
  rfl

/-- Asking for an objective changes nothing. -/
theorem eq_of_requireObjective {a : Unit} {w' : World}
    (h : Run.on (requireObjective objective) w = (.ok a, w')) : w' = w := by
  cases ho : w.hasObjective objective with
  | true => exact congrArg Prod.snd (h.symm.trans (on_requireObjective ho))
  | false =>
    rw [on_requireObjective_of_not ho] at h
    cases h

/-- Either way the world is left as it is. -/
theorem leaves_requireObjective {R : World → World → Prop} [IsPreorder World R] :
    Run.Leaves R (requireObjective objective) w := by
  refine .looking ?_
  split
  · exact .failing _
  · exact .nothing _

end Objectives

/-- From the world, with at least `d` levels of calls left, the run ends in a result and a world of
which `Q` holds; these do not depend on how many levels more there are. -/
def Leads (d : Nat) (x : Nat → Run α) (w : World) (Q : α → World → Prop) : Prop :=
  ∃ a w', (∀ n, d ≤ n → Run.on (x n) w = (.ok a, w')) ∧ Q a w'

/-- From the world, with at least `d` levels of calls left, the command ends in a world of which `Q`
holds. -/
def Does (d : Nat) (c : Command) (executor : Option Nat) (w : World) (Q : World → Prop) : Prop :=
  Leads d (fun n => runCommand (callFunction n) c executor) w fun _ w' => Q w'

/-- The same for commands in order. -/
def DoesAll (d : Nat) (cs : List Command) (executor : Option Nat) (w : World) (Q : World → Prop) :
    Prop :=
  Leads d (fun n => runAll (fun c => runCommand (callFunction n) c executor) cs) w fun _ w' => Q w'

variable {d e : Nat} {w : World} {executor : Option Nat} {c : Command} {cs : List Command}
  {rest : List Clause}

namespace Leads

variable {x : Nat → Run α} {f : Nat → α → Run β} {P Q : α → World → Prop} {R : β → World → Prop}

/-- A run that is the same for every depth. -/
theorem of_on {y : Run α} {a : α} {w' : World} (h : Run.on y w = (.ok a, w')) (hq : Q a w') :
    Leads d (fun _ => y) w Q :=
  ⟨a, w', fun _ _ => h, hq⟩

theorem pure {a : α} (h : Q a w) : Leads d (fun _ => Pure.pure a) w Q :=
  of_on (Run.on_pure a w) h

/-- Where a run leads on from wherever the one before it leads, both together do. -/
theorem bind (h : Leads d x w fun a w' => Leads d (fun n => f n a) w' R) :
    Leads d (fun n => x n >>= f n) w R := by
  obtain ⟨a, w', hx, b, w'', hf, hr⟩ := h
  refine ⟨b, w'', fun n hn => ?_, hr⟩
  rw [Run.on_bind_ok (hx n hn), hf n hn]

/-- A run that does not depend on the depth, followed by one that may. -/
theorem bind_on {y : Run α} {a : α} {w' : World} (h : Run.on y w = (.ok a, w'))
    (hf : Leads d (fun n => f n a) w' R) : Leads d (fun n => y >>= f n) w R :=
  bind (of_on h hf)

theorem imp (h : Leads d x w P) (hpq : ∀ a w', P a w' → Q a w') : Leads d x w Q := by
  obtain ⟨a, w', hx, hp⟩ := h
  exact ⟨a, w', hx, hpq a w' hp⟩

/-- A run that needs no more than some levels of calls needs no more than more of them. -/
theorem deeper (hde : d ≤ e) (h : Leads d x w Q) : Leads e x w Q := by
  obtain ⟨a, w', hx, hq⟩ := h
  exact ⟨a, w', fun n hn => hx n (Nat.le_trans hde hn), hq⟩

/-- Runs that agree on the world at every depth lead to the same. -/
theorem congr {y : Nat → Run α} (hxy : ∀ n, Run.on (x n) w = Run.on (y n) w)
    (h : Leads d y w Q) : Leads d x w Q := by
  obtain ⟨a, w', hy, hq⟩ := h
  exact ⟨a, w', fun n hn => (hxy n).trans (hy n hn), hq⟩

/-- A run ends in one way, so all that is known of its end holds together. -/
theorem and (h : Leads d x w P) (h' : Leads d x w Q) :
    Leads d x w fun a w' => P a w' ∧ Q a w' := by
  obtain ⟨a, w', hx, hp⟩ := h
  obtain ⟨a', w'', hx', hq⟩ := h'
  obtain ⟨ha, rfl⟩ := Prod.mk.inj ((hx d (Nat.le_refl d)).symm.trans (hx' d (Nat.le_refl d)))
  obtain rfl := Except.ok.inj ha
  exact ⟨a, w', hx, hp, hq⟩

/-- A run that keeps to a relation however it ends keeps to it if it ends without an error. -/
theorem leaving {R : World → World → Prop} (h : Leads d x w Q)
    (hleaves : ∀ n, Run.Leaves R (x n) w) : Leads d x w fun a w' => Q a w' ∧ R w w' := by
  obtain ⟨a, w', hx, hq⟩ := h
  exact ⟨a, w', hx, hq, (hleaves d).of_on (hx d (Nat.le_refl d))⟩

/-- A run that goes on only under a condition, and otherwise fails without an error. -/
theorem guard {b : Bool} {x : Nat → Run Outcome} {Q : Outcome → World → Prop}
    (h : if b then Leads d x w Q else Q none w) :
    Leads d (fun n => if b then x n else Pure.pure none) w Q := by
  cases b with
  | true => exact h
  | false => exact Leads.pure h

theorem runAll_nil {run : Nat → Command → Run Outcome} {R : Unit → World → Prop} (h : R () w) :
    Leads d (fun n => runAll (run n) []) w R :=
  pure h

/-- A list of commands leads wherever the rest leads from what its first command leaves. -/
theorem runAll_cons {run : Nat → Command → Run Outcome} {R : Unit → World → Prop}
    (h : Leads d (fun n => run n c) w fun _ w' => Leads d (fun n => runAll (run n) cs) w' R) :
    Leads d (fun n => runAll (run n) (c :: cs)) w R :=
  bind h

/-- A call goes one level down. -/
theorem callFunction {path : FunctionPath} {body : List Command} {Q : Outcome → World → Prop}
    (hf : w.functions[path]? = some body)
    (h : DoesAll d body executor w (Q (some (Int32.ofNat body.length)))) :
    Leads (d + 1) (fun n => World.callFunction n path executor) w Q := by
  obtain ⟨a, w', hx, hq⟩ := h
  refine ⟨_, w', fun n hn => ?_, hq⟩
  obtain ⟨m, rfl⟩ : ∃ m, n = m + 1 := ⟨n - 1, by omega⟩
  show Run.on (Bind.bind (get : Run World) _) w = _
  rw [Run.on_bind_ok (Run.on_get w), hf]
  exact (Run.on_bind_ok (hx m (by omega))).trans (Run.on_pure _ _)

/-- Goes on as several entities one after the other: what holds after each holds after all. -/
theorem fork {go : Nat → Option Nat → Run Outcome} {I : List Nat → World → Prop} {ids : List Nat}
    (hstep : ∀ id rest w, I (id :: rest) w →
      Leads d (fun n => go n (some id)) w fun _ w' => I rest w')
    (h : I ids w) (count : Nat) :
    Leads d (fun n => World.fork (go n) ids count) w fun _ w' => I [] w' := by
  induction ids generalizing w count with
  | nil => exact pure h
  | cons id rest ih =>
    refine bind ((hstep id rest w h).imp fun o w' hw' => ?_)
    exact ih hw' _

/-- A run that needs no more levels than a caller has is a run of that caller. -/
theorem run_on {path : FunctionPath} {Q : Outcome → World → Prop}
    (h : Leads d (fun n => World.callFunction n path executor) w Q) (hd : d ≤ w.maxDepth) :
    ∃ o w', Run.on (World.run path executor) w = (.ok (), w') ∧ Q o w' := by
  obtain ⟨o, w', hx, hq⟩ := h
  refine ⟨o, w', ?_, hq⟩
  show Run.on (Bind.bind (get : Run World) _) w = _
  rw [Run.on_bind_ok (Run.on_get w), Run.on_bind_ok (hx w.maxDepth hd)]
  exact Run.on_pure _ _

end Leads

/-- A tick at which one function runs. -/
theorem on_tick {path : FunctionPath} {w' : World} (hticks : w.tickFunctions = [path])
    (h : Run.on (run path none) { w with gameTime := w.gameTime + 1 } = (.ok (), w')) :
    Run.on tick w = (.ok (), w') := by
  let next : World := { w with gameTime := w.gameTime + 1 }
  have hnext : next.tickFunctions = [path] := hticks
  show Run.on (runEach next.tickFunctions) next = _
  rw [hnext]
  exact Run.on_bind_ok h

end World

end Marionette
