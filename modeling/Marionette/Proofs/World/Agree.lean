import Marionette.Proofs.World.Commands

/-!
# Two runs side by side

The same commands run in two worlds.  If the parts of the worlds that the commands look at agree,
the results agree, and so do these parts afterwards.

- `Run.Agree`: where two runs both end without an error, they have the same result and leave related
  worlds.
- One rule for each way in which runs are put together: `Agree.bind`, `Agree.looking`,
  `Agree.changing`, `Agree.guard`.
- `agree_fork`, `agree_runAll`: the rules for going on as several entities, and for commands in
  order.
-/

namespace Marionette

variable {α β : Type} {R S : World → World → Prop} {w w' : World}

namespace Run

/-- Where both runs end without an error, they have the same result and leave related worlds. -/
def Agree (R : World → World → Prop) (x x' : Run α) (w w' : World) : Prop :=
  ∀ a a' u u', Run.on x w = (.ok a, u) → Run.on x' w' = (.ok a', u') → a' = a ∧ R u u'

namespace Agree

/-- Two runs that do nothing keep to any relation between their worlds. -/
theorem nothing (a : α) (h : R w w') : Agree R (pure a) (pure a) w w' := by
  intro b b' u u' hb hb'
  cases (on_pure a w).symm.trans hb
  cases (on_pure a w').symm.trans hb'
  exact ⟨rfl, h⟩

/-- A run that ends with an error agrees with every other. -/
theorem failing (e : SimError) (x' : Run α) : Agree R (throw e) x' w w' :=
  fun _ _ _ _ hx => nomatch hx

/-- Runs that agree, and go on in agreement from worlds that their first parts may leave. -/
theorem bind {x x' : Run α} {f f' : α → Run β} (hx : Agree S x x' w w')
    (hf : ∀ a u u', S u u' → Agree R (f a) (f' a) u u') : Agree R (x >>= f) (x' >>= f') w w' := by
  intro b b' v v' hb hb'
  rw [on_bind] at hb hb'
  rcases hrun : Run.on x w with ⟨e | a, u⟩
  · rw [hrun] at hb
    cases hb
  · rcases hrun' : Run.on x' w' with ⟨e | a', u'⟩
    · rw [hrun'] at hb'
      cases hb'
    · rw [hrun] at hb
      rw [hrun'] at hb'
      obtain ⟨rfl, hu⟩ := hx a a' u u' hrun hrun'
      exact hf a' u u' hu b b' v v' hb hb'

/-- Runs that look at their worlds first. -/
theorem looking {f f' : World → Run β} (h : Agree R (f w) (f' w') w w') :
    Agree R (get >>= f) (get >>= f') w w' := by
  intro b b' v v' hb hb'
  rw [on_bind_ok (on_get w)] at hb
  rw [on_bind_ok (on_get w')] at hb'
  exact h b b' v v' hb hb'

/-- Runs that change their worlds first. -/
theorem changing {f g : World → World} {x x' : PUnit → Run β}
    (h : Agree R (x ⟨⟩) (x' ⟨⟩) (f w) (g w')) :
    Agree R (modify f >>= x) (modify g >>= x') w w' := by
  intro b b' v v' hb hb'
  rw [on_bind_ok (on_modify f w)] at hb
  rw [on_bind_ok (on_modify g w')] at hb'
  exact h b b' v v' hb hb'

/-- Runs that go on under the same condition. -/
theorem guard (b : Bool) {x x' : Run Outcome} (h : Agree R x x' w w') (hR : R w w') :
    Agree R (if b then x else pure none) (if b then x' else pure none) w w' := by
  cases b with
  | true => exact h
  | false => exact nothing none hR

end Agree

end Run

namespace World

open Run (Agree)

/-- Runs that ask for an objective first. -/
theorem agree_requireObjective {objective : String} {f f' : Unit → Run β}
    (h : Agree R (f ()) (f' ()) w w') :
    Agree R (requireObjective objective >>= f) (requireObjective objective >>= f') w w' := by
  refine .bind (S := fun u u' => u = w ∧ u' = w') (fun _ _ u u' hrun hrun' => ?_) ?_
  · exact ⟨rfl, eq_of_requireObjective hrun, eq_of_requireObjective hrun'⟩
  · rintro _ u u' ⟨rfl, rfl⟩
    exact h

/-- Going on as entities that correspond to each other. -/
theorem agree_fork {go go' : Option Nat → Run Outcome} {pairs : List (Nat × Nat)} {succeeded : Nat}
    (hgo : ∀ m ∈ pairs, ∀ w w', R w w' → Agree R (go (some m.1)) (go' (some m.2)) w w')
    (h : R w w') :
    Agree R (fork go (pairs.map Prod.fst) succeeded)
      (fork go' (pairs.map Prod.snd) succeeded) w w' := by
  induction pairs generalizing w w' succeeded with
  | nil => exact .nothing _ h
  | cons m rest ih =>
    obtain ⟨hm, hrest⟩ := List.forall_mem_cons.1 hgo
    exact (hm w w' h).bind fun _ u u' hu => ih hrest hu

/-- Commands that agree one by one agree in a row. -/
theorem agree_runAll {run run' : Command → Run Outcome} {cs : List Command}
    (hrun : ∀ c ∈ cs, ∀ w w', R w w' → Agree R (run c) (run' c) w w') (h : R w w') :
    Agree R (runAll run cs) (runAll run' cs) w w' := by
  induction cs generalizing w w' with
  | nil => exact .nothing _ h
  | cons c rest ih =>
    obtain ⟨hc, hrest⟩ := List.forall_mem_cons.1 hrun
    exact (hc w w' h).bind fun _ u u' hu => ih hrest hu

end World

end Marionette
