import Marionette.Proofs.Instance.Controls

/-!
# Ticks

- `Instance.IsBeside`: something that an animation does not touch while it advances.
- `advanced_same`, `ticked_same`: a tick of the animation leaves it as it is.
- `Instance.IsLasting`, `onTicked_same`: what no tick touches at all.
- `Instance.Alone`: the instance is the only one of its rig.
- `Shows.select_roots`: then its root is what the rig picks.
- `Shows.run`, `Shows.tick`: a control, or a tick of the world, leads to the scene after it.
-/

namespace Marionette

/-- An item that passes a test alone is all that is left. -/
theorem filter_eq_singleton {α : Type} {p : α → Bool} {xs : List α} {n : Nat} {a : α}
    (hn : xs[n]? = some a) (ha : p a = true)
    (hothers : ∀ i x, i ≠ n → xs[i]? = some x → p x = false) : xs.filter p = [a] := by
  induction xs generalizing n with
  | nil => cases hn
  | cons x xs ih =>
    cases n with
    | zero =>
      obtain rfl : x = a := Option.some.inj hn
      have hnone : xs.filter p = [] := by
        refine List.filter_eq_nil_iff.2 fun y hy => ?_
        obtain ⟨i, hi⟩ := List.mem_iff_getElem?.1 hy
        simp [hothers (i + 1) y (Nat.succ_ne_zero i) hi]
      rw [List.filter_cons, if_pos ha, hnone]
    | succ n =>
      rw [List.filter_cons, hothers 0 x (Nat.succ_ne_zero n).symm rfl]
      exact ih hn fun i y hi hy => hothers (i + 1) y (fun h => hi (Nat.succ.inj h)) hy

/-- Picked are entities that are alive and have the type and the tag. -/
theorem Entity.matches_ofType_tagged (e : Entity) (entityType tag : String) :
    e.matches ((Selector.entities.ofType entityType).tagged tag) =
      (e.alive && entityType == e.entityType && e.hasTag tag) := by
  simp [Entity.matches, Selector.tagged, Selector.ofType, Selector.entities]

namespace Instance

/-! ### What ticks leave alone -/

section Laws

variable {I : Instance} {c : CompiledClip} {sc : Scene} {β : Type} {p : Scene → β}

/-- An animation does not touch this while it advances: neither its local time, its tag and the
scores that all animations share, nor what it shows and records have a part in it. -/
structure IsBeside (c : CompiledClip) (p : Scene → β) : Prop where
  time : ∀ v sc, p (sc.set (timeKey c) v) = p sc
  tween : ∀ v sc, p (sc.set .tween v) = p sc
  frame : ∀ v sc, p (sc.set .frame v) = p sc
  suppress : ∀ sc, p (sc.tag .suppress) = p sc
  release : ∀ sc, p (sc.untag .suppress) = p sc
  halt : ∀ sc, p (sc.untag (playingKey c)) = p sc
  relook : ∀ id g sc, p (sc.relook id g) = p sc
  say : ∀ id text sc, p (sc.say id text) = p sc

theorem stopped_same (h : IsBeside c p) (sc : Scene) : p (stopped I c sc) = p sc := by
  unfold stopped
  dsimp only
  rw [h.halt, h.release, dispatched_same p h.relook h.say, h.frame, h.suppress, h.tween, h.time]

theorem restarted_same (h : IsBeside c p) (sc : Scene) : p (restarted I c sc) = p sc := by
  have hsynced : ∀ sc, p (I.synced sc) = p sc := fun sc =>
    synced_same p fun id v sc => h.relook id _ sc
  unfold restarted
  dsimp only
  repeat' split
  all_goals simp only [hsynced, h.time]

theorem ended_same (h : IsBeside c p) (sc : Scene) : p (ended I c sc) = p sc := by
  have honce : ∀ sc, p (stoppedOnce I c sc) = p sc := by
    intro sc
    unfold stoppedOnce
    split
    · exact stopped_same h sc
    · rfl
  unfold ended held
  split
  · rw [h.halt, h.time, honce, restarted_same h]
  · rw [honce, restarted_same h]

/-- A tick of the animation leaves it as it is. -/
theorem advanced_same (h : IsBeside c p) (sc : Scene) : p (advanced I c sc) = p sc := by
  have hpassed : ∀ sc, p (passed I c sc) = p sc := by
    intro sc
    unfold passed
    split
    · exact ended_same h sc
    · rfl
  unfold advanced followed
  split
  · rw [dispatched_same p h.relook h.say, h.frame, hpassed, h.time]
  · rw [hpassed, h.time]

theorem ticked_same (h : IsBeside c p) (sc : Scene) : p (ticked I c sc) = p sc := by
  unfold ticked
  split
  · rfl
  · exact advanced_same h sc

theorem clipsTicked_same {clips : List CompiledClip} (h : ∀ c ∈ clips, IsBeside c p) (sc : Scene) :
    p (clipsTicked I clips sc) = p sc := by
  refine foldl_same p fun c hc sc => ?_
  split
  · exact ticked_same (h c hc) sc
  · rfl

/-- No tick of an instance touches this. -/
structure IsLasting (clips : List CompiledClip) (p : Scene → β) : Prop where
  beside : ∀ c ∈ clips, IsBeside c p
  lifetime : ∀ v sc, p (sc.set .lifetime v) = p sc
  tween : ∀ v sc, p (sc.set .tween v) = p sc
  interp : ∀ v sc, p (sc.set .interp v) = p sc
  relook : ∀ id g sc, p (sc.relook id g) = p sc

theorem tweened_same (h : IsLasting I.clips p) (sc : Scene) : p (tweened I sc) = p sc := by
  unfold tweened
  dsimp only
  rw [synced_same p fun id v sc => h.relook id _ sc]
  split
  · rw [h.interp, h.interp, h.tween]
  · rw [h.interp, h.tween]

theorem onTicked_same (h : IsLasting I.clips p) (sc : Scene) : p (onTicked I sc) = p sc := by
  unfold onTicked
  dsimp only
  split
  · rw [tweened_same h, clipsTicked_same h.beside, h.lifetime]
  · rw [clipsTicked_same h.beside, h.lifetime]

/-- The tag of roots stays. -/
theorem isLasting_root (clips : List CompiledClip) : IsLasting clips fun sc => sc.tagged .root :=
  ⟨fun _ _ => ⟨fun _ _ => rfl, fun _ _ => rfl, fun _ _ => rfl, fun _ => rfl, fun _ => rfl,
      fun _ => rfl, fun _ _ _ => rfl, fun _ _ _ => rfl⟩,
    fun _ _ => rfl, fun _ _ => rfl, fun _ _ => rfl, fun _ _ _ => rfl⟩

theorem onTicked_root (sc : Scene) : (onTicked I sc).tagged .root = sc.tagged .root :=
  onTicked_same (isLasting_root I.clips) sc

/-- Ticks set neither the length that was asked for the next tween nor a loop mode. -/
theorem isLasting_score {k : ScoreKey} (h : k = .tweenRequest ∨ ∃ a, k = .loopMode a)
    (clips : List CompiledClip) : IsLasting clips fun sc => sc.score k := by
  have hset : ∀ k', k' ≠ .tweenRequest → (∀ a, k' ≠ .loopMode a) → ∀ v (sc : Scene),
      (sc.set k' v).score k = sc.score k := by
    intro k' hrequest hmode v sc
    refine if_neg fun heq => ?_
    rcases h with rfl | ⟨a, rfl⟩
    · exact hrequest heq.symm
    · exact hmode a heq.symm
  exact ⟨fun c _ => ⟨hset _ nofun fun _ => nofun, hset _ nofun fun _ => nofun,
      hset _ nofun fun _ => nofun, fun _ => rfl, fun _ => rfl, fun _ => rfl, fun _ _ _ => rfl,
      fun _ _ _ => rfl⟩,
    hset _ nofun fun _ => nofun, hset _ nofun fun _ => nofun, hset _ nofun fun _ => nofun,
    fun _ _ _ => rfl⟩

end Laws

/-! ### Ticks of a world with one instance -/

/-- No other entity of the world is a root of the rig. -/
def Alone (I : Instance) (w : World) : Prop :=
  ∀ i e, ¬I.Owns i → w.entity? i = some e → e.matches I.stage.roots = false

variable {I : Instance} {w w' : World} {sc sc' : Scene} {d : Nat} {path : FunctionPath}

theorem Alone.of_keeps (h : I.Alone w) (hw : I.Keeps w w') : I.Alone w' := fun i e hi he =>
  h i e hi ((hw.entity? i hi).symm.trans he)

/-- The rig picks entities that are alive, have the type of a root and are tagged as one. -/
theorem matches_roots (s : Stage) (e : Entity) :
    e.matches s.roots =
      (e.alive && s.config.rootEntity == e.entityType && e.hasTag (s.names.tag .root)) :=
  e.matches_ofType_tagged _ _

theorem Shows.select_roots (hw : I.Shows w sc) (halone : I.Alone w)
    (hroot : sc.tagged .root = true) : w.select I.stage.roots none = [I.root] := by
  obtain ⟨e, he, hshows⟩ := hw.root
  have hmatch : e.matches I.stage.roots = true := by
    rw [matches_roots, hshows.alive, hshows.entityType, hshows.hasTag, hroot]
    simp
  have hothers : ∀ i e, i ≠ I.root → w.entities.toList[i]? = some e →
      e.matches I.stage.roots = false := by
    intro i e hi he
    rw [Array.getElem?_toList] at he
    by_cases howns : I.Owns i
    · obtain rfl | hr := howns
      · exact absurd rfl hi
      · obtain ⟨e', he', hrider⟩ := hw.riders i hr
        obtain rfl : e' = e := Option.some.inj (he'.symm.trans he)
        have htag : e'.hasTag (I.stage.names.tag .root) = false :=
          (hrider.hasTag _).trans (I.notRoot i hr)
        rw [matches_roots, htag, Bool.and_false]
    · exact halone i e howns he
  have hfilter : w.entities.toList.filter (fun e => e.matches I.stage.roots) = [e] :=
    filter_eq_singleton (n := I.root) (Array.getElem?_toList.trans he) hmatch hothers
  show (w.entities.toList.filter fun e => e.matches I.stage.roots).map (·.id) = _
  rw [hfilter, List.map_cons, hshows.id]
  rfl

/-- Running a function as the root leads to the scene after it. -/
theorem Shows.run (hw : I.Shows w sc) (hd : d ≤ defaultMaxDepth)
    (h : I.Takes d (some I.root) (.function path) sc sc') :
    ∃ w', Run.on (World.run path (some I.root)) w = (.ok (), w') ∧ I.Reaches w sc' w' := by
  have hdepth : d ≤ w.maxDepth := by
    rw [World.maxDepth_eq_of_setting hw.setting, I.hosts.maxDepth]
    exact hd
  obtain ⟨-, w', hrun, hreach⟩ := World.Leads.run_on (h w hw) hdepth
  exact ⟨w', hrun, hreach⟩

/-- The world runs the tick of the rig at every tick, and its objectives have been created. -/
structure Ticks (I : Instance) : Prop where
  tickFunctions : I.home.tickFunctions = [I.stage.function "tick"]
  lifetime : I.Has .lifetime
  tween : I.Has .tween
  interp : I.Has .interp

/-- A tick of the world is a tick of the instance. -/
theorem Shows.tick (hw : I.Shows w sc) (hI : I.Ticks) (halone : I.Alone w)
    (hroot : sc.tagged .root = true)
    (hplays : ∀ c ∈ I.clips, sc.tagged (playingKey c) = true → I.Runs c) :
    ∃ w', Run.on World.tick w = (.ok (), w') ∧ I.Reaches w (onTicked I sc) w' := by
  let w₁ : World := { w with gameTime := w.gameTime + 1 }
  have hw₁ : I.Shows w₁ sc := ⟨hw.setting, hw.root, hw.riders, hw.score, hw.output⟩
  have hselect : w₁.select I.stage.roots none = [I.root] := hw₁.select_roots halone hroot
  have hbody : World.Does 41 (.execute [.asEach I.stage.roots]
      (.function (I.stage.function "on_tick"))) none w₁ (I.Reaches w₁ (onTicked I sc)) :=
    World.Does.execute_asEach_single hselect (World.Does.execute_nil
      (Takes.onTick hI.lifetime hI.tween hI.interp hplays w₁ hw₁))
  have hcall : World.Does 42 (.function (I.stage.function "tick")) none w₁
      (I.Reaches w₁ (onTicked I sc)) :=
    World.Does.call hw₁.installs (Stage.mem_functions_of_tick (.tail _ <| .head _))
      (World.DoesAll.cons (World.Does.imp hbody fun _ => World.DoesAll.nil))
  have hdepth : 42 ≤ w₁.maxDepth := by
    rw [World.maxDepth_eq_of_setting hw₁.setting, I.hosts.maxDepth, defaultMaxDepth]
    omega
  obtain ⟨-, w', hrun, hreach⟩ := World.Leads.run_on hcall hdepth
  refine ⟨w', ?_, hreach.1, ?_⟩
  · have htick : w.tickFunctions = [I.stage.function "tick"] :=
      (World.tickFunctions_eq_of_setting hw.setting).trans hI.tickFunctions
    exact World.on_tick htick hrun
  · exact ⟨hreach.2.setting, hreach.2.size, hreach.2.entity?, hreach.2.score⟩

end Instance

end Marionette
