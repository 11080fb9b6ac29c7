import Marionette.Proofs.Isolation.Households
import Marionette.Proofs.World.Mirrors

/-!
# Ticks of an instance in company and alone

An instance among others goes through the same states as one in the same state that is alone in its
world: the ticks of the others do not touch it, and its own tick does not look at the others.

- `Stage.SideBySide`: an instance in company, and one in the same state that is alone.
- `RunsOnly.agree_call`: a function that is not wide does the same for both.
- `Mirrors.keepsTo`: what happens in another household keeps them in the same state.
- `SideBySide.tick`, `SideBySide.ticks`: after any number of ticks they are in the same state again.
-/

namespace Marionette

open World (Changes Does Runs KeepsTo Unmounted)

namespace World

/-- What rides nothing goes on riding nothing. -/
theorem IsFree.changes {w w' : World} {id : Nat} (h : w.IsFree id) (hlive : w.IsLiving id)
    (ht : Tied [] w.entities) (hc : Changes w w') : w'.IsFree id := by
  obtain ⟨e, he, -⟩ := hlive
  obtain ⟨e', he', hfree⟩ := hc.exists_free ht he (h e he)
  intro e'' he''
  obtain rfl := Option.some.inj (he'.symm.trans he'')
  exact hfree

/-- What keeps to the household of one entity makes nothing else a root. -/
theorem KeepsTo.isRoot {w w' : World} {v : RuntimeNames} {config : Config} {id root : Nat}
    (h : KeepsTo id w w') (hne : root ≠ id) (hroot : w'.IsRoot v config root) :
    w.IsRoot v config root := by
  obtain ⟨e', he', halive, htype, htag⟩ := hroot
  have hbare := h.bare root hne
  rw [he'] at hbare
  obtain ⟨e, he, hsame⟩ := Option.map_eq_some_iff.1 hbare.symm
  have htags : e.tags = e'.tags := (congrArg Entity.tags hsame :)
  refine ⟨e, he, (congrArg Entity.alive hsame :).trans halive,
    (congrArg Entity.entityType hsame :).trans htype, ?_⟩
  rwa [Entity.hasTag, htags]

/-- Of two entities that look the same, both are roots or none is. -/
theorem Likeness.isRoot_iff {w w' : World} {v : RuntimeNames} {config : Config} {m : Nat × Nat}
    (h : Likeness w w' m) : w'.IsRoot v config m.2 ↔ w.IsRoot v config m.1 := by
  have hany : ∀ (w : World) (i : Nat), w.IsRoot v config i ↔ (w.entity? i).any (fun e =>
      e.alive && e.entityType == config.rootEntity && e.hasTag v.rootTag) = true := by
    intro w i
    rw [Option.any_eq_true]
    simp only [Bool.and_eq_true, beq_iff_eq, and_assoc]
    rfl
  rw [hany, hany, h.any fun _ => rfl]

end World

namespace Pairing.Mirrors

variable {P : Pairing} {functions : Std.HashMap FunctionPath (List Command)} {w w' u : World}

/-- The passengers of the root are carried by it. -/
theorem carries (h : P.Mirrors functions w w') {m : Nat × Nat} (hm : m ∈ P.riders) :
    w.Carries P.root.1 m.1 := by
  obtain ⟨e, he, hpassengers⟩ := Option.map_eq_some_iff.1 h.passengers
  exact ⟨e, he, hpassengers ▸ List.mem_map_of_mem hm⟩

/-- What happens in another household keeps two instances in the same state. -/
theorem keepsTo (h : P.Mirrors functions w w') {id : Nat} (hkeeps : KeepsTo id w u)
    (hself : ∀ m ∈ P.root :: P.riders, m.1 ≠ id)
    (hcarried : ∀ m ∈ P.root :: P.riders, ¬w.Carries id m.1) : P.Mirrors functions u w' := by
  have hentity : ∀ m ∈ P.root :: P.riders, u.entity? m.1 = w.entity? m.1 := fun m hm =>
    hkeeps.entity? m.1 (hself m hm) (hcarried m hm)
  have hroot := hentity P.root List.mem_cons_self
  refine ⟨⟨?_, h.passengers', fun m hm => ⟨?_, fun objective => ?_⟩⟩, h.runs.keepsTo hkeeps,
    h.runs', ?_, fun text => ?_⟩
  · rw [hroot]
    exact h.passengers
  · rw [hentity m hm]
    exact (h.like m hm).seen
  · refine ((h.like m hm).score? objective).trans
      (hkeeps.score (.entity m.1) objective ?_ nofun).symm
    exact fun heq => hself m hm (Owner.entity.inj heq)
  · unfold World.IsLiving
    rw [hroot]
    exact h.living
  · rw [World.conditions_eq_of_setting hkeeps.setting]
    exact h.answers text

/-- Time passes in both worlds. -/
theorem clock (h : P.Mirrors functions w w') :
    P.Mirrors functions { w with gameTime := w.gameTime + 1 }
      { w' with gameTime := w'.gameTime + 1 } where
  passengers := h.passengers
  passengers' := h.passengers'
  like m hm := ⟨(h.like m hm).seen, (h.like m hm).score?⟩
  runs := ⟨h.runs.numbered, h.runs.functions⟩
  runs' := ⟨h.runs'.numbered, h.runs'.functions⟩
  living := h.living
  answers := h.answers

end Pairing.Mirrors

namespace Stage

variable {s : Stage} {clips : List CompiledClip} {P : Pairing}
  {functions : Std.HashMap FunctionPath (List Command)} {w w' u u' : World}

/-- A function that is not wide does the same for two instances in the same state. -/
theorem RunsOnly.agree_call (h : s.RunsOnly clips w) (hm : P.Mirrors functions w w')
    {path : FunctionPath} (hpath : ¬s.IsWide path) (depth : Nat) :
    Run.Agree (P.Mirrors functions) (World.callFunction depth path (some P.root.1))
      (World.callFunction depth path (some P.root.2)) w w' := by
  refine hm.agree_callFunction (fun path => ¬s.IsWide path) s.IsOrdinary
    (fun path body hbody hpath => ?_) hpath depth
  rw [← hm.runs.functions] at hbody
  rcases staysHome_functions (h.only path body hbody) hpath with hsync | hstays
  · obtain ⟨-, rfl⟩ := Prod.mk.inj hsync
    exact .inr fun n w w' hw => hw.agree_carry "#interp" s.names.interp "interpolation_duration"
  · exact .inl hstays

/-- An instance that may have others around it, and one in the same state that is alone in its
world. -/
structure SideBySide (s : Stage) (clips : List CompiledClip) (P : Pairing)
    (functions : Std.HashMap FunctionPath (List Command)) (w w' : World) : Prop where
  runs : s.RunsOnly clips w
  runs' : s.RunsOnly clips w'
  mirrors : P.Mirrors functions w w'
  unmounted : w.Unmounted s.names.rootTag
  free : w.IsFree P.root.1
  alone : ∀ root, w'.IsRoot s.names s.config root → root = P.root.2

/-- What a function leads to for one instance, it leads to for every other in the same state. -/
theorem RunsOnly.turn (h : s.RunsOnly clips w) (hm : P.Mirrors functions w w') {path : FunctionPath}
    {body : List Command} (hmem : (path, body) ∈ s.functions clips) (hpath : ¬s.IsWide path)
    (hsolo : Does 43 (.function path) (some P.root.2) w' (· = u')) :
    Does 43 (.function path) (some P.root.1) w (P.Mirrors functions · u') := by
  obtain ⟨e, he, -⟩ := hm.living
  obtain ⟨o, u, hrun, -⟩ := h.narrow hmem hpath (World.knows_of_entity? he)
  obtain ⟨o', v', hrun', rfl⟩ := hsolo
  obtain ⟨-, hu⟩ := h.agree_call hm hpath 43 o o' u v' (hrun 43 (Nat.le_refl _))
    (hrun' 43 (Nat.le_refl _))
  exact ⟨o, u, hrun, hu⟩

/-- The tick of another root keeps the two instances in the same state. -/
theorem RunsOnly.otherTurn (h : s.RunsOnly clips w) (hm : P.Mirrors functions w w')
    (hfree : w.IsFree P.root.1) {id : Nat} (hx : w.Knows (some id))
    (hself : ∀ m ∈ P.root :: P.riders, m.1 ≠ id) :
    Does 43 (.function (s.function "on_tick")) (some id) w fun u =>
      Changes w u ∧ P.Mirrors functions u w' := by
  refine (h.onTick hx).imp fun u hu => ⟨hu.1, hm.keepsTo hu.2 hself fun m hmem hcarries => ?_⟩
  rcases List.mem_cons.1 hmem with rfl | hrider
  · exact World.not_carries_of_isFree h.tied hfree hcarries
  · exact hself P.root List.mem_cons_self ((hm.carries hrider).unique hcarries h.tied).symm

/-- Alone, a tick of the world is the tick of the instance, if it is a root at all. -/
theorem RunsOnly.soloTick (h : s.RunsOnly clips w) {root : Nat}
    (halone : ∀ i, w.IsRoot s.names s.config i → i = root) {next : World}
    (hnext : next = { w with gameTime := w.gameTime + 1 }) :
    ∃ u, Run.on World.tick w = (.ok (), u) ∧
      (∀ i, u.IsRoot s.names s.config i → i = root) ∧
      (next.IsRoot s.names s.config root →
        Does 43 (.function (s.function "on_tick")) (some root) next (· = u)) ∧
      (¬next.IsRoot s.names s.config root → u = next) := by
  have hruns : s.RunsOnly clips next := by
    rw [hnext]
    exact h.changes World.Change.clock.once
  have halone : ∀ i, next.IsRoot s.names s.config i → i = root := by
    rw [hnext]
    exact halone
  -- the tick of the only root, if there is one, leads to a single world
  obtain ⟨u, hu, hturn, hskip⟩ : ∃ u, (∀ i, u.IsRoot s.names s.config i → i = root) ∧
      (next.IsRoot s.names s.config root →
        Does 43 (.function (s.function "on_tick")) (some root) next (· = u)) ∧
      (¬next.IsRoot s.names s.config root → u = next) := by
    by_cases hroot : next.IsRoot s.names s.config root
    · obtain ⟨o, u, hrun, -, hkeeps⟩ := hruns.onTick hroot.knows
      refine ⟨u, fun i hi => ?_, fun _ => ⟨o, u, hrun, rfl⟩, fun hnot => absurd hroot hnot⟩
      by_contra hne
      exact hne (halone i (hkeeps.isRoot hne hi))
    · exact ⟨next, halone, fun hyes => absurd hyes hroot, fun _ => rfl⟩
  let Inv (ids : List Nat) (v : World) : Prop :=
    (ids = [root] ∧ v = next ∧ next.IsRoot s.names s.config root) ∨ ids = [] ∧ v = u
  have hstep : ∀ id ids v, Inv (id :: ids) v →
      Does 43 (.function (s.function "on_tick")) (some id) v (Inv ids) := by
    rintro id ids v (⟨hids, rfl, hroot⟩ | ⟨hids, -⟩)
    · obtain ⟨rfl, rfl⟩ := List.cons.inj hids
      exact (hturn hroot).imp fun _ hw' => .inr ⟨rfl, hw'⟩
    · cases hids
  have hstart : Inv (next.select s.roots none) next := by
    have hnodup := nodup_select_roots (s := s) hruns.tied
    have hmem : ∀ i, i ∈ next.select s.roots none ↔ next.IsRoot s.names s.config i := fun i =>
      mem_select_roots hruns.tied
    rcases hselect : next.select s.roots none with - | ⟨i, rest⟩
    · refine .inr ⟨rfl, (hskip fun hroot => ?_).symm⟩
      have hnot := (hmem root).2 hroot
      rw [hselect] at hnot
      cases hnot
    · rw [hselect] at hnodup hmem
      have hi := (hmem i).1 List.mem_cons_self
      obtain rfl : i = root := halone i hi
      obtain ⟨hnot, -⟩ := List.nodup_cons.1 hnodup
      have hrest : rest = [] := List.eq_nil_iff_forall_not_mem.2 fun j hj => by
        obtain rfl := halone j ((hmem j).1 (List.mem_cons_of_mem _ hj))
        exact hnot hj
      exact .inl ⟨by rw [hrest], rfl, hi⟩
  obtain ⟨v, htick, hv⟩ := h.tick_of_turns (by decide) hstep fun next' hnext' _ => by
    rwa [hnext', ← hnext]
  obtain rfl : v = u := (hv.resolve_left fun hnot => nomatch hnot.1).2
  exact ⟨v, htick, hu, hturn, hskip⟩

namespace SideBySide

/-- After a tick the two instances are in the same state again. -/
theorem tick (h : s.SideBySide clips P functions w w') :
    ∃ u u', Run.on World.tick w = (.ok (), u) ∧ Run.on World.tick w' = (.ok (), u') ∧
      s.SideBySide clips P functions u u' := by
  obtain ⟨next', hnext'⟩ : ∃ next' : World, next' = { w' with gameTime := w'.gameTime + 1 } :=
    ⟨_, rfl⟩
  obtain ⟨u', hsolo, halone, hturn, hskip⟩ := h.runs'.soloTick h.alone hnext'
  -- whoever is still to come is not one of the passengers
  let Inv (ids : List Nat) (v : World) : Prop :=
    ids.Nodup ∧ (∀ id ∈ ids, v.Knows (some id) ∧ ∀ m ∈ P.riders, m.1 ≠ id) ∧
      (P.root.1 ∈ ids → next'.IsRoot s.names s.config P.root.2) ∧
      s.RunsOnly clips v ∧ v.IsFree P.root.1 ∧
      P.Mirrors functions v (if P.root.1 ∈ ids then next' else u')
  have hstep : ∀ id ids v, Inv (id :: ids) v →
      Does 43 (.function (s.function "on_tick")) (some id) v (Inv ids) := by
    rintro id ids v ⟨hdistinct, hids, hroot, hruns, hfree, hm⟩
    obtain ⟨hid, hnodup⟩ := List.nodup_cons.1 hdistinct
    obtain ⟨⟨hx, hriders⟩, hrest⟩ := List.forall_mem_cons.1 hids
    have hlater : ∀ {v' : World}, Changes v v' →
        P.Mirrors functions v' (if P.root.1 ∈ ids then next' else u') → Inv ids v' := by
      intro v' hc hm'
      exact ⟨hnodup, fun i hi => ⟨(hrest i hi).1.changes hruns.tied hc, (hrest i hi).2⟩,
        fun hin => hroot (List.mem_cons_of_mem _ hin), hruns.changes hc,
        hfree.changes hm.living hruns.tied hc, hm'⟩
    by_cases hself : id = P.root.1
    · rw [if_pos (hself ▸ List.mem_cons_self)] at hm
      have hdone := hruns.turn hm (mem_functions_of_tick (.tail _ <| .tail _ <| .head _))
        (not_isWide_function (by decide)) (hturn (hroot (hself ▸ List.mem_cons_self)))
      rw [← hself] at hdone
      refine Does.imp (hdone.and hdone.changes) fun v' hv' => hlater hv'.2 ?_
      rw [if_neg (hself ▸ hid)]
      exact hv'.1
    · simp only [List.mem_cons, or_iff_right (Ne.symm hself)] at hm
      refine (hruns.otherTurn hm hfree hx fun m hmem => ?_).imp fun v' hv' => hlater hv'.1 hv'.2
      rcases List.mem_cons.1 hmem with rfl | hrider
      · exact Ne.symm hself
      · exact hriders m hrider
  obtain ⟨u, htick, -, -, -, hruns, hfree, hm⟩ := h.runs.tick_of_turns (by decide) hstep
    fun next hnext hruns => by
      have hm : P.Mirrors functions next next' := by
        rw [hnext, hnext']
        exact h.mirrors.clock
      have hfree : next.IsFree P.root.1 := by
        rw [hnext]
        exact h.free
      have hunmounted : next.Unmounted s.names.rootTag := by
        rw [hnext]
        exact h.unmounted
      have hsame : next'.IsRoot s.names s.config P.root.2 ↔
          P.root.1 ∈ next.select s.roots none := by
        rw [mem_select_roots hruns.tied]
        exact (hm.like P.root List.mem_cons_self).isRoot_iff
      refine ⟨nodup_select_roots hruns.tied, fun id hid => ⟨fun i hi => ?_, fun m hrider => ?_⟩,
        hsame.2, hruns, hfree, ?_⟩
      · obtain rfl := Option.some.inj hi
        exact hruns.serves.lt_of_mem_select hid
      · rintro rfl
        have hid := ((mem_select_roots hruns.tied).1 hid).isFree hunmounted
        exact World.not_carries_of_isFree hruns.tied hid (hm.carries hrider)
      · split
        · exact hm
        · next hout =>
          rw [hskip fun hroot => hout (hsame.1 hroot)]
          exact hm
  rw [if_neg List.not_mem_nil] at hm
  have hunmounted := h.runs.unmounted_tick h.unmounted
  rw [htick] at hunmounted
  have hruns' : s.RunsOnly clips u' := by
    have hmakes : Changes w' (Run.on World.tick w').2 := World.makes_tick
    rw [hsolo] at hmakes
    exact h.runs'.changes hmakes
  exact ⟨u, u', htick, hsolo, hruns, hruns', hm, hunmounted, hfree, halone⟩

/-- So they are after any number of ticks. -/
theorem ticks (h : s.SideBySide clips P functions w w') (count : Nat) :
    ∃ u u', Run.on (World.ticks count) w = (.ok (), u) ∧
    Run.on (World.ticks count) w' = (.ok (), u') ∧
      s.SideBySide clips P functions u u' := by
  induction count generalizing w w' with
  | zero => exact ⟨w, w', rfl, rfl, h⟩
  | succ count ih =>
    obtain ⟨v, v', htick, htick', hv⟩ := h.tick
    obtain ⟨u, u', hticks, hticks', hu⟩ := ih hv
    exact ⟨u, u', (Run.on_bind_ok htick).trans hticks, (Run.on_bind_ok htick').trans hticks', hu⟩

end SideBySide

end Stage

end Marionette
