import Marionette.Proofs.Instance.Crowd
import Marionette.Proofs.Instance.Ticks
import Marionette.Proofs.Isolation.Roots

/-!
# Instances among others

Whatever callers did, a root and what it carries are an instance.  At a tick all roots have their
turns; those of the others leave an instance as it is, but for the commands that were recorded, and
where nothing advances on the others, not even such commands are added.

- `RunsOnly.exists_instance`: a root that rides nothing is that of an instance.
- `Stage.Populates`: all roots of a world are; `Compiles.populates`: so it is in every world that
  callers can reach.
- `Populates.run`, `Populates.tick`: a function, or a tick of the world, leads to the scene after
  it.
- `Populates.ticks`, `Populates.ticks_alone`: the same for ticks in a row.
-/

namespace Marionette

open World (Changes Does Reaches)

namespace Instance

variable {I J : Instance} {w w' : World} {sc sc' : Scene}

/-- Roots of the world other than that of the instance do not belong to it. -/
theorem Shows.entity?_of_ne (hI : I.Shows w' sc') (hkeeps : I.Keeps w w') {r : Nat}
    (hr : r ≠ I.root) (hroot : w'.IsRoot I.stage.names I.stage.config r) :
    w'.entity? r = w.entity? r :=
  hkeeps.entity? r fun howns => hr (hI.eq_root_of_owns howns hroot.hasTag)

/-- What was recorded is told by the world itself. -/
theorem Shows.said (h : I.Shows w sc) {output : List RawOutput}
    (houtput : w.output.toList = output) :
    I.Shows w { sc with output := output } :=
  ⟨h.setting, h.root, h.riders, h.score, houtput⟩

/-- A tick of an instance on which nothing advances neither starts anything nor records anything. -/
theorem onTicked_of_rest (h : ∀ c ∈ I.clips, sc.tagged (playingKey c) = false) :
    (onTicked I sc).tagged = sc.tagged ∧ (onTicked I sc).output = sc.output := by
  let aged := sc.set .lifetime ((sc.score .lifetime).getD 0 + 1)
  have hclips : clipsTicked I I.clips aged = aged := clipsTicked_none h
  have htweened : (tweened I aged).tagged = sc.tagged ∧ (tweened I aged).output = sc.output := by
    unfold tweened
    dsimp only
    rw [synced_tagged, synced_output]
    split <;> exact ⟨rfl, rfl⟩
  unfold onTicked
  dsimp only
  rw [hclips]
  split
  · exact htweened
  · exact ⟨rfl, rfl⟩

/-- Nothing advances on any other root. -/
def OthersRest (I : Instance) (w : World) : Prop :=
  ∀ r, r ≠ I.root → w.IsRoot I.stage.names I.stage.config r → ∀ c ∈ I.clips,
    w.hasTag r (I.stage.names.tag (playingKey c)) = false

/-- What an instance does itself starts nothing on the others. -/
theorem OthersRest.reach (h : I.OthersRest w) (hreach : I.Reaches w sc w') : I.OthersRest w' := by
  intro r hr hroot c hc
  have hsame := hreach.1.entity?_of_ne hreach.2 hr hroot
  rw [World.hasTag, hsame]
  obtain ⟨e, he, hrest⟩ := hroot
  exact h r hr ⟨e, hsame.symm.trans he, hrest⟩ c hc

end Instance

namespace Stage

variable {s : Stage} {clips : List CompiledClip} {w w' : World} {o : Output} {root : Nat}

/-- What can be seen of a root. -/
def sceneOf (s : Stage) (w : World) (root : Nat) : Scene where
  score k := w.score? root (s.names.score k)
  tagged k := w.hasTag root (s.names.tag k)
  look i := (w.entity? i).elim ⟨[], none⟩ Entity.look
  output := w.output.toList

/-- A root that rides nothing is that of an instance, if nothing that is tagged as a root rides
another entity. -/
theorem RunsOnly.exists_instance (h : s.RunsOnly clips w) (hfree : w.Unmounted s.names.rootTag)
    (hroot : w.IsRoot s.names s.config root) :
    ∃ I : Instance, I.stage = s ∧ I.clips = clips ∧ I.root = root ∧
    I.Shows w (s.sceneOf w root) := by
  obtain ⟨e, he, halive, htype, htag⟩ := hroot
  -- whoever rides the root is alive, and neither the root itself nor another root, as roots ride
  -- nobody
  have hrides : ∀ r ∈ e.passengers, ∃ p, w.entity? r = some p ∧ p.vehicle = some root ∧
      p.alive = true := fun r hr => World.Carries.vehicle_eq ⟨e, he, hr⟩ h.tied
  have hself : root ∉ e.passengers := by
    intro hmem
    obtain ⟨p, hp, hvehicle, -⟩ := hrides root hmem
    obtain rfl := Option.some.inj (he.symm.trans hp)
    cases (hfree root e he htag).symm.trans hvehicle
  have hnotRoot : ∀ r ∈ e.passengers, w.hasTag r s.names.rootTag = false := by
    intro r hr
    obtain ⟨p, hp, hvehicle, -⟩ := hrides r hr
    rw [World.hasTag, hp, Option.any_some, Bool.eq_false_iff]
    intro hmarked
    cases (hfree r p hp hmarked).symm.trans hvehicle
  -- the instance is read off the world
  let I : Instance := ⟨s, clips, w, root, e.passengers, w.hasTag, h.hosts,
    List.nodup_cons.2 ⟨hself, World.nodup_passengers h.tied he⟩, hnotRoot⟩
  refine ⟨I, rfl, rfl, rfl, rfl, ⟨e, he, ?_⟩, fun r hr => ?_, fun _ => rfl, rfl⟩
  · refine ⟨h.tied.numbered root e he, halive, htype, hfree root e he htag, rfl, fun k => ?_⟩
    show _ = w.hasTag root (s.names.tag k)
    rw [World.hasTag, he, Option.any_some]
  · obtain ⟨p, hp, hvehicle, hlives⟩ := hrides r hr
    refine ⟨p, hp, h.tied.numbered r p hp, hlives, hvehicle, fun t => ?_, ?_⟩
    · show _ = w.hasTag r t
      rw [World.hasTag, hp, Option.any_some]
    · show _ = (w.entity? r).elim _ _
      rw [hp]
      rfl

/-- All roots of the world are those of instances whose animations can run. -/
structure Populates (s : Stage) (clips : List CompiledClip) (w : World) : Prop where
  areCompiled : AreCompiled clips
  duration_le : ∀ c ∈ clips, c.clip.duration ≤ 2147483647
  runs : s.RunsOnly clips w
  shows : ∀ root, w.IsRoot s.names s.config root → ∃ (I : Instance) (sc : Scene), I.stage = s ∧
    I.clips = clips ∧ I.root = root ∧ I.Shows w sc

/-- So it is in every world that callers can reach. -/
theorem Compiles.populates (h : s.Compiles o) (hrig : s.rig.IsBuilt) {w₀ w₁ : World}
    (hw₀ : World.ofPack o.pack = .ok w₀) (hload : Run.on World.load w₀ = (.ok (), w₁))
    (hw : Reaches o.Offers w₁ w) : s.Populates o.clips w := by
  obtain ⟨hnow, hfree⟩ := h.runsOnly_of_reaches hrig hw₀ hload hw
  refine ⟨h.areCompiled, h.duration_le, hnow, fun root hroot => ?_⟩
  obtain ⟨I, hstage, hclips, hself, hI⟩ := hnow.exists_instance hfree hroot
  exact ⟨I, _, hstage, hclips, hself, hI⟩

namespace Populates

variable {I : Instance} {sc sc' : Scene} {d : Nat} {path : FunctionPath}

/-- The instance of a root of the rig, and what can be seen of it. -/
theorem exists_shows (h : s.Populates clips w) (hroot : w.IsRoot s.names s.config root) :
    ∃ (I : Instance) (sc : Scene), I.stage = s ∧ I.clips = clips ∧ I.root = root ∧ I.Shows w sc ∧
      sc.tagged .root = true := by
  obtain ⟨I, sc, rfl, rfl, rfl, hI⟩ := h.shows root hroot
  exact ⟨I, sc, rfl, rfl, rfl, hI, (hI.hasTag .root).symm.trans hroot.hasTag⟩

theorem isAble (h : I.stage.Populates I.clips w) (hI : I.Shows w sc) : I.IsAble := by
  refine ⟨h.areCompiled, h.duration_le, fun k hk => ?_⟩
  have ho := h.runs.hasObjective hk
  rwa [World.hasObjective, World.objectives_eq_of_setting hI.setting] at ho

/-- What an instance does leaves all other roots instances. -/
theorem reach (h : I.stage.Populates I.clips w) (hI : I.Shows w sc) (hreach : I.Reaches w sc' w')
    (hchanges : Changes w w') : I.stage.Populates I.clips w' := by
  refine ⟨h.areCompiled, h.duration_le, h.runs.changes hchanges, fun r hroot => ?_⟩
  by_cases hself : r = I.root
  · exact ⟨I, sc', rfl, rfl, hself.symm, hreach.1⟩
  · have hsame := hreach.1.entity?_of_ne hreach.2 hself hroot
    obtain ⟨e, he, hrest⟩ := hroot
    obtain ⟨J, scJ, hstage, hclips, rfl, hJ⟩ := h.shows r ⟨e, hsame.symm.trans he, hrest⟩
    exact ⟨J, _, hstage, hclips, rfl, hJ.keeps hI (Ne.symm hself) hreach.2⟩

/-- Running a function as the root leads to the scene after it. -/
theorem run (h : I.stage.Populates I.clips w) (hI : I.Shows w sc) (hd : d ≤ defaultMaxDepth)
    (htakes : I.Takes d (some I.root) (.function path) sc sc') :
    ∃ w', Run.on (World.run path (some I.root)) w = (.ok (), w') ∧ I.Reaches w sc' w' ∧
      I.stage.Populates I.clips w' := by
  have hdepth : d ≤ w.maxDepth := by
    rw [h.runs.hosts.maxDepth]
    exact hd
  have hdoes := htakes w hI
  obtain ⟨-, w', hrun, hreach, hchanges⟩ := World.Leads.run_on (hdoes.and hdoes.changes) hdepth
  exact ⟨w', hrun, hreach, h.reach hI hreach hchanges⟩

/-- The turn of an instance at a tick. -/
theorem turn (h : I.stage.Populates I.clips w) (hI : I.Shows w sc) :
    Does 41 (.function (I.stage.function "on_tick")) (some I.root) w fun w' =>
      I.Reaches w (Instance.onTicked I sc) w' ∧ I.stage.Populates I.clips w' := by
  have hable := h.isAble hI
  have hdoes := Instance.Takes.onTick (hable.has .lifetime trivial) (hable.has .tween trivial)
    (hable.has .interp trivial) (fun c hc _ => hable.runs hc) w hI
  exact (hdoes.and hdoes.changes).imp fun w' hw' => ⟨hw'.1, h.reach hI hw'.1 hw'.2⟩

/-- Roots stay roots. -/
theorem isRoot_turn (hI : I.Shows w sc) (hreach : I.Reaches w (Instance.onTicked I sc) w')
    (hroot : sc.tagged .root = true) {r : Nat} (hr : w.IsRoot I.stage.names I.stage.config r) :
    w'.IsRoot I.stage.names I.stage.config r :=
  Upholds.isRoot_of_turn hI hreach ((Instance.onTicked_root sc).trans hroot) hr

/-- The turn of another root leaves an instance as it is, but for the commands that were recorded;
it records none if nothing advances on that root. -/
theorem turn_of_ne (h : I.stage.Populates I.clips w) {r : Nat} (hr : r ≠ I.root)
    (hroot : w.IsRoot I.stage.names I.stage.config r) :
    Does 41 (.function (I.stage.function "on_tick")) (some r) w fun w' =>
      I.stage.Populates I.clips w' ∧
        (∀ sc, I.Shows w sc → I.Shows w' { sc with output := w'.output.toList }) ∧
        (∀ r, w.IsRoot I.stage.names I.stage.config r → w'.IsRoot I.stage.names I.stage.config r) ∧
        (I.OthersRest w → I.OthersRest w' ∧ w'.output = w.output) := by
  obtain ⟨J, scJ, hstage, hclips, rfl, hJ, htagged⟩ := h.exists_shows hroot
  rw [← hstage, ← hclips] at h
  have hturn := h.turn hJ
  rw [hstage, hclips] at hturn
  refine hturn.imp fun w' ⟨hreach, hpopulates⟩ =>
    ⟨hpopulates, fun sc hI => hI.keeps hJ hr hreach.2, fun r hroot => ?_, fun hrest => ?_⟩
  · rw [← hstage] at hroot ⊢
    exact isRoot_turn hJ hreach htagged hroot
  · -- nothing advances on this root either
    have hquiet : ∀ c ∈ J.clips, scJ.tagged (Instance.playingKey c) = false := by
      intro c hc
      rw [← hJ.hasTag, hstage]
      exact hrest J.root hr hroot c (hclips ▸ hc)
    obtain ⟨htags, houtput⟩ := Instance.onTicked_of_rest (I := J) hquiet
    refine ⟨fun r hne hisRoot c hc => ?_, ?_⟩
    · by_cases hself : r = J.root
      · subst hself
        rw [← hstage, hreach.1.hasTag, htags]
        exact hquiet c (hclips ▸ hc)
      · rw [← hstage] at hisRoot
        have hsame := hreach.1.entity?_of_ne hreach.2 hself hisRoot
        rw [World.hasTag, hsame]
        rw [hstage] at hisRoot
        obtain ⟨e, he, hshown⟩ := hisRoot
        exact hrest r hne ⟨e, hsame.symm.trans he, hshown⟩ c hc
    · rw [← Array.toList_inj, hreach.1.output, houtput, hJ.output]

/-- At a tick of the world an instance has its turn, before which and after which other roots may
have recorded commands.  Where nothing advances on the others, just the commands of the instance are
recorded. -/
theorem tick (h : I.stage.Populates I.clips w) (hI : I.Shows w sc)
    (hroot : sc.tagged .root = true) :
    ∃ w' said, Run.on World.tick w = (.ok (), w') ∧ I.stage.Populates I.clips w' ∧
      I.Shows w' { Instance.onTicked I { sc with output := said }
        with output := w'.output.toList } ∧
      (I.OthersRest w → I.OthersRest w' ∧ I.Shows w' (Instance.onTicked I sc)) := by
  -- while the turn of the instance is still to come its scene is the old one, and then the new one
  let Before (u : World) : Prop := I.Shows u { sc with output := u.output.toList } ∧
    (I.OthersRest w → I.OthersRest u ∧ I.Shows u sc)
  let After (u : World) : Prop := (∃ said, I.Shows u
      { Instance.onTicked I { sc with output := said } with output := u.output.toList }) ∧
    (I.OthersRest w → I.OthersRest u ∧ I.Shows u (Instance.onTicked I sc))
  let Inv (ids : List Nat) (u : World) : Prop := I.stage.Populates I.clips u ∧ ids.Nodup ∧
    (∀ id ∈ ids, u.IsRoot I.stage.names I.stage.config id) ∧
    (I.root ∈ ids ∧ Before u ∨ I.root ∉ ids ∧ After u)
  have hstep : ∀ id ids u, Inv (id :: ids) u →
      Does 41 (.function (I.stage.function "on_tick")) (some id) u (Inv ids) := by
    rintro id ids u ⟨hu, hnodup, hall, hnow⟩
    obtain ⟨hid, hids⟩ := List.nodup_cons.1 hnodup
    obtain ⟨hisRoot, hroots⟩ := List.forall_mem_cons.1 hall
    by_cases hself : id = I.root
    · -- the turn of the instance itself
      subst hself
      obtain ⟨-, hshown, hquiet⟩ | ⟨hnot, -⟩ := hnow
      · refine (hu.turn hshown).imp fun u' ⟨hreach, hu'⟩ => ⟨hu', hids, fun id hmem =>
          isRoot_turn hshown hreach hroot (hroots id hmem), .inr ⟨hid, ⟨_, hreach.1.said rfl⟩,
            fun hrest => ?_⟩⟩
        obtain ⟨hrest, hsame⟩ := hquiet hrest
        have houtput : { sc with output := u.output.toList } = sc := by rw [hsame.output]
        rw [houtput] at hreach
        exact ⟨hrest.reach hreach, hreach.1⟩
      · exact absurd List.mem_cons_self hnot
    · -- another root has its turn, before or after the instance
      have hmem : I.root ∈ id :: ids ↔ I.root ∈ ids := by simp [Ne.symm hself]
      rw [hmem] at hnow
      refine (hu.turn_of_ne hself hisRoot).imp fun u' ⟨hu', hshown', hstay, hsilent⟩ =>
        ⟨hu', hids, fun id hmem => hstay id (hroots id hmem), ?_⟩
      have hsame : ∀ {sc}, I.OthersRest u ∧ I.Shows u sc → I.OthersRest u' ∧ I.Shows u' sc := by
        rintro sc ⟨hrest, hshown⟩
        obtain ⟨hrest, houtput⟩ := hsilent hrest
        exact ⟨hrest, (hshown' sc hshown).said (by rw [houtput, hshown.output])⟩
      obtain ⟨hin, hshown, hquiet⟩ | ⟨hout, ⟨said, hshown⟩, hquiet⟩ := hnow
      · exact .inl ⟨hin, hshown' { sc with output := u.output.toList } hshown, fun hrest =>
          hsame (hquiet hrest)⟩
      · let ticked := Instance.onTicked I { sc with output := said }
        exact .inr ⟨hout, ⟨said, hshown' { ticked with output := u.output.toList } hshown⟩,
          fun hrest => hsame (hquiet hrest)⟩
  have hstart : ∀ next : World, next = { w with gameTime := w.gameTime + 1 } →
      I.stage.RunsOnly I.clips next → Inv (next.select I.stage.roots none) next := by
    rintro next hnext hruns
    have hsame : ∀ {J : Instance} {sc}, J.Shows w sc → J.Shows next sc := by
      rintro J sc hJ
      rw [hnext]
      exact ⟨hJ.setting, hJ.root, hJ.riders, hJ.score, hJ.output⟩
    have hroots : ∀ r, next.IsRoot I.stage.names I.stage.config r →
        w.IsRoot I.stage.names I.stage.config r := by
      rw [hnext]
      exact fun _ hr => hr
    refine ⟨⟨h.areCompiled, h.duration_le, hruns, fun r hr => ?_⟩, nodup_select_roots hruns.tied,
      fun id hid => (mem_select_roots hruns.tied).1 hid,
      .inl ⟨(mem_select_roots hruns.tied).2 ((hsame hI).isRoot hroot), (hsame hI).said rfl,
        fun hrest => ⟨?_, hsame hI⟩⟩⟩
    · obtain ⟨J, scJ, hstage, hclips, hself, hJ⟩ := h.shows r (hroots r hr)
      exact ⟨J, scJ, hstage, hclips, hself, hsame hJ⟩
    · rw [hnext]
      exact hrest
  obtain ⟨w', htick, hw', -, -, hnow⟩ := h.runs.tick_of_turns (by decide) hstep hstart
  obtain ⟨hin, -⟩ | ⟨-, ⟨said, hshown⟩, hquiet⟩ := hnow
  · cases hin
  · exact ⟨w', said, htick, hw', hshown, hquiet⟩

/-- What holds of the scene of an instance after ticks in a row, if each tick goes on with it,
whatever other roots record. -/
theorem ticks {P : Nat → Scene → Prop} {n : Nat} (h : I.stage.Populates I.clips w)
    (hI : I.Shows w sc) (hP : P 0 sc) (hroot : ∀ {k sc}, P k sc → sc.tagged .root = true)
    (hsaid : ∀ {k sc output}, P k sc → P k { sc with output := output })
    (hstep : ∀ {k sc}, k < n → P k sc → P (k + 1) (Instance.onTicked I sc)) :
    ∃ w' sc', Run.on (World.ticks n) w = (.ok (), w') ∧ I.stage.Populates I.clips w' ∧
      I.Shows w' sc' ∧ P n sc' := by
  induction n with
  | zero => exact ⟨w, sc, rfl, h, hI, hP⟩
  | succ n ih =>
    obtain ⟨w₁, sc₁, hticks, h₁, hI₁, hP₁⟩ := ih fun hk => hstep (Nat.lt_succ_of_lt hk)
    obtain ⟨w₂, said, htick, h₂, hI₂, -⟩ := h₁.tick hI₁ (hroot hP₁)
    refine ⟨w₂, _, ?_, h₂, hI₂, hsaid (hstep (Nat.lt_succ_self n) (hsaid hP₁))⟩
    rw [World.on_ticks_succ, Run.on_bind_ok hticks, htick]

/-- Where nothing advances on the others, ticks in a row are those of the instance. -/
theorem ticks_alone (h : I.stage.Populates I.clips w) (hI : I.Shows w sc)
    (hroot : sc.tagged .root = true) (hrest : I.OthersRest w) (n : Nat) :
    ∃ w', Run.on (World.ticks n) w = (.ok (), w') ∧ I.stage.Populates I.clips w' ∧ I.OthersRest w' ∧
      I.Shows w' ((Instance.onTicked I)^[n] sc) := by
  induction n generalizing w sc with
  | zero => exact ⟨w, rfl, h, hrest, hI⟩
  | succ n ih =>
    obtain ⟨w₁, -, htick, h₁, -, halone⟩ := h.tick hI hroot
    obtain ⟨hrest₁, hI₁⟩ := halone hrest
    obtain ⟨w₂, hticks, hall⟩ := ih h₁ hI₁ ((Instance.onTicked_root sc).trans hroot) hrest₁
    exact ⟨w₂, (Run.on_bind_ok htick).trans hticks, hall⟩

end Populates

end Stage

end Marionette
