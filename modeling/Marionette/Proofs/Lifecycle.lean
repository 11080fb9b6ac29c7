import Marionette.Proofs.Instance.Interpolation
import Marionette.Proofs.Instance.Ranges
import Marionette.Proofs.Isolation.Crews
import Marionette.Proofs.Seeking

/-!
# Summoning and removing instances

Summoning adds one instance to a world and leaves everything else in it alone; removing takes one
instance away, and leaves everything else alone too.

- `World.PicksOnly`: clauses lead to one entity only; `HasCrew.picksOnly`: so do those for a node,
  from a root that has its crew.
- `World.IsAtStart`: the scores with which an instance starts; `World.IsNewBody`: one of its
  passengers.
- `World.Gains`: a world has got one instance more; `SummonsTo.gains`: so it is after summoning.
- `lifecycle_of_compile`: in every world that callers can reach, summoning adds an instance and
  removing takes one away, for everything that is compiled; `lifecycle_of_dolly`: a single camera.
-/

namespace Marionette

namespace World

variable {go behind : Option Nat → Run Outcome} {ids : List Nat} {id root : Nat} {w w' : World}
  {outcome : Outcome}

/-! ### The entity of a node -/

/-- If nothing happens as any of several entities, nothing happens at all. -/
theorem fork_none (h : ∀ i ∈ ids, Run.on (go (some i)) w = (.ok none, w)) (count : Nat) :
    Run.on (fork go ids count) w = (.ok (.ofCount count), w) := by
  induction ids with
  | nil => rfl
  | cons i rest ih =>
    obtain ⟨hi, hrest⟩ := List.forall_mem_cons.1 h
    exact (Run.on_bind_ok hi).trans (ih hrest)

/-- If something happens as one of them only, that is all that happens. -/
theorem fork_single (hid : id ∈ ids) (hnodup : ids.Nodup)
    (hgo : Run.on (go (some id)) w = (.ok outcome, w'))
    (hothers : ∀ i ∈ ids, i ≠ id → ∀ u, u = w ∨ u = w' → Run.on (go (some i)) u = (.ok none, u)) :
    Run.on (fork go ids 0) w = (.ok (outcome.map fun _ => 1), w') := by
  induction ids with
  | nil => cases hid
  | cons i rest ih =>
    obtain ⟨hi, hrest⟩ := List.nodup_cons.1 hnodup
    by_cases hself : i = id
    · subst hself
      have hlater : ∀ j ∈ rest, Run.on (go (some j)) w' = (.ok none, w') := fun j hj =>
        hothers j (List.mem_cons_of_mem i hj) (fun heq => hi (heq ▸ hj)) w' (.inr rfl)
      refine (Run.on_bind_ok hgo).trans ((fork_none hlater _).trans ?_)
      cases outcome <;> rfl
    · have hskip := hothers i List.mem_cons_self hself w (.inl rfl)
      have hlater : id ∈ rest := (List.mem_cons.1 hid).resolve_left (Ne.symm hself)
      exact (Run.on_bind_ok hskip).trans
        (ih hlater hrest fun j hj => hothers j (List.mem_cons_of_mem i hj))

/-- A test of a tag of the executing entity. -/
theorem on_ifTagged (hl : w.IsLiving id) (tag : String) :
    Run.on (runClauses behind [.ifEntity (Selector.this.tagged tag)] (some id)) w =
      if w.hasTag id tag then Run.on (behind (some id)) w else (.ok none, w) := by
  show Run.on (Bind.bind (get : Run World) _) w = _
  rw [Run.on_bind_ok (Run.on_get w), select_this_tagged hl]
  cases w.hasTag id tag <;> rfl

/-- Clauses lead from an entity to one entity only: what is behind them runs once and as that
entity, if it changes no more than looks. -/
def PicksOnly (w : World) (clauses : List Clause) (executor id : Nat) : Prop :=
  ∀ (behind : Option Nat → Run Outcome) (outcome : Outcome) (w' : World),
    Run.on (behind (some id)) w = (.ok outcome, w') → OnlyLooks w w' →
      Run.on (runClauses behind clauses (some executor)) w = (.ok (outcome.map fun _ => 1), w')

/-- From a root that has its crew, the clauses for a node lead to the entity of that node. -/
theorem HasCrew.picksOnly {s : Stage} (h : w.HasCrew s.names s.rig root) (ht : Tied [] w.entities)
    (hnames : (s.rig.slots.toList.map (·.storageName)).Nodup) {slot : Slot}
    (hslot : slot ∈ s.rig.slots.toList) (hbody : w.IsBody s.names s.rig root slot id) :
    w.PicksOnly (s.onNode slot.storageName) root id := by
  intro behind outcome w' hbehind hlooks
  obtain ⟨e, he, hid⟩ := hbody.rides
  have htag : w.hasTag id (s.names.nodeTag slot.storageName) = true :=
    (hbody.hasTag slot hslot).trans (decide_eq_true rfl)
  have hself : Run.on (runClauses behind
      [.ifEntity (Selector.this.tagged (s.names.nodeTag slot.storageName))] (some id)) w =
        (.ok outcome, w') := by
    rw [on_ifTagged (hbody.rides.isLiving ht), if_pos htag, hbehind]
  -- the others do not pass the test, before and after
  have hothers : ∀ i ∈ e.passengers, i ≠ id → ∀ u, u = w ∨ u = w' → Run.on (runClauses behind
      [.ifEntity (Selector.this.tagged (s.names.nodeTag slot.storageName))] (some i)) u =
        (.ok none, u) := by
    intro i hi hne u hu
    have hcarried : w.Carries root i := ⟨e, he, hi⟩
    have hbare : ¬w.hasTag i (s.names.nodeTag slot.storageName) = true := fun hmarked =>
      hne (h.unique hnames hslot hcarried hbody.rides hmarked htag)
    have hsame : OnlyLooks w u := by
      rcases hu with rfl | rfl
      · exact .refl _
      · exact hlooks
    rw [on_ifTagged (hsame.isLiving (hcarried.isLiving ht)), hsame.hasTag, if_neg hbare]
  have hriders : ((some root).toList.flatMap fun id => (w.passengers id).map (·.id)) =
      e.passengers := by
    simpa using passengers_eq ht he
  show Run.on (Bind.bind (get : Run World) _) w = _
  rw [Run.on_bind_ok (Run.on_get w)]
  exact (congrArg (fun ids => Run.on (fork _ ids 0) w) hriders).trans
    (fork_single hid (nodup_passengers ht he) hself hothers)

/-! ### What summoning adds -/

/-- The scores of a root are those with which an instance starts. -/
structure IsAtStart (w : World) (v : RuntimeNames) (config : Config) (clips : List CompiledClip)
    (root : Nat) : Prop where
  frame : w.score? root (v.score .frame) = some 0
  tween : w.score? root (v.score .tween) = some 0
  lifetime : w.score? root (v.score .lifetime) = some 0
  interp : (w.score? root (v.score .interp)).map Int32.toInt =
    some (config.interpolationDuration : Int)
  localTime : ∀ c ∈ clips, w.score? root (v.score (.localTime c.clip.storageName)) = some 0
  loopMode : ∀ c ∈ clips,
    w.score? root (v.score (.loopMode c.clip.storageName)) = some c.clip.loopMode.score

/-- A new passenger of a root: it is the living entity of a node, and the clauses for the node lead
to it alone. -/
structure IsNewBody (w u : World) (v : RuntimeNames) (rig : Rig) (root : Nat) (slot : Slot)
    (id : Nat) :
    Prop extends u.IsBody v rig root slot id where
  isNew : w.entity? id = none
  isLiving : u.IsLiving id
  picked : ∀ s : Stage, s.names = v → u.PicksOnly (s.onNode slot.storageName) root id

/-- A world has got one instance more: a new root with one new passenger for each node that has an
entity, and its scores are set.  No other entity has changed, nor has a score of one. -/
structure Gains (w : World) (v : RuntimeNames) (rig : Rig) (config : Config)
    (clips : List CompiledClip) (root : Nat) (u : World) : Prop where
  isNew : w.entity? root = none
  isRoot : u.IsRoot v config root
  settled : u.hasTag root v.newTag = false
  isAtStart : u.IsAtStart v config clips root
  crew : ∃ e, u.entity? root = some e ∧ e.passengers.Nodup ∧
    List.Forall₂ (w.IsNewBody u v rig root) (bodySlots rig) e.passengers
  nobodyElse : ∀ i, (u.entity? i).isSome → (w.entity? i).isSome ∨ u.Houses root i
  entity? : ∀ i, (w.entity? i).isSome → u.entity? i = w.entity? i
  score? : ∀ i, i ≠ root → ∀ objective, u.score? i objective = w.score? i objective

end World

namespace Stage

open World (Gains IsAtStart IsNewBody Loses Reaches)

variable {s : Stage} {clips : List CompiledClip} {w u w₀ w₁ : World} {o : Output} {root : Nat}

namespace SummonsTo

/-- The new instance shows what its function leaves of the first scene. -/
theorem shows (hu : s.SummonsTo w u) (h : s.RunsOnly clips w) (hsettled : s.IsSettled w) :
    (newInstance h.hosts).Shows u (Instance.initiated (newInstance h.hosts) (s.firstScene w)) := by
  obtain ⟨w', hsummon, hshows, -⟩ := h.hosts.summon (fun k hk => h.hasObjective hk) hsettled
  rw [hu.run] at hsummon
  obtain rfl : u = w' := congrArg Prod.snd hsummon
  exact hshows

theorem isAtStart (hu : s.SummonsTo w u) (h : s.RunsOnly clips w) (hsettled : s.IsSettled w)
    (hclips : (clips.map (·.clip.storageName)).Nodup)
    (hduration : s.config.interpolationDuration ≤ 2147483647) :
    u.IsAtStart s.names s.config clips w.entities.size := by
  have hscore : ∀ k, u.score? w.entities.size (s.names.score k) =
      (Instance.initiated (newInstance h.hosts) (s.firstScene w)).score k :=
        (hu.shows h hsettled).score
  have hstart : ∀ {k : ScoreKey}, (∀ a, k ≠ .localTime a) → (∀ a, k ≠ .loopMode a) →
      u.score? w.entities.size (s.names.score k) =
        (((((s.firstScene w).set .lifetime 0).set .frame 0).set .tween 0).set .interp
          s.defaultInterp).score k := fun htime hmode =>
    (hscore _).trans (Scene.IsTimed.initiated_score htime hmode _)
  constructor
  case frame => exact hstart (by simp) (by simp)
  case tween => exact hstart (by simp) (by simp)
  case lifetime => exact hstart (by simp) (by simp)
  case interp =>
    have hinterp : u.score? w.entities.size (s.names.score .interp) = some s.defaultInterp :=
      hstart (by simp) (by simp)
    rw [hinterp, Option.map_some, defaultInterp, Int32.toInt_ofNat_of_lt (by omega)]
  case localTime => exact fun c hc => (hscore _).trans (Scene.IsInRange.settled_time (.inr hc))
  case loopMode => exact fun c hc => (hscore _).trans (Instance.settled_mode hc hclips)

/-- The passengers of the new root come right after it. -/
theorem carries_iff (hu : s.SummonsTo w u) (h : s.RunsOnly clips w)
    (hsettled : s.IsSettled w) {p : Nat} :
    u.Carries w.entities.size p ↔ p ∈ List.range' (w.entities.size + 1) s.bodies.length :=
  (hu.shows h hsettled).carries_iff p

/-- Nothing but the root and its passengers is new. -/
theorem houses_of_le (hu : s.SummonsTo w u) (h : s.RunsOnly clips w)
    (hsettled : s.IsSettled w) {i : Nat} {e : Entity} (he : u.entity? i = some e)
    (hi : w.entities.size ≤ i) :
    u.Houses w.entities.size i := by
  refine or_iff_not_imp_left.2 fun hne => (hu.carries_iff h hsettled).2 ?_
  obtain ⟨e', he', -⟩ := World.exists_core_before hu.keeps.core he
  rw [entity?_summoned, if_neg (Nat.not_lt.2 hi), if_neg hne] at he'
  obtain ⟨b, hb, -⟩ := Option.map_eq_some_iff.1 he'
  have hplace := (List.getElem?_eq_some_iff.1 hb).1
  exact List.mem_range'_1.2 (by omega)

/-- The passengers are the new entities of the nodes. -/
theorem isNewBody (hu : s.SummonsTo w u) (h : s.RunsOnly clips w) (hsettled : s.IsSettled w)
    (hcrew : u.HasCrew s.names s.rig w.entities.size) (ht : Tied [] u.entities)
    (hnames : (s.rig.slots.toList.map (·.storageName)).Nodup) {slot : Slot}
    (hslot : slot ∈ s.rig.slots.toList) {p : Nat}
    (hbody : u.IsBody s.names s.rig w.entities.size slot p) :
    w.IsNewBody u s.names s.rig w.entities.size slot p := by
  refine ⟨hbody, Array.getElem?_eq_none ?_, hbody.rides.isLiving ht, fun s' hs' => ?_⟩
  · have hplace := List.mem_range'_1.1 ((hu.carries_iff h hsettled).1 hbody.rides)
    omega
  · have hclauses : s'.onNode slot.storageName = s.onNode slot.storageName := by
      rw [onNode, hs', onNode]
    rw [hclauses]
    exact hcrew.picksOnly ht hnames hslot hbody

/-- So summoning adds an instance. -/
theorem gains (hu : s.SummonsTo w u) (h : s.RunsOnly clips w) (hsettled : s.IsSettled w)
    (hintact : s.IsIntact u) (ht : Tied [] u.entities)
    (hnames : (s.rig.slots.toList.map (·.storageName)).Nodup)
    (hclips : (clips.map (·.clip.storageName)).Nodup)
    (hduration : s.config.interpolationDuration ≤ 2147483647) :
    w.Gains s.names s.rig s.config clips w.entities.size u := by
  have hcrew := hintact.hasCrew _ hu.isRoot
  constructor
  case isNew => exact Array.getElem?_eq_none (Nat.le_refl _)
  case isRoot => exact hu.isRoot
  case settled => exact ((hu.shows h hsettled).hasTag .new).trans (by simp [Instance.initiated])
  case isAtStart => exact hu.isAtStart h hsettled hclips hduration
  case crew =>
    -- each slot with an entity has one passenger, in the order of the rig
    obtain ⟨e, he, hbodies⟩ := hcrew.crew
    have hslots : ∀ slot ∈ World.bodySlots s.rig, slot ∈ s.rig.slots.toList := fun slot hslot =>
      (List.mem_filter.1 hslot).1
    refine ⟨e, he, World.nodup_passengers ht he,
      ((List.forall₂_and_left _ _).2 ⟨hslots, hbodies⟩).imp ?_⟩
    exact fun slot p hboth => hu.isNewBody h hsettled hcrew ht hnames hboth.1 hboth.2
  case nobodyElse =>
    -- an entity of the new world is old, or belongs to the new household
    intro i hi
    obtain ⟨e, he⟩ := Option.isSome_iff_exists.1 hi
    refine (Nat.lt_or_ge i w.entities.size).imp (fun hlt => ?_) (hu.houses_of_le h hsettled he)
    rw [World.entity?, Array.getElem?_eq_getElem hlt]
    rfl
  case entity? =>
    intro i hi
    obtain ⟨e, he⟩ := Option.isSome_iff_exists.1 hi
    exact hu.entity?_of_lt (Array.getElem?_eq_some_iff.1 he).1
  case score? => exact fun i hi => hu.score?_of_ne hi

end SummonsTo

/-- In every world that callers can reach who run functions as roots only, summoning adds an
instance. -/
theorem Compiles.gains (h : s.Compiles o) (hrig : s.rig.IsBuilt)
    (hduration : s.config.interpolationDuration ≤ 2147483647) (hw₀ : World.ofPack o.pack = .ok w₀)
    (hload : Run.on World.load w₀ = (.ok (), w₁)) (hw : Reaches (o.OffersRoots s.config) w₁ w) :
    ∃ root u, Run.on (World.summon o.namespaceName) w = (.ok root, u) ∧
      Reaches (o.OffersRoots s.config) w₁ u ∧ w.Gains s.names s.rig s.config o.clips root u := by
  have hruns : ∀ {w}, Reaches (o.OffersRoots s.config) w₁ w → s.RunsOnly o.clips w := fun hw =>
    (h.runsOnly_of_reaches hrig hw₀ hload (hw.imp fun _ _ hd => hd.1)).1
  have hsettled := (h.isIntact_of_reaches hrig hw₀ hload hw).settled
  obtain ⟨u, hu⟩ := (hruns hw).exists_summons hsettled
  have hsummon : Run.on (World.summon o.namespaceName) w = (.ok w.entities.size, u) :=
    h.namespaceName ▸ hu.run
  have hreaches := hw.trans (Output.reaches_of_summon hsummon)
  exact ⟨_, u, hsummon, hreaches, hu.gains (hruns hw) hsettled
    (h.isIntact_of_reaches hrig hw₀ hload hreaches) (hruns hreaches).tied hrig.nodup_storageNames
    h.areCompiled.nodup_storageNames hduration⟩

/-- And removing a root takes its instance away. -/
theorem Compiles.loses (h : s.Compiles o) (hrig : s.rig.IsBuilt)
    (hw₀ : World.ofPack o.pack = .ok w₀) (hload : Run.on World.load w₀ = (.ok (), w₁))
    (hw : Reaches (o.OffersRoots s.config) w₁ w) (hroot : w.IsRoot s.names s.config root) :
    ∃ u, Run.on (World.run (s.function "remove") (some root)) w = (.ok (), u) ∧ Loses root w u := by
  obtain ⟨hruns, hunmounted⟩ := h.runsOnly_of_reaches hrig hw₀ hload (hw.imp fun _ _ hd => hd.1)
  exact hruns.loses (hroot.isLiving hruns.tied.numbered) (hroot.isFree hunmounted)
    ((h.isIntact_of_reaches hrig hw₀ hload hw).hasCrew root hroot).bare

end Stage

/-- Instances come and go as a whole, for everything that is compiled with an interpolation duration
that is a score.  In every world that callers can reach who run functions as roots only, summoning
returns a new root with its crew and its first scores, and leaves what was there before alone; and
removing a root removes its household and leaves everything else alone. -/
theorem lifecycle_of_compile (name : String) (nodes : List RigNode) (variants : List Variant)
    (animations : List Animation) (config : Config)
    (hduration : config.interpolationDuration ≤ 2147483647) :
    Ensures (Rig.build name nodes variants) fun rig =>
      Ensures (compile rig animations config) fun o =>
        List.Forall₂ (fun a c => c.clip.loopMode = a.loopMode) animations o.clips ∧
        ∃ w₀ w₁, World.ofPack o.pack = .ok w₀ ∧ Run.on World.load w₀ = (.ok (), w₁) ∧
          ∀ w, World.Reaches (o.OffersRoots config) w₁ w →
            (∃ root u, Run.on (World.summon o.namespaceName) w = (.ok root, u) ∧
              World.Reaches (o.OffersRoots config) w₁ u ∧
              w.Gains ⟨o.namespaceName⟩ rig config o.clips root u) ∧
            ∀ root, w.IsRoot ⟨o.namespaceName⟩ config root → ∃ u,
              Run.on (World.run ⟨o.namespaceName, "remove"⟩ (some root)) w = (.ok (), u) ∧
              World.Loses root w u := by
  refine Ensures.intro fun rig hbuild => Ensures.intro fun o hcompile => ?_
  have hrig : rig.IsBuilt := ⟨name, nodes, variants, hbuild⟩
  have hsampled := Stage.forall₂_sample_of_compile hcompile
  obtain ⟨s, rfl, rfl, hcompiles⟩ := Stage.exists_compiles hrig hcompile
  have hns := hcompiles.namespaceName
  have hnames : s.names = ⟨o.namespaceName⟩ := by rw [← hns]
  obtain ⟨w₀, w₁, hw₀, hload, -⟩ := hcompiles.exists_runsOnly hrig
  refine ⟨hsampled.imp fun a c ⟨names, remarks, hsample⟩ => (takesOver_of_sample hsample).loopMode,
    w₀, w₁, hw₀, hload, fun w hw => ⟨?_, fun root hroot => ?_⟩⟩
  · rw [← hnames]
    exact hcompiles.gains hrig hduration hw₀ hload hw
  · rw [← hnames] at hroot
    rw [← hns]
    exact hcompiles.loses hrig hw₀ hload hw hroot

/-- A camera is summoned, and then it is removed. -/
theorem lifecycle_of_dolly : ∃ (o : Output) (w₀ w₁ u u' : World) (root : Nat),
    Rig.build "dolly" [⟨⟨1⟩, "camera", none, .camera, {}⟩] [] = .ok dolly ∧
    compile dolly [pan, tilt] {} = .ok o ∧ World.ofPack o.pack = .ok w₀ ∧
    Run.on World.load w₀ = (.ok (), w₁) ∧ ({} : Config).interpolationDuration ≤ 2147483647 ∧
    Run.on (World.summon o.namespaceName) w₁ = (.ok root, u) ∧
    w₁.Gains ⟨o.namespaceName⟩ dolly {} o.clips root u ∧
    Run.on (World.run ⟨o.namespaceName, "remove"⟩ (some root)) u = (.ok (), u') ∧
    World.Loses root u u' := by
  obtain ⟨p, t, -, -, hpan, htilt, -⟩ := exists_sample_dolly
  obtain ⟨o, hcompile, -⟩ := exists_compile_dolly hpan htilt
  -- under names of their own, nothing of the rig and the animations is computed
  obtain ⟨nodes, hnodes⟩ : ∃ nodes : List RigNode, nodes = [⟨⟨1⟩, "camera", none, .camera, {}⟩] :=
    ⟨_, rfl⟩
  obtain ⟨animations, hanimations⟩ : ∃ animations, animations = [pan, tilt] := ⟨_, rfl⟩
  obtain ⟨rig, hrig⟩ : ∃ rig, rig = dolly := ⟨_, rfl⟩
  have hbuild : Rig.build "dolly" [⟨⟨1⟩, "camera", none, .camera, {}⟩] [] = .ok dolly := rfl
  rw [← hnodes, ← hrig] at hbuild
  rw [← hanimations, ← hrig] at hcompile
  have hduration : ({} : Config).interpolationDuration ≤ 2147483647 := by decide
  obtain ⟨-, w₀, w₁, hw₀, hload, hlife⟩ :=
    ((lifecycle_of_compile "dolly" nodes [] animations {} hduration).apply hbuild).apply hcompile
  obtain ⟨⟨root, u, hsummon, hreaches, hgains⟩, -⟩ := hlife w₁ .refl
  obtain ⟨u', hremove, hloses⟩ := (hlife u hreaches).2 root hgains.isRoot
  rw [hrig] at hbuild hcompile hgains
  exact ⟨o, w₀, w₁, u, u', root, hnodes ▸ hbuild, hanimations ▸ hcompile, hw₀, hload,
    hduration, hsummon, hgains, hremove, hloses⟩

end Marionette
