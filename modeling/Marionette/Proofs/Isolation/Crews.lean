import Marionette.Proofs.Isolation.Removal
import Marionette.Proofs.Isolation.Summoning

/-!
# Whole crews

A root is summoned with the entities of its nodes.  Where functions run as roots only, it keeps all
of them for as long as it lives: nothing mounts, leaves or loses its tags, and an instance is
removed as a whole.

- `World.HasCrew`: the passengers of a root are the entities of its nodes, in the order of the rig.
- `World.KeepsCrews`: nobody mounts or leaves, and passengers keep their tags.
- `Stage.IsIntact`: all roots have their crews, and none was just summoned.
- `IsIntact.keepsCrews`, `IsIntact.summonsTo`, `IsIntact.loses`: what the functions of a rig do to
  that.
- `Output.OffersRoots`: what callers can do that run functions as roots only.
- `Compiles.isIntact_of_reaches`: so it is in every world that they can reach.
-/

namespace Marionette

namespace World

variable {w w' w'' : World} {v : RuntimeNames} {rig : Rig} {root id : Nat}

/-- The nodes that are shown by entities, in the order of the rig. -/
def bodySlots (rig : Rig) : List Slot :=
  rig.slots.toList.filter (·.node.kind.hasEntity)

/-- The passengers of a root are the entities of its nodes, in the order of the rig, and nothing
rides them. -/
structure HasCrew (w : World) (v : RuntimeNames) (rig : Rig) (root : Nat) : Prop where
  crew : ∃ e, w.entity? root = some e ∧
    List.Forall₂ (w.IsBody v rig root) (bodySlots rig) e.passengers
  bare : ∀ p, w.Carries root p → ∀ i, ¬w.Carries p i

namespace HasCrew

/-- There is an entity for every node that has one. -/
theorem exists_isBody (h : w.HasCrew v rig root) {slot : Slot} (hslot : slot ∈ rig.slots.toList)
    (hentity : slot.node.kind.hasEntity = true) : ∃ id, w.IsBody v rig root slot id := by
  obtain ⟨e, -, hcrew⟩ := h.crew
  obtain ⟨j, hj⟩ := List.getElem?_of_mem (List.mem_filter.2 ⟨hslot, hentity⟩ : slot ∈ bodySlots rig)
  obtain ⟨hlt, rfl⟩ := List.getElem?_eq_some_iff.1 hj
  exact ⟨_, hcrew.get hlt (hcrew.length_eq ▸ hlt)⟩

/-- A crew stays whole where the root keeps its passengers, and they keep their tags
and stay bare. -/
theorem keep (h : w.HasCrew v rig root)
    (hroot : ∀ e, w.entity? root = some e → ∃ e', w'.entity? root = some e' ∧
      e'.passengers = e.passengers)
    (htags : ∀ p, w.Carries root p → ∀ tag, w'.hasTag p tag = w.hasTag p tag)
    (hbare : ∀ p, w.Carries root p → ∀ i, w'.Carries p i → w.Carries p i) :
    w'.HasCrew v rig root := by
  obtain ⟨e, he, hcrew⟩ := h.crew
  obtain ⟨e', he', hpassengers⟩ := hroot e he
  constructor
  case crew =>
    refine ⟨e', he', hpassengers ▸ hcrew.imp fun slot p hbody => ?_⟩
    obtain ⟨e₀, he₀, hp⟩ := hbody.rides
    obtain rfl := Option.some.inj (he.symm.trans he₀)
    exact ⟨⟨e', he', hpassengers ▸ hp⟩,
      fun other hother => (htags p hbody.rides _).trans (hbody.hasTag other hother),
      (htags p hbody.rides _).trans hbody.notRoot⟩
  case bare =>
    rintro p ⟨e₀, he₀, hp⟩ i hi
    obtain rfl := Option.some.inj (he'.symm.trans he₀)
    have hcarried : w.Carries root p := ⟨e, he, hpassengers ▸ hp⟩
    exact h.bare p hcarried i (hbare p hcarried i hi)

/-- So it does where its household stays as it is. -/
theorem congr (h : w.HasCrew v rig root)
    (hsame : ∀ i, w.Houses root i → w'.entity? i = w.entity? i) : w'.HasCrew v rig root := by
  refine h.keep (fun e he => ⟨e, (hsame root (.inl rfl)).trans he, rfl⟩) (fun p hp tag => ?_) ?_
  · rw [World.hasTag, hsame p (.inr hp), World.hasTag]
  · rintro p hp i ⟨q, hq, hi⟩
    exact ⟨q, (hsame p (.inr hp)).symm.trans hq, hi⟩

/-- Of the crew, only one carries the tag of a node. -/
theorem unique (h : w.HasCrew v rig root) (hnames : (rig.slots.toList.map (·.storageName)).Nodup)
    {slot : Slot} (hslot : slot ∈ rig.slots.toList) {p q : Nat} (hp : w.Carries root p)
    (hq : w.Carries root q) (hptag : w.hasTag p (v.nodeTag slot.storageName) = true)
    (hqtag : w.hasTag q (v.nodeTag slot.storageName) = true) : p = q := by
  obtain ⟨e, he, hcrew⟩ := h.crew
  -- whoever carries the tag is the entity of a node of this name
  have hplace : ∀ {p}, w.Carries root p → w.hasTag p (v.nodeTag slot.storageName) = true →
      ∃ (j : Nat) (hj : j < e.passengers.length) (hj' : j < (bodySlots rig).length),
        e.passengers[j] = p ∧ slot.storageName = (bodySlots rig)[j].storageName := by
    rintro p ⟨e', he', hmem⟩ htag
    obtain rfl := Option.some.inj (he.symm.trans he')
    obtain ⟨j, hj, rfl⟩ := List.getElem_of_mem hmem
    have hj' : j < (bodySlots rig).length := hcrew.length_eq ▸ hj
    have hbody : w.IsBody v rig root (bodySlots rig)[j] e.passengers[j] := hcrew.get hj' hj
    exact ⟨j, hj, hj', rfl, of_decide_eq_true ((hbody.hasTag slot hslot).symm.trans htag)⟩
  obtain ⟨j, hj, hj', rfl, hjname⟩ := hplace hp hptag
  obtain ⟨k, hk, hk', rfl, hkname⟩ := hplace hq hqtag
  have hdistinct : ((bodySlots rig).map (·.storageName)).Nodup :=
    hnames.sublist (List.filter_sublist.map _)
  have hsame : (bodySlots rig)[j] = (bodySlots rig)[k] :=
    List.inj_on_of_nodup_map hdistinct (List.getElem_mem hj') (List.getElem_mem hk')
      (hjname.symm.trans hkname)
  obtain rfl := hdistinct.of_map.getElem_inj_iff.1 hsame
  rfl

end HasCrew

/-- Nobody mounts or leaves, nothing is created or removed, and what rides something
keeps its tags. -/
structure KeepsCrews (w w' : World) : Prop where
  core : ∀ i, (w'.entity? i).map Entity.core = (w.entity? i).map Entity.core
  bare : ∀ i e, w.entity? i = some e → e.vehicle ≠ none →
    (w'.entity? i).map Entity.bare = some e.bare

namespace KeepsCrews

/-- Crews consist of entities, so other changes keep them. -/
theorem of_entities (h : w'.entities = w.entities) : KeepsCrews w w' := by
  have hsame : ∀ i, w'.entity? i = w.entity? i := fun i => by rw [entity?, h, entity?]
  refine ⟨fun i => by rw [hsame], fun i e he _ => ?_⟩
  rw [hsame, he, Option.map_some]

/-- Two steps that keep crews keep them together. -/
theorem trans (h : KeepsCrews w w') (h' : KeepsCrews w' w'') : KeepsCrews w w'' := by
  refine ⟨fun i => (h'.core i).trans (h.core i), fun i e he hrides => ?_⟩
  obtain ⟨e', he', hbare⟩ := Option.map_eq_some_iff.1 (h.bare i e he hrides)
  have hvehicle : e'.vehicle = e.vehicle := (congrArg Entity.vehicle hbare :)
  rw [h'.bare i e' he' (hvehicle ▸ hrides), hbare]

/-- Who rides nothing rides nothing still. -/
theorem isFree (h : KeepsCrews w w') (hfree : w.IsFree id) : w'.IsFree id := by
  intro e' he'
  obtain ⟨e, he, hcore⟩ := exists_core_before h.core he'
  exact (congrArg Entity.vehicle hcore :).trans (hfree e he)

/-- Who was there is there. -/
theorem knows (h : KeepsCrews w w') (hid : w.Knows (some id)) : w'.Knows (some id) := by
  obtain ⟨e', he', -⟩ := exists_core h.core (Array.getElem?_eq_getElem (hid id rfl))
  exact knows_of_entity? he'

/-- So all crews stay whole. -/
theorem hasCrew (h : KeepsCrews w w') (ht : Tied [] w.entities) (hcrew : w.HasCrew v rig root) :
    w'.HasCrew v rig root := by
  refine hcrew.keep (fun e he => ?_) (fun p hp tag => ?_) ?_
  · obtain ⟨e', he', hcore⟩ := exists_core h.core he
    exact ⟨e', he', (congrArg Entity.passengers hcore :)⟩
  · -- what rides the root keeps its tags
    obtain ⟨q, hq, hvehicle, -⟩ := hp.vehicle_eq ht
    obtain ⟨q', hq', hbare⟩ := Option.map_eq_some_iff.1 (h.bare p q hq (by rw [hvehicle]; nofun))
    have hsame : q'.tags = q.tags := (congrArg Entity.tags hbare :)
    rw [World.hasTag, World.hasTag, hq, hq', Option.any_some, Option.any_some, Entity.hasTag, hsame,
      Entity.hasTag]
  · rintro p - i ⟨q', hq', hi⟩
    obtain ⟨q, hq, hcore⟩ := exists_core_before h.core hq'
    have hsame : q'.passengers = q.passengers := (congrArg Entity.passengers hcore :)
    exact ⟨q, hq, hsame ▸ hi⟩

end KeepsCrews

/-- Whatever happens in the household of what rides nothing keeps all crews. -/
theorem KeepsTo.keepsCrews (h : KeepsTo id w w') (hfree : w.IsFree id) : KeepsCrews w w' := by
  refine ⟨h.core, fun i e he hrides => ?_⟩
  have hi : i ≠ id := by
    rintro rfl
    exact hrides (hfree e he)
  rw [h.bare i hi, he, Option.map_some]

end World

namespace Stage

open World (Does DoesAll GivesNo HasCrew KeepsCrews KeepsTo Loses Reaches Unmounted)

variable {s : Stage} {clips : List CompiledClip} {w w' u : World} {root : Nat} {o : Output}

/-- All roots have their crews, and none of them was just summoned. -/
structure IsIntact (s : Stage) (w : World) : Prop where
  settled : s.IsSettled w
  hasCrew : ∀ root, w.IsRoot s.names s.config root → w.HasCrew s.names s.rig root

/-! ### What is summoned -/

/-- A new root has its crew from the start. -/
theorem hasCrew_summoned (hosts : s.Hosts clips w) (hrest : restPoses s.rig s.config = .ok s.rest) :
    (s.summoned w).HasCrew s.names s.rig w.entities.size := by
  have hroot := s.entity?_summoned w w.entities.size
  rw [if_neg (Nat.lt_irrefl _), if_pos rfl] at hroot
  have hslots : World.bodySlots s.rig = s.bodies.map (·.1) := by
    rw [World.bodySlots, ← map_fst_zip_rest (restPoses_eq hrest).1, List.filter_map, bodies]
    rfl
  refine ⟨⟨_, hroot, ?_⟩, ?_⟩
  · rw [hslots, List.forall₂_map_left_iff, List.forall₂_iff_get]
    refine ⟨List.length_range'.symm, fun j hj _ => ?_⟩
    have hb : s.bodies[j]? = some s.bodies[j] := List.getElem?_eq_getElem hj
    have hrider : w.entities.size + 1 + j ∈ (newInstance hosts).riders :=
      mem_riders_newInstance.2 ⟨j, _, hb, rfl⟩
    have hbody := (shows_firstScene hosts).isBody hrider (embodies_newInstance hosts hb)
    rw [List.get_eq_getElem, List.get_eq_getElem, List.getElem_range', Nat.one_mul]
    exact hbody
  · rintro p ⟨e, he, hp⟩ i ⟨q, hq, hi⟩
    obtain rfl := Option.some.inj (hroot.symm.trans he)
    obtain ⟨j, hj, rfl⟩ := List.mem_range'.1 hp
    rw [Nat.one_mul, s.entity?_summoned_rider w (List.getElem?_eq_getElem hj)] at hq
    obtain rfl := Option.some.inj hq
    cases hi

/-- The new root keeps its crew while its scores are set. -/
theorem SummonsTo.hasCrew (hu : s.SummonsTo w u) (hosts : s.Hosts clips w)
    (htied : Tied [] (s.summoned w).entities) (hrest : restPoses s.rig s.config = .ok s.rest) :
    u.HasCrew s.names s.rig w.entities.size := by
  have hfree : (s.summoned w).IsFree w.entities.size := by
    intro e he
    rw [entity?_summoned, if_neg (Nat.lt_irrefl _), if_pos rfl] at he
    obtain rfl := Option.some.inj he
    rfl
  exact (hu.keeps.keepsCrews hfree).hasCrew htied (hasCrew_summoned hosts hrest)

namespace IsIntact

/-- Crews are whole after a step that keeps them and gives no tag of roots or of new entities. -/
theorem keepsCrews (h : s.IsIntact w) (ht : Tied [] w.entities) (hk : KeepsCrews w w')
    (hroot : GivesNo s.names.rootTag w w') (hnew : GivesNo s.names.newTag w w') :
    s.IsIntact w' := by
  -- an entity has such a tag only if it had it before
  have hold : ∀ {tag i e e'}, GivesNo tag w w' → w.entity? i = some e → w'.entity? i = some e' →
      e'.hasTag tag = true → e.hasTag tag = true := by
    intro tag i e e' hgives he he' hmarked
    have htag := hgives.hasTag i (by rw [he]; rfl)
    rw [World.hasTag, World.hasTag, he, he', Option.any_some, Option.any_some] at htag
    exact htag hmarked
  constructor
  · intro i e' he'
    obtain ⟨e, he, hcore⟩ := World.exists_core_before hk.core he'
    have halive : e'.alive = e.alive := (congrArg Entity.alive hcore :)
    have htype : e'.entityType = e.entityType := (congrArg Entity.entityType hcore :)
    have hbefore := h.settled i e he
    rw [newborns, Entity.matches_ofType_tagged] at hbefore ⊢
    rw [halive, htype, Bool.eq_false_iff]
    intro hmatch
    obtain ⟨hkind, hmarked⟩ := Bool.and_eq_true_iff.1 hmatch
    rw [hkind, hold hnew he he' hmarked] at hbefore
    cases hbefore
  · rintro root ⟨e', he', halive, htype, hmarked⟩
    obtain ⟨e, he, hcore⟩ := World.exists_core_before hk.core he'
    refine hk.hasCrew ht (h.hasCrew root ⟨e, he, ?_, ?_, hold hroot he he' hmarked⟩)
    · exact (congrArg Entity.alive hcore :).symm.trans halive
    · exact (congrArg Entity.entityType hcore :).symm.trans htype

/-- What does not touch entities leaves all crews whole. -/
theorem of_entities (h : s.IsIntact w) (hsame : w'.entities = w.entities) : s.IsIntact w' := by
  have hentity : ∀ i, w'.entity? i = w.entity? i := fun i => by
    rw [World.entity?, hsame, World.entity?]
  refine ⟨fun i e he => h.settled i e ((hentity i).symm.trans he), fun root hroot => ?_⟩
  obtain ⟨e, he, hrest⟩ := hroot
  exact (h.hasCrew root ⟨e, (hentity root).symm.trans he, hrest⟩).congr fun i _ => hentity i

/-- A new instance has its crew, and the others keep theirs. -/
theorem summonsTo (h : s.IsIntact w) (hruns : s.RunsOnly clips w) (hw : w.Unmounted s.names.rootTag)
    (hrest : restPoses s.rig s.config = .ok s.rest) (hu : s.SummonsTo w u) : s.IsIntact u := by
  refine ⟨hu.settled, fun root hroot => ?_⟩
  rcases (hu.isRoot_iff hw).1 hroot with hold | rfl
  · refine (h.hasCrew root hold).congr fun i hi => hu.entity?_of_lt ?_
    rcases hi with rfl | hcarried
    · exact hold.knows i rfl
    · obtain ⟨q, hq, -⟩ := hcarried.vehicle_eq hruns.tied
      exact (Array.getElem?_eq_some_iff.1 hq).1
  · exact hu.hasCrew hruns.hosts (hruns.changes (World.Change.create _).once).tied hrest

/-- When an instance is removed as a whole, the others keep their crews. -/
theorem loses (h : s.IsIntact w) (hruns : s.RunsOnly clips w) (hw : w.Unmounted s.names.rootTag)
    (hroot : w.IsRoot s.names s.config root) (hu : Loses root w u) : s.IsIntact u := by
  constructor
  · intro i e he
    by_cases hi : w.Houses root i
    · obtain ⟨e', he', hdead⟩ := hu.removed i hi
      obtain rfl := Option.some.inj (he.symm.trans he')
      rw [newborns, Entity.matches_ofType_tagged, hdead, Bool.false_and, Bool.false_and]
    · exact h.settled i e ((hu.entity? i hi).symm.trans he)
  · intro other hother
    obtain ⟨hout, hbefore⟩ := hu.isRoot hother
    have hne : root ≠ other := fun heq => hout (.inl heq.symm)
    refine (h.hasCrew other hbefore).congr fun i hi => hu.entity? i fun hin => ?_
    exact hi.ne hin hne hruns.tied (hroot.isFree hw) (hbefore.isFree hw) rfl

end IsIntact

/-! ### What functions do -/

/-- At a tick, the roots have their turns one after the other, and all crews are kept. -/
theorem RunsOnly.turns (h : s.RunsOnly clips w) (hw : w.Unmounted s.names.rootTag)
    (executor : Option Nat) :
    Does 44 (.function (s.function "tick")) executor w (KeepsCrews w) := by
  let Inv (ids : List Nat) (u : World) : Prop :=
    s.RunsOnly clips u ∧ KeepsCrews w u ∧ ∀ id ∈ ids, w.IsRoot s.names s.config id
  have hstep : ∀ id ids u, Inv (id :: ids) u →
      Does 43 (.execute [] (.function (s.function "on_tick"))) (some id) u (Inv ids) := by
    rintro id ids u ⟨hruns, hkeeps, hids⟩
    obtain ⟨hid, hrest⟩ := List.forall_mem_cons.1 hids
    refine Does.execute_nil
      ((hruns.onTick (hkeeps.knows hid.knows)).imp fun u' ⟨hchanges, hturn⟩ => ?_)
    exact ⟨hruns.changes hchanges,
      hkeeps.trans (hturn.keepsCrews (hkeeps.isFree (hid.isFree hw))), hrest⟩
  have hstart : Inv (w.select s.roots executor) w :=
    ⟨h, .of_entities rfl, fun id hid => (mem_select_roots h.tied).1 hid⟩
  refine Does.call h.hosts.installs (mem_functions_of_tick (.tail _ <| .head _)) (DoesAll.cons ?_)
  exact Does.imp (Does.execute_asEach hstep hstart) fun u hu => DoesAll.nil hu.2.1

/-- A function that runs as a root leaves the crews of all roots whole. -/
theorem RunsOnly.isIntact_run (h : s.RunsOnly clips w) (hw : w.Unmounted s.names.rootTag)
    (hrest : restPoses s.rig s.config = .ok s.rest) (hintact : s.IsIntact w)
    (hroot : w.IsRoot s.names s.config root) {path : FunctionPath} {body : List Command}
    (hmem : (path, body) ∈ s.functions clips) :
    ∃ w', Run.on (World.run path (some root)) w = (.ok (), w') ∧ s.IsIntact w' := by
  -- no function goes deeper than this
  have hdepth : 44 ≤ w.maxDepth := by
    rw [h.hosts.maxDepth]
    decide
  -- what keeps crews and gives no root tag leaves them whole
  have hkeeping : Does 44 (.function path) (some root) w (KeepsCrews w) →
      ∃ w', Run.on (World.run path (some root)) w = (.ok (), w') ∧ s.IsIntact w' := by
    intro hdoes
    obtain ⟨-, w', hrun, hkeeps⟩ := World.Leads.run_on hdoes hdepth
    have hleaves : ∀ {tag}, ¬s.IsOrdinary tag → GivesNo tag w w' := fun htag =>
      Run.Leaves.of_on ((GivesNo.tolerates htag).run path h.givesOnly) hrun
    exact ⟨w', hrun, hintact.keepsCrews h.tied hkeeps (hleaves s.not_isOrdinary_rootTag)
      (hleaves s.not_isOrdinary_newTag)⟩
  -- the functions that change more than one household are looked at one by one
  by_cases hwide : s.IsWide path
  · obtain ⟨name, hname, rfl⟩ := List.mem_map.1 hwide
    simp only [List.mem_cons, List.not_mem_nil, or_false] at hname
    rcases hname with rfl | rfl | rfl | rfl
    · -- only objectives are created
      refine hkeeping (Does.deeper (by decide : 1 ≤ 44) ?_)
      refine Does.call h.hosts.installs_ticks (.head _) ?_
      refine (DoesAll.declares fun _ hc => loadBody_declares hc).imp fun u hu => ?_
      obtain ⟨objectives, rfl⟩ := hu.same
      exact .of_entities rfl
    · exact hkeeping (h.turns hw _)
    · obtain ⟨u, hu⟩ := h.exists_summons hintact.settled
      obtain ⟨-, v, hrun, rfl⟩ := World.Leads.run_on (h.summon_call hintact.settled hu.turn) hdepth
      exact ⟨v, hrun, hintact.summonsTo h hw hrest hu⟩
    · obtain ⟨u, hrun, hloses⟩ := h.loses (hroot.isLiving h.tied.numbered) (hroot.isFree hw)
        (hintact.hasCrew root hroot).bare
      exact ⟨u, hrun, hintact.loses h hw hroot hloses⟩
  -- all others change the household of the root only
  · exact hkeeping (((h.narrow hmem hwide hroot.knows).imp fun u hu =>
      hu.2.keepsCrews (hroot.isFree hw)).deeper (by decide))

end Stage

/-- What callers can do with the pack of an output that run its functions as roots only. -/
def Output.OffersRoots (o : Output) (config : Config) (w : World) (d : Deed) : Prop :=
  o.Offers w d ∧ ∀ path executor, d = .run path executor →
    ∃ root, executor = some root ∧ w.IsRoot ⟨o.namespaceName⟩ config root

/-- Such callers can summon. -/
theorem Output.reaches_of_summon {o : Output} {config : Config} {w w' : World} {root : Nat}
    (h : Run.on (World.summon o.namespaceName) w = (.ok root, w')) :
    World.Reaches (o.OffersRoots config) w w' := by
  have hdone : Run.on (Deed.summon o.namespaceName).act w = (.ok (), w') := Run.on_bind_ok h
  exact .single (.inl ⟨.summon o.namespaceName, ⟨rfl, nofun⟩, congrArg Prod.snd hdone.symm⟩)

namespace Stage

open World (GivesNo KeepsCrews Reaches Unmounted)

variable {s : Stage} {clips : List CompiledClip} {w w' : World} {o : Output}

/-- What such callers do leaves the crews of all roots whole. -/
theorem RunsOnly.isIntact_act (h : s.RunsOnly o.clips w) (hcompiles : s.Compiles o)
    (hw : w.Unmounted s.names.rootTag) (hintact : s.IsIntact w) {d : Deed}
    (hd : o.OffersRoots s.config w d) : s.IsIntact (Run.on d.act w).2 := by
  have hnames : s.names = ⟨o.namespaceName⟩ := by rw [← hcompiles.namespaceName]
  obtain ⟨hoffers, hroots⟩ := hd
  cases d with
  -- loading creates objectives and no entities
  | load =>
    obtain ⟨objectives, hload, -⟩ := h.hosts.load h.loadFunctions
    rw [show Run.on Deed.load.act w = _ from hload]
    exact hintact.of_entities rfl
  -- a tick moves the clock before the functions run
  | tick =>
    let next : World := { w with gameTime := w.gameTime + 1 }
    have hnext : s.RunsOnly o.clips next := h.changes World.Change.clock.once
    have hdepth : 44 ≤ next.maxDepth := by
      rw [hnext.hosts.maxDepth]
      decide
    obtain ⟨-, w', hrun, hkeeps⟩ := World.Leads.run_on (hnext.turns hw none) hdepth
    have htick : Run.on World.tick w = (.ok (), w') := World.on_tick h.tickFunctions hrun
    have hleaves : ∀ {tag}, ¬s.IsOrdinary tag → GivesNo tag w w' := fun htag =>
      Run.Leaves.of_on ((GivesNo.tolerates htag).tick h.givesOnly) htick
    rw [show Run.on Deed.tick.act w = _ from htick]
    have hclock : KeepsCrews w next := .of_entities rfl
    exact hintact.keepsCrews h.tied (hclock.trans hkeeps) (hleaves s.not_isOrdinary_rootTag)
      (hleaves s.not_isOrdinary_newTag)
  -- roots run functions of the pack only
  | run path executor =>
    obtain ⟨⟨body, hbody⟩, -⟩ := hoffers
    obtain ⟨root, rfl, hroot⟩ := hroots path executor rfl
    rw [← hnames] at hroot
    obtain ⟨w', hrun, hw'⟩ := h.isIntact_run hw hcompiles.rest hintact hroot
      (mem_functions_of_pack hcompiles.pack _ hbody)
    rwa [show Run.on (Deed.run path (some root)).act w = _ from hrun]
  | summon namespaceName =>
    obtain rfl : namespaceName = s.names.namespaceName := hoffers.trans hcompiles.namespaceName.symm
    obtain ⟨u, hu⟩ := h.exists_summons hintact.settled
    rw [show Run.on (Deed.summon s.names.namespaceName).act w = (.ok (), u) from
      Run.on_bind_ok hu.run]
    exact hintact.summonsTo h hw hcompiles.rest hu
  | setScore id objective value =>
    have hset : Run.on (World.setScore id objective value) w = (.ok (), _) :=
      Run.on_bind_ok (World.on_requireObjective hoffers)
    rw [show Run.on (Deed.setScore id objective value).act w = _ from hset]
    exact hintact.of_entities rfl

/-- In every world that such callers can reach, all roots have their crews, and none of them was
just summoned. -/
theorem Compiles.isIntact_of_reaches (h : s.Compiles o) (hrig : s.rig.IsBuilt) {w₀ w₁ : World}
    (hw₀ : World.ofPack o.pack = .ok w₀) (hload : Run.on World.load w₀ = (.ok (), w₁))
    (hw : Reaches (o.OffersRoots s.config) w₁ w) : s.IsIntact w := by
  have hnone : ∀ i, w₁.entity? i = none := by
    intro i
    rw [World.entity?, (h.empty_of_load hw₀ hload).1]
    rfl
  induction hw with
  | refl =>
    refine ⟨fun i e he => ?_, fun root hroot => ?_⟩
    · cases (hnone i).symm.trans he
    · obtain ⟨e, he, -⟩ := hroot
      cases (hnone root).symm.trans he
  | tail hbefore hstep ih =>
    obtain ⟨hruns, hunmounted⟩ :=
      h.runsOnly_of_reaches hrig hw₀ hload (World.Reaches.imp hbefore fun _ _ hd => hd.1)
    obtain ⟨d, hd, rfl⟩ | ⟨answers, rfl⟩ := hstep
    · exact hruns.isIntact_act h hunmounted ih hd
    · exact ih.of_entities rfl

end Stage

end Marionette
