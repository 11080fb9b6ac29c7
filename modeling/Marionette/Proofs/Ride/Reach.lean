import Marionette.Proofs.Compile
import Marionette.Proofs.Ride.View

/-!
# Worlds that callers can reach

- `World.Reaches`: what a world becomes, whatever callers do and whatever the author's conditions
  say.
- `World.IsRoot`: a root of a rig.
- `Stage.RunsOnly.reaches`: whatever callers do, a world runs only the functions of the rig.
- `Compiles.exists_runsOnly`: so does the world in which a pack was loaded.
- `Compiles.exists_instance`: in such a world a root can be summoned that is whole.
- `RunsOnly.exists_shows`: what is seen of a root and of a node that it carries.
- `RunsOnly.tick_of_turns`: a tick of the world is one of every root in turn.
- `Ready.control`, `Ready.ticks`: controls and ticks end without an error.
-/

namespace Marionette

namespace World

/-- What a world becomes where callers act and, at any time, the conditions of the author get other
answers. -/
def Reaches (allowed : World → Deed → Prop) : World → World → Prop :=
  Relation.ReflTransGen fun w w' =>
    (∃ d, allowed w d ∧ w' = (Run.on d.act w).2) ∨
      ∃ answers : Std.HashMap String Bool, w' = { w with conditions := answers }

theorem Reaches.imp {allowed allowed' : World → Deed → Prop} {w w' : World}
    (h : Reaches allowed w w') (himp : ∀ w d, allowed w d → allowed' w d) : Reaches allowed' w w' :=
  Relation.ReflTransGen.mono (fun _ _ hstep => hstep.imp_left fun ⟨d, hd, heq⟩ =>
    ⟨d, himp _ d hd, heq⟩)
    _ _ h

/-- The entity is alive, of the type of roots and tagged as one. -/
def IsRoot (w : World) (v : RuntimeNames) (config : Config) (root : Nat) : Prop :=
  ∃ e, w.entity? root = some e ∧ e.alive = true ∧ e.entityType = config.rootEntity ∧
    e.hasTag v.rootTag = true

theorem IsRoot.hasTag {w : World} {v : RuntimeNames} {config : Config} {root : Nat}
    (h : w.IsRoot v config root) : w.hasTag root v.rootTag = true := by
  obtain ⟨e, he, -, -, htag⟩ := h
  rw [World.hasTag, he, Option.any_some, htag]

theorem IsRoot.knows {w : World} {v : RuntimeNames} {config : Config} {root : Nat}
    (h : w.IsRoot v config root) : w.Knows (some root) := by
  obtain ⟨e, he, -⟩ := h
  exact knows_of_entity? he

theorem IsRoot.isLiving {w : World} {v : RuntimeNames} {config : Config} {root : Nat}
    (h : w.IsRoot v config root) (hw : w.IsNumbered) : w.IsLiving root := by
  obtain ⟨e, he, halive, -⟩ := h
  exact ⟨e, he, hw root e he, halive⟩

end World

namespace Ride

theorem Shows.isRoot {R : Ride} {w : World} {v : View} (hw : R.Shows w v)
    (hroot : v.tagged .root = true) :
    w.IsRoot R.stage.names R.stage.config R.root := by
  obtain ⟨e, he, hisRoot⟩ := hw.root
  have htag := hw.hasTag .root
  rw [World.hasTag, he, Option.any_some, hroot] at htag
  exact ⟨e, he, hisRoot.alive, hisRoot.entityType, htag⟩

end Ride

namespace Stage

open World (Changes Reaches)

variable {s : Stage} {clips : List CompiledClip} {w w' : World} {o : Output} {c : CompiledClip}
  {root : Nat}

/-- Nothing that callers do changes the functions. -/
theorem functions_act {d : Deed} (hd : o.Offers w d) :
    (Run.on d.act w).2.functions = w.functions := by
  have hmakes : ∀ {α : Type} {x : Run α}, Run.Makes x w → (Run.on x w).2.functions = w.functions :=
    fun h => (World.Changes.runsAlike h).functions
  cases d with
  | load => exact hmakes World.makes_load
  | tick => exact hmakes World.makes_tick
  | run path executor => exact hmakes (World.makes_run path)
  | summon namespaceName =>
    exact hmakes ((World.makes_summon namespaceName).andThen fun _ _ => .nothing _)
  | setScore id objective value =>
    have hset : Run.on (World.setScore id objective value) w = (.ok (), _) :=
      Run.on_bind_ok (World.on_requireObjective hd)
    exact congrArg (fun r => r.2.functions) hset

theorem functions_reaches (hw : Reaches o.Offers w w') : w'.functions = w.functions := by
  induction hw with
  | refl => rfl
  | tail _ hstep ih =>
    obtain ⟨d, hd, rfl⟩ | ⟨answers, rfl⟩ := hstep
    · exact (functions_act hd).trans ih
    · exact ih

theorem RunsOnly.act (h : s.RunsOnly clips w) (hns : s.names.namespaceName = o.namespaceName)
    (hfunctions : ∀ f ∈ o.pack.functions, f ∈ s.functions clips) {d : Deed} (hd : o.Offers w d) :
    s.RunsOnly clips (Run.on d.act w).2 := by
  obtain ⟨w', hrun, hready⟩ := h.toReady.act hns hfunctions hd
  have hsame := functions_act hd
  rw [hrun] at hsame ⊢
  exact ⟨hready, hsame ▸ h.only⟩

/-- No function depends on what the conditions of the author say. -/
theorem RunsOnly.answered (h : s.RunsOnly clips w) (answers : Std.HashMap String Bool) :
    s.RunsOnly clips { w with conditions := answers } := by
  obtain ⟨⟨⟨hinstalls, hdepth⟩, htick, hstart, ⟨hfunctions, hobjectives, htied⟩, htrees⟩, honly⟩ :=
    h
  exact ⟨⟨⟨hinstalls, hdepth⟩, htick, hstart, ⟨hfunctions, hobjectives, htied⟩, htrees⟩, honly⟩

/-- Neither does any on what a score is. -/
theorem RunsOnly.scored (h : s.RunsOnly clips w) (owner : Owner) (objective : String)
    (value : Int32) : s.RunsOnly clips (w.setOwnerScore owner objective value) := by
  obtain ⟨⟨⟨hinstalls, hdepth⟩, htick, hstart, ⟨hfunctions, hobjectives, htied⟩, htrees⟩, honly⟩ :=
    h
  exact ⟨⟨⟨hinstalls, hdepth⟩, htick, hstart, ⟨hfunctions, hobjectives, htied⟩, htrees⟩, honly⟩

/-- Whatever callers do, a world runs only the functions of the rig. -/
theorem RunsOnly.reaches (h : s.RunsOnly clips w) (hns : s.names.namespaceName = o.namespaceName)
    (hfunctions : ∀ f ∈ o.pack.functions, f ∈ s.functions clips) (hw : Reaches o.Offers w w') :
    s.RunsOnly clips w' := by
  induction hw with
  | refl => exact h
  | tail _ hstep ih =>
    obtain ⟨d, hd, rfl⟩ | ⟨answers, rfl⟩ := hstep
    · exact ih.act hns hfunctions hd
    · exact ih.answered answers

/-- The pack of an output can be loaded, and then a world runs just its functions. -/
theorem Compiles.exists_runsOnly (h : s.Compiles o) (hrig : s.rig.IsBuilt) :
    ∃ w₀ w₁, World.ofPack o.pack = .ok w₀ ∧ Run.on World.load w₀ = (.ok (), w₁) ∧
      s.RunsOnly o.clips w₁ := by
  obtain ⟨w₀, w₁, hw₀, hload, hready⟩ := h.exists_ready hrig
  refine ⟨w₀, w₁, hw₀, hload, hready, fun path body hbody => ?_⟩
  have hsame : w₁.functions = w₀.functions := by
    have hmakes : World.Changes w₀ (Run.on World.load w₀).2 := World.makes_load
    rw [hload] at hmakes
    exact hmakes.runsAlike.functions
  rw [hsame] at hbody
  exact mem_functions_of_pack h.pack _ (World.mem_functions_of_ofPack hw₀ hbody)

/-- Loading a pack creates no entities and sets no scores. -/
theorem Compiles.empty_of_load (h : s.Compiles o) {w₀ w₁ : World}
    (hw₀ : World.ofPack o.pack = .ok w₀) (hload : Run.on World.load w₀ = (.ok (), w₁)) :
    w₁.entities = #[] ∧ w₁.scores = {} := by
  have hevents := events_ofPack (h.namespaceName ▸ h.isStorageName) h.pack hw₀
  obtain ⟨objectives, hload', -⟩ := (hosts_ofPack (w := w₀) h.pack hw₀ rfl rfl).load
    (congrArg World.loadFunctions hevents)
  obtain rfl : w₁ = _ := congrArg Prod.snd (hload.symm.trans hload')
  exact ⟨congrArg World.entities hevents, congrArg World.scores hevents⟩

/-- Loading a pack leads to one world. -/
theorem eq_of_load {p : Datapack} {w₀ w₁ w₀' w₁' : World} (hw₀ : World.ofPack p = .ok w₀)
    (hload : Run.on World.load w₀ = (.ok (), w₁)) (hw₀' : World.ofPack p = .ok w₀')
    (hload' : Run.on World.load w₀' = (.ok (), w₁')) : w₁ = w₁' := by
  obtain rfl := Except.ok.inj (hw₀.symm.trans hw₀')
  exact congrArg Prod.snd (hload.symm.trans hload')

/-- A node with an entity has a pose at rest. -/
theorem Compiles.exists_body (h : s.Compiles o) {slot : Slot} (hslot : slot ∈ s.rig.slots.toList)
    (hentity : slot.node.kind.hasEntity = true) : ∃ b ∈ s.bodies, b.1 = slot := by
  rw [← map_fst_zip_rest (restPoses_eq h.rest).1] at hslot
  obtain ⟨b, hb, rfl⟩ := List.mem_map.1 hslot
  exact ⟨b, List.mem_filter.2 ⟨hb, hentity⟩, rfl⟩

/-- The root is the only one, and new: nothing advances on it, all animations have their own loop
modes, and it carries the entity of every node, none of which was moved by a teleport. -/
structure IsFirst (s : Stage) (clips : List CompiledClip) (w : World) (root : Nat) : Prop where
  isRoot : w.IsRoot s.names s.config root
  only : ∀ r, w.IsRoot s.names s.config r → r = root
  idle : ∀ c ∈ clips, w.hasTag root (s.names.playingTag c.clip.storageName) = false
  mode : ∀ c ∈ clips, w.score? root (s.names.loopMode c.clip.storageName) =
    some c.clip.loopMode.score
  body : ∀ slot ∈ s.rig.slots.toList, slot.node.kind.hasEntity = true →
    ∃ id place, w.IsBody s.names s.rig root slot id ∧ w.place? id = some place ∧
    place.teleport = none

/-- Where a pack was loaded and nothing else has happened, a first root can be summoned. -/
theorem Compiles.exists_instance (h : s.Compiles o) {w₀ w₁ : World}
    (hw₀ : World.ofPack o.pack = .ok w₀) (hload : Run.on World.load w₀ = (.ok (), w₁))
    (hruns : s.RunsOnly o.clips w₁) :
    ∃ root w, Run.on (World.summon s.names.namespaceName) w₁ = (.ok root, w) ∧
      World.Reaches o.Offers w₁ w ∧ s.RunsOnly o.clips w ∧ s.IsFirst o.clips w root := by
  -- nobody is there yet, so that only the new entities answer to anything
  have hempty := (h.empty_of_load hw₀ hload).1
  have hnone : ∀ i e, w₁.entity? i = some e → e.matches s.newborns = false := by
    intro i e he
    rw [World.entity?, hempty] at he
    cases he
  have hloaded : s.IsLoaded o.clips w₁ := fun k hk => hruns.hasObjective hk
  obtain ⟨w, hsummon, hshows, hkeeps⟩ := hruns.hosts.summon hloaded hnone
  have hchanges : Changes w₁ w := by
    have hmakes : Changes w₁ (Run.on (World.summon s.names.namespaceName) w₁).2 :=
      World.makes_summon _
    rwa [hsummon] at hmakes
  have hdone : Run.on (Deed.summon s.names.namespaceName).act w₁ = (.ok (), w) :=
    Run.on_bind_ok hsummon
  refine ⟨_, w, hsummon, .single (.inl ⟨.summon s.names.namespaceName, h.namespaceName,
    congrArg Prod.snd hdone.symm⟩), hruns.changes hchanges, ?_⟩
  constructor
  case isRoot =>
    obtain ⟨e, he, hroot⟩ := hshows.root
    refine ⟨e, he, hroot.alive, hroot.entityType, ?_⟩
    exact (hroot.hasTag .root).trans (startScene_tagged hruns.hosts .root)
  case only =>
    intro r hr
    have htagged := hr.hasTag
    obtain ⟨e, he, -⟩ := hr
    refine hshows.eq_root_of_owns (by_contra fun hnew => ?_) htagged
    rw [hkeeps.entity? r hnew] at he
    exact hnew (owns_of_entity?_summoned hruns.hosts (by rw [hempty]; exact Nat.zero_le r) he)
  case idle =>
    exact fun c _ => (hshows.hasTag (.playing c.clip.storageName)).trans
      (startScene_tagged hruns.hosts (.playing c.clip.storageName))
  case mode =>
    exact fun c hc => (hshows.score (.loopMode c.clip.storageName)).trans
      (Instance.settled_mode hc h.areCompiled.nodup_storageNames)
  case body =>
    -- the body of a slot is the passenger with the number of its place
    intro slot hslot hentity
    obtain ⟨b, hb, rfl⟩ := h.exists_body hslot hentity
    obtain ⟨j, hj⟩ := List.getElem?_of_mem hb
    have hrider : w₁.entities.size + 1 + j ∈ (newInstance hruns.hosts).riders :=
      mem_riders_newInstance.2 ⟨j, b, hj, rfl⟩
    have hplace := placeOf_startScene hruns.hosts hj
    obtain ⟨e, he, hshown⟩ := hshows.riders _ hrider
    refine ⟨_, e.look.place, hshows.isBody hrider (embodies_newInstance hruns.hosts hj), ?_, ?_⟩
    · rw [World.place?, he, Option.map_some]
    · rw [hshown.look]
      exact congrArg Place.teleport hplace

/-- What is seen of a root and of the entity of a node that it carries. -/
theorem RunsOnly.exists_shows (h : s.RunsOnly clips w) (hroot : w.IsRoot s.names s.config root)
    (hnames : (s.rig.slots.toList.map (·.storageName)).Nodup) {slot : Slot}
    (hslot : slot ∈ s.rig.slots.toList) (hentity : slot.node.kind.hasEntity = true) {id : Nat}
    (hbody : w.IsBody s.names s.rig root slot id) :
    ∃ (R : Ride) (v : View), R.stage = s ∧ R.clips = clips ∧ R.root = root ∧ R.rider = id ∧
      R.slot = slot ∧ R.Shows w v := by
  have htagged := hroot.hasTag
  obtain ⟨e, he, halive, htype, -⟩ := hroot
  have hapart : root ≠ id := by
    rintro rfl
    rw [hbody.notRoot] at htagged
    cases htagged
  obtain ⟨q, hq, -⟩ := hbody.rides.isLiving h.tied
  let R : Ride := ⟨s, clips, root, id, slot, hslot, hnames, hentity, hapart⟩
  let v : View := ⟨fun k => w.score? root (s.names.score k), fun k => w.hasTag root (s.names.tag k),
    q.look.place⟩
  have hplace : w.place? id = some q.look.place := by rw [World.place?, hq, Option.map_some]
  refine ⟨R, v, rfl, rfl, rfl, rfl, rfl, ?_⟩
  exact ⟨h, ⟨e, he, h.tied.numbered root e he, halive, htype⟩, hbody, fun _ => rfl, fun _ => rfl,
    hplace⟩

/-! ### Ticks -/

/-- A tick picks the roots. -/
theorem mem_select_roots (ht : Tied [] w.entities) :
    root ∈ w.select s.roots none ↔ w.IsRoot s.names s.config root := by
  have hmatch : ∀ e : Entity, e.matches s.roots = true ↔
      e.alive = true ∧ e.entityType = s.config.rootEntity ∧ e.hasTag s.names.rootTag = true := by
    intro e
    rw [show e.matches s.roots = _ from e.matches_ofType_tagged _ _, Bool.and_eq_true,
      Bool.and_eq_true, beq_iff_eq, and_assoc, eq_comm (a := e.entityType)]
  show root ∈ (w.entities.toList.filter fun e => e.matches s.roots).map (·.id) ↔ _
  simp only [List.mem_map, List.mem_filter, Array.mem_toList_iff, hmatch]
  constructor
  · rintro ⟨e, ⟨he, hroot⟩, rfl⟩
    obtain ⟨i, hi⟩ := Array.getElem?_of_mem he
    obtain rfl : e.id = i := ht.numbered i e hi
    exact ⟨e, hi, hroot⟩
  · rintro ⟨e, he, hroot⟩
    exact ⟨e, ⟨Array.mem_of_getElem? he, hroot⟩, ht.numbered root e he⟩

/-- A tick picks every root once. -/
theorem nodup_select_roots (ht : Tied [] w.entities) : (w.select s.roots none).Nodup := by
  have hids : w.entities.toList.map (·.id) = List.range w.entities.size := by
    refine List.ext_getElem (by simp) fun i hi _ => ?_
    rw [List.getElem_map, List.getElem_range]
    exact ht.numbered i _ (Array.getElem?_eq_getElem (by simpa using hi))
  have hall : (w.entities.toList.map (·.id)).Nodup := hids ▸ List.nodup_range
  exact (List.filter_sublist.map _).nodup hall

/-- A tick of the world is one of every root in turn; `I` says what holds while some of them are
still to come. -/
theorem RunsOnly.tick_of_turns (h : s.RunsOnly clips w) {d : Nat} (hd : d < defaultMaxDepth)
    {I : List Nat → World → Prop}
    (hstep : ∀ id ids u, I (id :: ids) u →
      World.Does d (.function (s.function "on_tick")) (some id) u (I ids))
    (hstart : ∀ next : World, next = { w with gameTime := w.gameTime + 1 } →
      s.RunsOnly clips next → I (next.select s.roots none) next) :
    ∃ w', Run.on World.tick w = (.ok (), w') ∧ I [] w' := by
  obtain ⟨next, hnext⟩ : ∃ next : World, next = { w with gameTime := w.gameTime + 1 } := ⟨_, rfl⟩
  have hruns : s.RunsOnly clips next := by
    rw [hnext]
    exact h.changes World.Change.clock.once
  have hcall : World.Does (d + 1) (.function (s.function "tick")) none next (I []) :=
    World.Does.call hruns.hosts.installs (mem_functions_of_tick (.tail _ <| .head _))
      (World.DoesAll.cons (World.Does.imp (World.Does.execute_asEach (fun id ids u hu =>
        World.Does.execute_nil (hstep id ids u hu)) (hstart next hnext hruns)) fun _ hw' =>
          World.DoesAll.nil hw'))
  have hdepth : d + 1 ≤ next.maxDepth := by
    rw [hruns.hosts.maxDepth]
    exact hd
  obtain ⟨-, w', hrun, hw'⟩ := World.Leads.run_on hcall hdepth
  exact ⟨w', World.on_tick h.tickFunctions (hnext ▸ hrun), hw'⟩

/-- A control of an animation ends without an error. -/
theorem Ready.control (h : s.Ready clips w) (hc : c ∈ clips) (hroot : w.IsLiving root)
    {name : String} {body : List Command}
    (hmem : ((ClipPaths.ofClip s.names.namespaceName c.clip).control name, body) ∈
      s.controlFunctions (.ofClip s.names.namespaceName c.clip) c.clip) :
    ∃ w', Run.on (World.run ((ClipPaths.ofClip s.names.namespaceName c.clip).control name)
      (some root)) w = (.ok (), w') ∧ Changes w w' := by
  refine h.run (mem_functions_of_control hc hmem) fun id hid => ?_
  obtain ⟨e, he, -⟩ := hroot
  obtain rfl := Option.some.inj hid
  exact (Array.getElem?_eq_some_iff.1 he).1

theorem Ready.ticks (h : s.Ready clips w) (count : Nat) :
    ∃ w', Run.on (World.ticks count) w = (.ok (), w') := by
  induction count generalizing w with
  | zero => exact ⟨w, rfl⟩
  | succ count ih =>
    obtain ⟨w₁, htick, hchanges⟩ := h.tick
    obtain ⟨w₂, hticks⟩ := ih (h.changes hchanges)
    exact ⟨w₂, (Run.on_bind_ok htick).trans hticks⟩

end Stage

end Marionette
