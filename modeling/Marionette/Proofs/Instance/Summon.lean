import Marionette.Proofs.Functions.Payload
import Marionette.Proofs.Instance.Places
import Marionette.Proofs.Instance.Ticks

/-!
# Loading and summoning

- `Stage.Hosts.load`: loading creates the objectives of all scores.
- `Stage.newInstance`: the instance that summoning adds to a world, and `Stage.firstScene`: what can
  be seen of it at first.
- `Instance.initiated`: its scene once its scores are set; `Takes.initInstance`: they are.
- `Stage.Hosts.summon`: summoning leads there.
-/

namespace Marionette

/-- The score is one that the instances of a rig with some animations have. -/
def ScoreKey.IsAmong (clips : List CompiledClip) : ScoreKey → Prop
  | localTime a | loopMode a => ∃ c ∈ clips, c.clip.storageName = a
  | _ => True

namespace World

/-! ### Objectives -/

/-- Nothing has changed but that objectives were created, among them those that commands create. -/
structure Declares (w : World) (cs : List Command) (w' : World) : Prop where
  same : ∃ objectives, w' = { w with objectives := objectives }
  kept : ∀ name, w.hasObjective name = true → w'.hasObjective name = true
  new : ∀ name, .objectiveAdd name ∈ cs → w'.hasObjective name = true

variable {d : Nat} {w : World} {executor : Option Nat} {cs : List Command}

theorem Does.objectiveAdd (name : String) :
    Does d (.objectiveAdd name) executor w (w.Declares [.objectiveAdd name]) := by
  refine Leads.bind_on (Run.on_get w) ?_
  cases hname : w.hasObjective name with
  | true =>
    refine Leads.of_on rfl ⟨⟨w.objectives, rfl⟩, fun _ h => h, fun name' h => ?_⟩
    obtain rfl := Command.objectiveAdd.inj (List.mem_singleton.1 h)
    exact hname
  | false =>
    refine Leads.of_on rfl ⟨⟨w.objectives.insert name, rfl⟩, fun name' h => ?_, fun name' h => ?_⟩
    · have hold : w.objectives.contains name' = true := h
      exact Std.HashSet.contains_insert.trans (by rw [hold, Bool.or_true])
    · obtain rfl := Command.objectiveAdd.inj (List.mem_singleton.1 h)
      exact Std.HashSet.contains_insert.trans (by rw [beq_self_eq_true, Bool.true_or])

/-- Commands that create objectives or say something do nothing else. -/
theorem DoesAll.declares
    (h : ∀ c ∈ cs, (∃ name, c = .objectiveAdd name) ∨ ∃ text, c = .comment text) :
    DoesAll d cs executor w (w.Declares cs) := by
  induction cs generalizing w with
  | nil => exact DoesAll.nil ⟨⟨w.objectives, rfl⟩, fun _ h => h, fun _ h => nomatch h⟩
  | cons c rest ih =>
    obtain ⟨hc, hrest⟩ := List.forall_mem_cons.1 h
    rcases hc with ⟨name, rfl⟩ | ⟨text, rfl⟩
    · refine DoesAll.cons ((Does.objectiveAdd name).imp fun w' hw' => ?_)
      refine (ih hrest).imp fun w'' hw'' => ?_
      obtain ⟨objectives, rfl⟩ := hw'.same
      obtain ⟨objectives', rfl⟩ := hw''.same
      refine ⟨⟨objectives', rfl⟩, fun name' h => hw''.kept _ (hw'.kept _ h), fun name' h => ?_⟩
      rcases List.mem_cons.1 h with h | h
      · exact hw''.kept _ (hw'.new _ (List.mem_singleton.2 h))
      · exact hw''.new _ h
    · refine DoesAll.cons (Does.comment ((ih hrest).imp fun w' hw' => ?_))
      refine ⟨hw'.same, hw'.kept, fun name' h => hw'.new _ ?_⟩
      rcases List.mem_cons.1 h with h | h
      · cases h
      · exact h

end World

namespace Stage

variable {s : Stage} {clips : List CompiledClip} {w : World}

theorem loadBody_declares {cs : List Clip} {c : Command} (hc : c ∈ s.loadBody cs) :
    (∃ name, c = .objectiveAdd name) ∨ ∃ text, c = .comment text := by
  simp only [loadBody, List.mem_append, List.mem_flatMap, List.mem_cons, List.not_mem_nil, or_false,
    List.mem_map] at hc
  rcases hc with ((rfl | ⟨objective, -, rfl | rfl⟩) | rfl | rfl) | ⟨clip, -, rfl⟩
  · exact .inr ⟨_, rfl⟩
  · exact .inr ⟨_, rfl⟩
  · exact .inl ⟨_, rfl⟩
  · exact .inr ⟨_, rfl⟩
  · exact .inr ⟨_, rfl⟩
  · exact .inr ⟨_, rfl⟩

/-- The objectives of all scores are created. -/
theorem objectiveAdd_mem_loadBody (s : Stage) {k : ScoreKey} (hk : k.IsAmong clips) :
    .objectiveAdd (s.names.score k) ∈ s.loadBody (clips.map (·.clip)) := by
  -- it is enough to find the objective in one of the two lists
  have hmem : ∀ about, (s.names.score k, about) ∈ s.names.instanceObjectives ++
        (clips.map (·.clip)).flatMap (fun c => s.names.animationObjectives c.storageName) →
      .objectiveAdd (s.names.score k) ∈ s.loadBody (clips.map (·.clip)) := fun about h =>
    List.mem_append_left _ (List.mem_append_left _ (List.mem_append_right _
      (List.mem_flatMap.2 ⟨_, h, List.mem_cons_of_mem _ (List.mem_singleton_self _)⟩)))
  cases k with
  | frame => exact hmem _ (List.mem_append_left _ (.head _))
  | tween => exact hmem _ (List.mem_append_left _ (.tail _ (.head _)))
  | tweenRequest => exact hmem _ (List.mem_append_left _ (.tail _ (.tail _ (.head _))))
  | interp => exact hmem _ (List.mem_append_left _ (.tail _ (.tail _ (.tail _ (.head _)))))
  | lifetime =>
    exact hmem _ (List.mem_append_left _ (.tail _ (.tail _ (.tail _ (.tail _ (.head _))))))
  | localTime a =>
    obtain ⟨c, hc, rfl⟩ := hk
    exact hmem _ (List.mem_append_right _ (List.mem_flatMap.2
      ⟨c.clip, List.mem_map_of_mem hc, .head _⟩))
  | loopMode a =>
    obtain ⟨c, hc, rfl⟩ := hk
    exact hmem _ (List.mem_append_right _ (List.mem_flatMap.2
      ⟨c.clip, List.mem_map_of_mem hc, .tail _ (.head _)⟩))

/-- The objectives of all scores of the rig have been created. -/
def IsLoaded (s : Stage) (clips : List CompiledClip) (w : World) : Prop :=
  ∀ k : ScoreKey, k.IsAmong clips → w.hasObjective (s.names.score k) = true

/-- Loading creates the objectives of all scores and changes nothing else. -/
theorem Hosts.load (h : s.Hosts clips w) (hload : w.loadFunctions = [s.function "load"]) :
    ∃ objectives, Run.on World.load w = (.ok (), { w with objectives := objectives }) ∧
      s.IsLoaded clips { w with objectives := objectives } := by
  have hcall : World.Does 1 (.function (s.function "load")) none w
      (w.Declares (s.loadBody (clips.map (·.clip)))) :=
    World.Does.call h.installs_ticks (.head _)
      (World.DoesAll.declares fun _ hc => loadBody_declares hc)
  obtain ⟨-, w', hrun, hdeclares⟩ := World.Leads.run_on hcall (by rw [h.maxDepth]; decide)
  obtain ⟨objectives, rfl⟩ := hdeclares.same
  refine ⟨objectives, ?_, fun k hk => hdeclares.new _ (s.objectiveAdd_mem_loadBody hk)⟩
  have heach : Run.on (World.runEach [s.function "load"]) w =
      (.ok (), { w with objectives := objectives }) := Run.on_bind_ok hrun
  show Run.on (Bind.bind (get : Run World) _) w = _
  rw [Run.on_bind_ok (Run.on_get w)]
  exact (congrArg (fun fs => Run.on (World.runEach fs) w) hload).trans heach

/-! ### The new entities -/

/-- Roots whose scores are not set yet. -/
def newborns (s : Stage) : Selector :=
  (Selector.entities.ofType s.config.rootEntity).tagged s.names.newTag

/-- A world in which the entities of a new instance have been created. -/
def summoned (s : Stage) (w : World) : World :=
  { w with entities :=
      (World.spawn w.entities none (.ofData s.config.rootEntity s.summonPayload)).1 }

theorem isSingle_bodyPlan (s : Stage) : ∀ plan ∈ s.bodies.map s.bodyPlan, plan.isSingle = true := by
  intro plan hplan
  obtain ⟨b, -, rfl⟩ := List.mem_map.1 hplan
  rfl

/-- The root comes after all other entities, and then the entities of the nodes. -/
theorem entity?_summoned (s : Stage) (w : World) (i : Nat) :
    (s.summoned w).entity? i =
      if i < w.entities.size then w.entity? i
      else if i = w.entities.size then
        some { id := i, entityType := s.config.rootEntity, tags := tagsOf s.summonPayload,
               data := ownData s.summonPayload,
               passengers := List.range' (w.entities.size + 1) s.bodies.length }
      else s.bodies[i - (w.entities.size + 1)]?.map fun b =>
        (s.bodyPlan b).entity i (some w.entities.size) := by
  show (World.spawn w.entities none _).1[i]? = _
  rw [ofData_summonPayload, World.getElem?_spawn (s.isSingle_bodyPlan), List.length_map,
    List.getElem?_map, Option.map_map]
  rfl

theorem entity?_summoned_rider (s : Stage) (w : World) {j : Nat} {b : Slot × Pose}
    (hb : s.bodies[j]? = some b) :
    (s.summoned w).entity? (w.entities.size + 1 + j) =
      some ((s.bodyPlan b).entity (w.entities.size + 1 + j) (some w.entities.size)) := by
  rw [entity?_summoned, if_neg (by omega), if_neg (by omega),
    show w.entities.size + 1 + j - (w.entities.size + 1) = j by omega, hb]
  rfl

/-- The new entities carry the tags that the data asks for. -/
theorem hasTag_summoned_rider (s : Stage) (w : World) {j : Nat} {b : Slot × Pose}
    (hb : s.bodies[j]? = some b) (t : String) :
    (s.summoned w).hasTag (w.entities.size + 1 + j) t =
      decide (t = s.names.nodeTag b.1.storageName ∨ t = s.names.anyNodeTag) := by
  rw [World.hasTag, s.entity?_summoned_rider w hb, Option.any_some]
  show decide (t ∈ tagsOf (s.bodyData b)) = _
  rw [decide_eq_decide]
  exact mem_tagsOf_bodyData

/-- The tags that tell roots from other entities are no tags of the entities of nodes. -/
theorem hasTag_summoned_of_ne (s : Stage) (w : World) {t : TagKey} (ht : t = .root ∨ t = .new)
    {i : Nat} (hi : i ∈ List.range' (w.entities.size + 1) s.bodies.length) :
    (s.summoned w).hasTag i (s.names.tag t) = false := by
  obtain ⟨j, hj, rfl⟩ := List.mem_range'.1 hi
  rw [Nat.one_mul, s.hasTag_summoned_rider w (List.getElem?_eq_getElem hj), decide_eq_false_iff_not]
  obtain ⟨hany, hnode⟩ := RuntimeNames.tag_ne_nodeTag (v := s.names) ht
  exact not_or.2 ⟨hnode _, hany⟩

/-- The instance that summoning adds to a world. -/
def newInstance {s : Stage} (hosts : s.Hosts clips w) : Instance where
  stage := s
  clips := clips
  home := w
  root := w.entities.size
  riders := List.range' (w.entities.size + 1) s.bodies.length
  tags := (s.summoned w).hasTag
  hosts := hosts
  distinct := List.nodup_range' (s := w.entities.size) (n := s.bodies.length + 1)
  notRoot _ hr := s.hasTag_summoned_of_ne w (t := .root) (.inl rfl) hr

theorem mem_riders_newInstance {hosts : s.Hosts clips w} {r : Nat} :
    r ∈ (newInstance hosts).riders ↔ ∃ j b, s.bodies[j]? = some b ∧
    r = w.entities.size + 1 + j := by
  show r ∈ List.range' _ _ ↔ _
  rw [List.mem_range']
  constructor
  · rintro ⟨j, hj, rfl⟩
    exact ⟨j, _, List.getElem?_eq_getElem hj, by rw [Nat.one_mul]⟩
  · rintro ⟨j, b, hb, rfl⟩
    exact ⟨j, (List.getElem?_eq_some_iff.1 hb).1, by rw [Nat.one_mul]⟩

/-- A passenger of a new instance is the entity of a single node. -/
theorem isNode_newInstance (hosts : s.Hosts clips w) {j : Nat} {b : Slot × Pose}
    (hb : s.bodies[j]? = some b) (name : String) :
    (newInstance hosts).isNode (w.entities.size + 1 + j) name =
      decide (name = b.1.storageName) := by
  refine (s.hasTag_summoned_rider w hb _).trans ?_
  rw [decide_eq_decide]
  constructor
  · rintro (htag | htag)
    · exact RuntimeNames.nodeTag_inj htag
    · exact absurd htag (RuntimeNames.nodeTag_ne_anyNodeTag name)
  · rintro rfl
    exact .inl rfl

/-- What can be seen of a new instance before its scores are set. -/
def firstScene (s : Stage) (w : World) : Scene where
  score k := w.score? w.entities.size (s.names.score k)
  tagged k := k == .root || k == .new
  look i := ((s.summoned w).entity? i).elim ⟨[], none⟩ Entity.look
  output := w.output.toList

theorem shows_firstScene (hosts : s.Hosts clips w) :
    (newInstance hosts).Shows (s.summoned w) (s.firstScene w) where
  setting := rfl
  root := by
    refine ⟨_, (s.entity?_summoned w w.entities.size).trans
      ((if_neg (Nat.lt_irrefl _)).trans (if_pos rfl)), rfl, rfl, rfl, rfl, rfl, fun k => ?_⟩
    show decide (s.names.tag k ∈ tagsOf s.summonPayload) = (k == .root || k == .new)
    have hroot : s.names.tag k = s.names.rootTag ↔ k = .root :=
      ⟨fun h => RuntimeNames.tag_inj h, fun h => h ▸ rfl⟩
    have hnew : s.names.tag k = s.names.newTag ↔ k = .new :=
      ⟨fun h => RuntimeNames.tag_inj h, fun h => h ▸ rfl⟩
    rw [Bool.eq_iff_iff, decide_eq_true_eq, mem_tagsOf_summonPayload, hroot, hnew]
    simp
  riders := by
    intro r hr
    obtain ⟨j, b, hb, rfl⟩ := mem_riders_newInstance.1 hr
    have he := s.entity?_summoned_rider w hb
    refine ⟨_, he, rfl, rfl, rfl, fun t => ?_, ?_⟩
    · show _ = (s.summoned w).hasTag (w.entities.size + 1 + j) t
      rw [World.hasTag, he, Option.any_some]
    · show _ = ((s.summoned w).entity? (w.entities.size + 1 + j)).elim _ _
      rw [he]
      rfl
  score := fun _ => rfl
  output := rfl

/-- At first, every node with an entity is at rest. -/
theorem placeOf_firstScene (s : Stage) (w : World) {j : Nat} {b : Slot × Pose}
    (hb : s.bodies[j]? = some b) :
    Instance.placeOf (s.firstScene w) (w.entities.size + 1 + j) =
      ⟨some (transformation b.2.matrix), none⟩ := by
  show (((s.summoned w).entity? (w.entities.size + 1 + j)).elim _ Entity.look).place = _
  rw [s.entity?_summoned_rider w hb]
  show Place.mk (Compound.get? (ownData (s.bodyData b)) "transformation") none = _
  rw [get?_bodyData_transformation]

/-- Of all entities, only the new root has its scores still to be set. -/
theorem select_newborns (hosts : s.Hosts clips w)
    (hnone : ∀ i e, w.entity? i = some e → e.matches s.newborns = false) :
    (s.summoned w).select s.newborns none = [w.entities.size] := by
  have hmatches : ∀ e : Entity, e.matches s.newborns =
      (e.alive && s.config.rootEntity == e.entityType && e.hasTag (s.names.tag .new)) := fun e =>
    e.matches_ofType_tagged _ _
  have hshows := shows_firstScene hosts
  obtain ⟨e, he, hroot⟩ := hshows.root
  have hmatch : e.matches s.newborns = true := by
    have htag : e.hasTag (s.names.tag .new) = true := (hroot.hasTag .new).trans rfl
    rw [hmatches, hroot.alive, hroot.entityType, htag]
    simp [newInstance]
  have hothers : ∀ i e, i ≠ w.entities.size → (s.summoned w).entities.toList[i]? = some e →
      e.matches s.newborns = false := by
    intro i e hi he
    rw [Array.getElem?_toList] at he
    have he' : (s.summoned w).entity? i = some e := he
    rw [entity?_summoned] at he'
    by_cases hlt : i < w.entities.size
    · rw [if_pos hlt] at he'
      exact hnone i e he'
    · -- the entities of the nodes do not have the tag that the root has at first
      rw [if_neg hlt, if_neg hi] at he'
      obtain ⟨b, -, rfl⟩ := Option.map_eq_some_iff.1 he'
      have htag : ((s.bodyPlan b).entity i (some w.entities.size)).hasTag (s.names.tag .new) =
          false := by
        show decide (s.names.tag .new ∈ tagsOf (s.bodyData b)) = false
        obtain ⟨hany, hnode⟩ := RuntimeNames.tag_ne_nodeTag (v := s.names) (k := .new) (.inr rfl)
        rw [decide_eq_false_iff_not, mem_tagsOf_bodyData]
        rintro (heq | heq)
        · exact hnode _ heq
        · exact hany heq
      rw [hmatches, htag, Bool.and_false]
  show ((s.summoned w).entities.toList.filter fun e => e.matches s.newborns).map (·.id) = _
  rw [filter_eq_singleton (Array.getElem?_toList.trans he) hmatch hothers, List.map_cons, hroot.id]
  rfl

end Stage

/-! ### The first scores -/

namespace Instance

variable {I : Instance} {sc : Scene} {d : Nat}

/-- The scores of some animations are set. -/
def settled (clips : List CompiledClip) (sc : Scene) : Scene :=
  clips.foldl (fun sc c => (sc.set (timeKey c) 0).set (modeKey c) c.clip.loopMode.score) sc

/-- The scores of a new instance are set. -/
def initiated (I : Instance) (sc : Scene) : Scene :=
  (settled I.clips ((((sc.set .lifetime 0).set .frame 0).set .tween 0).set .interp
    I.stage.defaultInterp)).untag .new

theorem settled_same {β : Type} (p : Scene → β) (clips : List CompiledClip)
    (h : ∀ k v sc, p (Scene.set sc k v) = p sc) : p (settled clips sc) = p sc :=
  foldl_same p fun _ _ sc => (h _ _ _).trans (h _ _ sc)

/-- Every animation has its own loop mode. -/
theorem settled_mode {clips : List CompiledClip} {c : CompiledClip} (hc : c ∈ clips)
    (hnames : (clips.map (·.clip.storageName)).Nodup) :
    (settled clips sc).score (modeKey c) = some c.clip.loopMode.score := by
  obtain ⟨before, after, rfl⟩ := List.append_of_mem hc
  rw [List.map_append, List.map_cons] at hnames
  obtain ⟨-, hafter, -⟩ := List.nodup_append.1 hnames
  rw [settled, List.foldl_append, List.foldl_cons]
  refine (foldl_same (fun sc : Scene => sc.score (modeKey c)) fun c' hc' sc => ?_).trans
    (if_pos rfl)
  have htime : modeKey c ≠ timeKey c' := nofun
  have hmode : modeKey c ≠ modeKey c' := by
    intro heq
    have hname := ScoreKey.loopMode.inj heq
    exact (List.nodup_cons.1 hafter).1 (hname ▸ List.mem_map_of_mem hc')
  simp [htime, hmode]

theorem TakesAll.settle {clips : List CompiledClip}
    (h : ∀ c ∈ clips, I.Has (timeKey c) ∧ I.Has (modeKey c)) :
    I.TakesAll d (some I.root) ((clips.map (·.clip)).flatMap fun c =>
      [Marionette.setOwn (I.stage.names.localTime c.storageName) 0,
        Marionette.setOwn (I.stage.names.loopMode c.storageName) c.loopMode.score]) sc
      (settled clips sc) := by
  induction clips generalizing sc with
  | nil => exact TakesAll.nil
  | cons c rest ih =>
    obtain ⟨⟨htime, hmode⟩, hrest⟩ := List.forall_mem_cons.1 h
    rw [List.map_cons, List.flatMap_cons]
    exact .cons (.setOwn (k := timeKey c) htime) <|
      .cons (.setOwn (k := modeKey c) hmode) (ih hrest)

/-- The scores of a new instance are set. -/
theorem Takes.initInstance (h : ∀ k : ScoreKey, k.IsAmong I.clips → I.Has k) :
    I.Takes 1 (some I.root) (.function (I.stage.function "init_instance")) sc (initiated I sc) := by
  have hmem : (I.stage.function "init_instance", I.stage.initBody (I.clips.map (·.clip))) ∈
      I.stage.functions I.clips :=
    Stage.mem_functions_of_instance (List.mem_append_left _ (by simp))
  refine Takes.call hmem ?_
  refine .append (.append
    (.cons (.setOwn (k := .lifetime) (h _ trivial)) <|
      .cons (.setOwn (k := .frame) (h _ trivial)) <|
      .cons (.setOwn (k := .tween) (h _ trivial)) <|
      .cons (.setOwn (k := .interp) (h _ trivial)) .nil)
    (.settle fun c hc => ?_)) (.single (.tagRemove (t := .new)))
  exact ⟨h _ ⟨c, hc, rfl⟩, h _ ⟨c, hc, rfl⟩⟩

end Instance

namespace Stage

variable {s : Stage} {clips : List CompiledClip} {w : World}

/-- Summoning adds a new instance whose scores are set, and nothing else changes. -/
theorem Hosts.summon (hosts : s.Hosts clips w) (hloaded : s.IsLoaded clips w)
    (hnone : ∀ i e, w.entity? i = some e → e.matches s.newborns = false) :
    ∃ w', Run.on (World.summon s.names.namespaceName) w = (.ok w.entities.size, w') ∧
      (newInstance hosts).Reaches (s.summoned w)
        (Instance.initiated (newInstance hosts) (s.firstScene w)) w' := by
  let I := newInstance hosts
  let Done := I.Reaches (s.summoned w) (Instance.initiated I (s.firstScene w))
  have hinit : World.Does 1 (.execute [.asEach s.newborns]
      (.function (s.function "init_instance"))) none (s.summoned w) Done :=
    World.Does.execute_asEach_single (select_newborns hosts hnone) (World.Does.execute_nil
      (Instance.Takes.initInstance (I := I) hloaded _ (shows_firstScene hosts)))
  have hcall : World.Does 2 (.function (s.function "summon")) none w Done := by
    refine World.Does.call hosts.installs_instance (.head _) (World.DoesAll.cons ?_)
    have hspawn : World.Does 1 (.summon s.config.rootEntity s.summonPayload) none w
        (· = s.summoned w) := World.Leads.of_on rfl rfl
    refine hspawn.imp ?_
    rintro w' rfl
    exact World.DoesAll.cons (hinit.imp fun _ => World.DoesAll.nil)
  have hdepth : 2 ≤ w.maxDepth := by rw [hosts.maxDepth, defaultMaxDepth]; omega
  obtain ⟨-, w', hrun, hreach⟩ := World.Leads.run_on hcall hdepth
  refine ⟨w', ?_, hreach⟩
  -- the root is the first new entity, and it rides nothing
  obtain ⟨e, he, hroot⟩ := hreach.1.root
  obtain ⟨hlt, hget⟩ := Array.getElem?_eq_some_iff.1 he
  have hdrop : w'.entities.toList.drop w.entities.size =
      e :: w'.entities.toList.drop (w.entities.size + 1) := by
    rw [List.drop_eq_getElem_cons (i := w.entities.size) hlt]
    exact congrArg (· :: _) hget
  have hfound : (w'.entities.toList.drop w.entities.size).find? (fun e => e.vehicle.isNone) =
      some e := by
    rw [hdrop, List.find?_cons, hroot.vehicle]
    rfl
  show Run.on (Bind.bind (get : Run World) _) w = _
  rw [Run.on_bind_ok (Run.on_get w)]
  show Run.on (Bind.bind (World.run (s.function "summon") none) _) w = _
  rw [Run.on_bind_ok hrun, Run.on_bind_ok (Run.on_get w'), hfound]
  show Run.on (Pure.pure e.id) w' = _
  rw [hroot.id]
  rfl

end Stage

end Marionette
