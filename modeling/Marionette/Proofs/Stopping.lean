import Marionette.Proofs.Instance.Company
import Marionette.Proofs.Instance.Replay
import Marionette.Proofs.Isolation.Crews
import Marionette.Proofs.Sampling.Poses
import Marionette.Proofs.Seeking

/-!
# Stopping forgets the past

The frame of the first tick holds every moved node that has an entity, though all later frames are
sparse.  So stopping an animation brings these nodes to the poses of its first tick, whatever has
happened to the instance before.

- `Place.shown`, `Pose.shown`: what an entity of a node shows of a pose.
- `World.IsPosed`: the entity of a node is there and shows a pose.
- `Instance.placeOf_stopped`: where stopping brings a passenger.
- `Populates.stop`: stopping brings the entities of nodes to the entries of the first tick;
  `Compiles.stop`: so it is in every world that callers can reach.
- `stops_of_compile`: these are the poses that the animation has there, for everything that is
  compiled; `stops_of_dolly`: a camera that another animation has moved.
-/

namespace Marionette

/-- What an entity of a node shows of where it is: its transformation, or else its last teleport. -/
def Place.shown (place : Place) (kind : NodeKind) : Option Datum ⊕ Option (Vec3 × Float × Float) :=
  if kind.isMatrix then .inl place.transformation else .inr place.teleport

/-- What an entity of a node shows of a pose. -/
def Pose.shown (pose : Pose) (kind : NodeKind) : Option Datum ⊕ Option (Vec3 × Float × Float) :=
  if kind.isMatrix then .inl (some (transformation pose.matrix))
  else .inr (some (pose.offset, pose.yaw, pose.pitch))

theorem NodeKind.shown_goTo (kind : NodeKind) (pose : Pose) (place : Place) :
    (kind.goTo pose place).shown kind = pose.shown kind := by
  unfold goTo Place.shown Pose.shown
  split <;> rfl

namespace World

/-- The root carries the entity of a node, and nothing that it carries for that node shows another
pose than this one. -/
structure IsPosed (w : World) (v : RuntimeNames) (rig : Rig) (root : Nat) (slot : Slot)
    (pose : Pose) :
    Prop where
  exists_body : ∃ id, w.IsBody v rig root slot id
  shown : ∀ id, w.IsBody v rig root slot id →
    (w.place? id).map (·.shown slot.node.kind) = some (pose.shown slot.node.kind)

end World

namespace Instance

variable {I : Instance} {c : CompiledClip} {w : World} {sc : Scene} {slot : Slot} {r : Nat}

/-- The entities of nodes that a root carries are passengers of its instance. -/
theorem Shows.embodies (h : I.Shows w sc)
    (hbody : w.IsBody I.stage.names I.stage.rig I.root slot r) :
    r ∈ I.riders ∧ I.Embodies r slot := by
  have hr := (h.carries_iff r).1 hbody.rides
  exact ⟨hr, fun other hother => (h.rider_hasTag hr _).symm.trans (hbody.hasTag other hother)⟩

theorem Shows.place? (h : I.Shows w sc) (hr : r ∈ I.riders) : w.place? r = some (placeOf sc r) := by
  obtain ⟨e, he, hshown⟩ := h.riders r hr
  rw [World.place?, he, Option.map_some, hshown.look]
  rfl

/-- Stopping brings a passenger where the first tick has it, if there is an entry. -/
theorem placeOf_stopped (hr : r ∈ I.riders) (hbuilt : c.IsBuilt) (hsparse : c.clip.IsSparse)
    (hnames : (I.stage.rig.slots.toList.map (·.storageName)).Nodup)
    (hslot : slot ∈ I.stage.rig.slots.toList) (hname : I.Embodies r slot)
    (hentity : slot.node.kind.hasEntity = true) {entry : NodeEntry}
    (hentry : c.clip.entryAt? slot.node.uuid 0 = some entry) (sc : Scene) :
    placeOf (stopped I c sc) r = slot.node.kind.goTo entry.pose (placeOf sc r) := by
  let asked := (((sc.set (timeKey c) 0).set .tween 0).tag .suppress).set .frame 0
  have hfirst : I.dispatched c.tree asked = I.shownAt c 0 asked :=
    dispatched_eq_shownAt hbuilt hsparse (by decide) (by simp [asked])
  have hplace :
      placeOf (I.shownAt c 0 asked) r = slot.node.kind.goTo entry.pose (placeOf asked r) := by
    rw [placeOf_shownAt hr hnames hslot hname hentity, hentry]
  rw [← hfirst] at hplace
  exact hplace

end Instance

namespace Stage

open World (Reaches)

variable {s : Stage} {clips : List CompiledClip} {o : Output} {w₀ w₁ w : World} {c : CompiledClip}
  {root : Nat}

/-- Stopping brings the entities of nodes to the entries of the first tick, whatever they showed
before. -/
theorem Populates.stop (h : s.Populates clips w) (hroot : w.IsRoot s.names s.config root)
    (hcrew : w.HasCrew s.names s.rig root) (hc : c ∈ clips) (hsparse : c.clip.IsSparse)
    (hnames : (s.rig.slots.toList.map (·.storageName)).Nodup) :
    ∃ u, Run.on
      (World.run ((ClipPaths.ofClip s.names.namespaceName c.clip).control "stop") (some root)) w =
        (.ok (), u) ∧
      ∀ slot ∈ s.rig.slots.toList, slot.node.kind.hasEntity = true →
        ∀ entry, c.clip.entryAt? slot.node.uuid 0 = some entry →
          u.IsPosed s.names s.rig root slot entry.pose := by
  obtain ⟨I, sc, rfl, rfl, rfl, hI, -⟩ := h.exists_shows hroot
  have hruns := (h.isAble hI).runs hc
  obtain ⟨u, hrun, ⟨hstopped, -⟩, -⟩ := h.run hI (by decide) (Instance.Takes.stop hruns)
  refine ⟨u, hrun, fun slot hslot hentity entry hentry => ⟨?_, fun id hbody => ?_⟩⟩
  · obtain ⟨id, hbody⟩ := hcrew.exists_isBody hslot hentity
    obtain ⟨hr, hname⟩ := hI.embodies hbody
    exact ⟨id, hstopped.isBody hr hname⟩
  · obtain ⟨hr, hname⟩ := hstopped.embodies hbody
    rw [hstopped.place? hr, Option.map_some,
      Instance.placeOf_stopped hr hruns.built hsparse hnames hslot hname hentity hentry,
      NodeKind.shown_goTo]

/-- So it is in every world that callers can reach who run functions as roots only. -/
theorem Compiles.stop (h : s.Compiles o) (hrig : s.rig.IsBuilt) (hw₀ : World.ofPack o.pack = .ok w₀)
    (hload : Run.on World.load w₀ = (.ok (), w₁)) (hw : Reaches (o.OffersRoots s.config) w₁ w)
    (hroot : w.IsRoot s.names s.config root) (hc : c ∈ o.clips) :
    ∃ u, Run.on
      (World.run ((ClipPaths.ofClip s.names.namespaceName c.clip).control "stop") (some root)) w =
        (.ok (), u) ∧
      ∀ slot ∈ s.rig.slots.toList, slot.node.kind.hasEntity = true →
        ∀ entry, c.clip.entryAt? slot.node.uuid 0 = some entry →
          u.IsPosed s.names s.rig root slot entry.pose :=
  (h.populates hrig hw₀ hload (hw.imp fun _ _ hd => hd.1)).stop hroot
    ((h.isIntact_of_reaches hrig hw₀ hload hw).hasCrew root hroot) hc (h.isSparse c hc)
    hrig.nodup_storageNames

end Stage

/-- Stopping forgets the past, for everything that is compiled.  In any two worlds that callers can
reach who run functions as roots only, and on any two roots, stopping an animation of positive
duration leaves every moved node that has an entity where the animation has it at its first tick,
and so in the same place. -/
theorem stops_of_compile (name : String) (nodes : List RigNode) (variants : List Variant)
    (animations : List Animation) (config : Config) :
    Ensures (Rig.build name nodes variants) fun rig =>
      Ensures (compile rig animations config) fun o =>
        ∃ w₀ w₁, World.ofPack o.pack = .ok w₀ ∧ Run.on World.load w₀ = (.ok (), w₁) ∧
          ∀ (i : Nat) (a : Animation), animations[i]? = some a → 0 < a.duration →
            ∃ c, o.clips[i]? = some c ∧
              ∀ w w', World.Reaches (o.OffersRoots config) w₁ w →
                World.Reaches (o.OffersRoots config) w₁ w' →
                ∀ root root', w.IsRoot ⟨o.namespaceName⟩ config root →
                  w'.IsRoot ⟨o.namespaceName⟩ config root' → ∃ u u',
                    Run.on (World.run ((ClipPaths.ofClip o.namespaceName c.clip).control "stop")
                      (some root)) w = (.ok (), u) ∧
                    Run.on (World.run ((ClipPaths.ofClip o.namespaceName c.clip).control "stop")
                      (some root')) w' = (.ok (), u') ∧
                    ∀ (place : Nat) (slot : Slot), rig.slots[place]? = some slot →
                      slot.node.kind.hasEntity = true → slot.node.uuid ∈ c.clip.modifiedNodes →
                        ∃ pose, a.poseAt? rig config 0 place = some pose ∧
                          u.IsPosed ⟨o.namespaceName⟩ rig root slot pose ∧
                          u'.IsPosed ⟨o.namespaceName⟩ rig root' slot pose := by
  refine Ensures.intro fun rig hbuild => Ensures.intro fun o hcompile => ?_
  have hrig : rig.IsBuilt := ⟨name, nodes, variants, hbuild⟩
  have hsampled := Stage.forall₂_sample_of_compile hcompile
  obtain ⟨s, rfl, rfl, hcompiles⟩ := Stage.exists_compiles hrig hcompile
  have hns := hcompiles.namespaceName
  have hnames : s.names = ⟨o.namespaceName⟩ := by rw [← hns]
  obtain ⟨w₀, w₁, hw₀, hload, -⟩ := hcompiles.exists_runsOnly hrig
  refine ⟨w₀, w₁, hw₀, hload, fun i a ha hduration => ?_⟩
  -- the animation was sampled to the clip at its place
  obtain ⟨hi, rfl⟩ := List.getElem?_eq_some_iff.1 ha
  have hi' : i < o.clips.length := hsampled.length_eq ▸ hi
  obtain ⟨names, remarks, hsample⟩ := hsampled.get hi hi'
  have hc : o.clips[i] ∈ o.clips := List.getElem_mem hi'
  have hlength : 0 < o.clips[i].clip.duration :=
    (takesOver_of_sample hsample).duration ▸ hduration
  refine ⟨_, List.getElem?_eq_getElem hi', fun w w' hw hw' root root' hroot hroot' => ?_⟩
  rw [← hnames] at hroot hroot' ⊢
  rw [← hns]
  obtain ⟨u, hrun, hposed⟩ := hcompiles.stop hrig hw₀ hload hw hroot hc
  obtain ⟨u', hrun', hposed'⟩ := hcompiles.stop hrig hw₀ hload hw' hroot' hc
  refine ⟨u, u', hrun, hrun', fun place slot hplace hentity hmoved => ?_⟩
  obtain ⟨entry, hentry, hpose⟩ :=
    exists_entry_zero_of_sample hrig hsample hplace hmoved hentity hlength
  have hslot : slot ∈ s.rig.slots.toList := Array.mem_toList_iff.2 (Array.mem_of_getElem? hplace)
  exact ⟨entry.pose, hpose, hposed slot hslot hentity entry hentry,
    hposed' slot hslot hentity entry hentry⟩

/-- A camera is summoned, and then it is moved by `tilt`.  In both worlds, stopping `pan` brings it
to the first pose of `pan`. -/
theorem stops_of_dolly : ∃ (o : Output) (w₀ w₁ w w' u u' : World) (c : CompiledClip) (root : Nat)
    (pose : Pose),
    Rig.build "dolly" [⟨⟨1⟩, "camera", none, .camera, {}⟩] [] = .ok dolly ∧
    compile dolly [pan, tilt] {} = .ok o ∧ World.ofPack o.pack = .ok w₀ ∧
    Run.on World.load w₀ = (.ok (), w₁) ∧ World.Reaches (o.OffersRoots {}) w₁ w ∧
    World.Reaches (o.OffersRoots {}) w₁ w' ∧ w.IsRoot ⟨o.namespaceName⟩ {} root ∧
    w'.IsRoot ⟨o.namespaceName⟩ {} root ∧ o.clips[0]? = some c ∧
    Run.on (World.run ((ClipPaths.ofClip o.namespaceName c.clip).control "stop") (some root)) w =
      (.ok (), u) ∧
    Run.on (World.run ((ClipPaths.ofClip o.namespaceName c.clip).control "stop") (some root)) w' =
      (.ok (), u') ∧
    pan.poseAt? dolly {} 0 0 = some pose ∧
    u.IsPosed ⟨o.namespaceName⟩ dolly root ⟨⟨⟨1⟩, "camera", none, .camera, {}⟩, "camera",
      none⟩ pose ∧
    u'.IsPosed ⟨o.namespaceName⟩ dolly root ⟨⟨⟨1⟩, "camera", none, .camera, {}⟩, "camera",
      none⟩ pose := by
  obtain ⟨p, t, -, -, hpan, htilt, hlength, -, hmoved, -⟩ := exists_sample_dolly
  obtain ⟨o, hcompile, hboth⟩ := exists_compile_dolly hpan htilt
  have hduration : 0 < pan.duration :=
    (takesOver_of_sample hpan).duration ▸ Nat.zero_lt_of_lt hlength
  have hslot : dolly.slots[0]? = some ⟨⟨⟨1⟩, "camera", none, .camera, {}⟩, "camera", none⟩ := rfl
  -- under names of their own, nothing of the rig and the animations is computed
  obtain ⟨nodes, hnodes⟩ : ∃ nodes : List RigNode, nodes = [⟨⟨1⟩, "camera", none, .camera, {}⟩] :=
    ⟨_, rfl⟩
  obtain ⟨animations, hanimations⟩ : ∃ animations, animations = [pan, tilt] := ⟨_, rfl⟩
  obtain ⟨rig, hrig⟩ : ∃ rig, rig = dolly := ⟨_, rfl⟩
  have hbuild : Rig.build "dolly" [⟨⟨1⟩, "camera", none, .camera, {}⟩] [] = .ok dolly := rfl
  rw [← hnodes, ← hrig] at hbuild
  rw [← hanimations, ← hrig] at hcompile
  rw [← hrig] at hslot
  have hbuilt : rig.IsBuilt := hrig ▸ isBuilt_dolly
  have hfirst : animations[0]? = some pan := by rw [hanimations]; rfl
  obtain ⟨w₀, w₁, hw₀, hload, hstops⟩ :=
    ((stops_of_compile "dolly" nodes [] animations {}).apply hbuild).apply hcompile
  obtain ⟨c, hc, hstops⟩ := hstops 0 pan hfirst hduration
  obtain rfl : _ = c := Option.some.inj ((congrArg (·[0]?) hboth).symm.trans hc)
  -- a new instance, on which `tilt` is played then
  obtain ⟨s, rfl, hconfig, hcompiles⟩ := Stage.exists_compiles hbuilt hcompile
  have hnames : s.names = ⟨o.namespaceName⟩ := by rw [← hcompiles.namespaceName]
  obtain ⟨w₀', w₁', hw₀', hload', hruns⟩ := hcompiles.exists_runsOnly hbuilt
  obtain rfl := Stage.eq_of_load hw₀ hload hw₀' hload'
  obtain ⟨root, w, hsummon, hsummoned, -, hnew⟩ := hcompiles.exists_instance hw₀ hload hruns
  have hroot := hnew.isRoot
  have htilt : (⟨t.1, .build t.1.frames t.1.duration⟩ : CompiledClip) ∈ o.clips :=
    hboth ▸ List.mem_cons_of_mem _ List.mem_cons_self
  have hpopulates := hcompiles.populates hbuilt hw₀ hload hsummoned
  obtain ⟨I, sc, rfl, hclips, rfl, hI, htagged⟩ := hpopulates.exists_shows hroot
  rw [← hclips] at hpopulates htilt
  obtain ⟨w', hplay, ⟨hplayed, -⟩, -⟩ :=
    hpopulates.run hI (by decide) (Instance.Takes.play ((hpopulates.isAble hI).runs htilt))
  have hroot' := hplayed.isRoot (by simp [Instance.played, Instance.playingKey, htagged])
  -- callers can do both
  have hmem := Stage.mem_functions_of_control (s := I.stage) htilt (.head _)
  rw [hclips] at hmem
  have hcreated := Stage.installs_ofPack hcompiles.pack hw₀ _ hmem
  rw [hnames, hconfig] at hroot hroot'
  have hw : World.Reaches (o.OffersRoots {}) w₁ w :=
    Output.reaches_of_summon (hcompiles.namespaceName ▸ hsummon)
  have hw' : World.Reaches (o.OffersRoots {}) w w' := by
    refine .single (.inl ⟨.run _ (some I.root), ⟨⟨⟨_, World.mem_functions_of_ofPack hw₀ hcreated⟩,
      hroot.knows⟩, fun path executor heq => ?_⟩, congrArg Prod.snd hplay.symm⟩)
    cases heq
    exact ⟨I.root, rfl, hroot⟩
  obtain ⟨u, u', hstop, hstop', hposed⟩ := hstops w w' hw (hw.trans hw') _ _ hroot hroot'
  obtain ⟨pose, hpose, hfirst, hsecond⟩ := hposed 0 _ hslot rfl hmoved
  rw [hrig] at hbuild hcompile hpose hfirst hsecond
  exact ⟨o, w₀, w₁, w, w', u, u', _, I.root, pose, hnodes ▸ hbuild, hanimations ▸ hcompile,
    hw₀, hload, hw, hw.trans hw', hroot, hroot', hc, hstop, hstop', hpose, hfirst, hsecond⟩

end Marionette
