import Marionette.Proofs.Outcome
import Marionette.Proofs.Ride.Reach
import Marionette.Proofs.Ride.Ticks

/-!
# Seeking and playing

A seek applies one frame, the latest up to the local time, and a frame holds only the nodes that
have changed.  So a seek brings the nodes of that frame where playing brings them, and leaves all
others where they are.

- `World.seek`, `World.playFor`: what callers do to a root.
- `Clip.soughtAt?`: the entry of a node that a seek finds.
- `RunsOnly.seek_playFor`: a seek and playing up to its tick agree on the nodes that the seek finds
  and that no other animation moves; the other nodes stay where they are.
- `seeks_of_compile`: the same for everything that is compiled.
- `World.SeeksAsPlayed`, `not_seeksAsPlayed_dolly`: they do not agree on all nodes that an animation
  moves.
-/

namespace Marionette

namespace World

/-- Of the animations of a root that move a node, this one advances at most. -/
def MovesAlone (w : World) (v : RuntimeNames) (clips : List CompiledClip) (root : Nat)
    (c : CompiledClip) (uuid : Uuid) : Prop :=
  ∀ c' ∈ clips, uuid ∈ c'.clip.modifiedNodes → c'.clip.storageName ≠ c.clip.storageName →
    w.hasTag root (v.playingTag c'.clip.storageName) = false

/-- Seeks to a tick: sets the local time and shows its frame. -/
def seek (v : RuntimeNames) (c : CompiledClip) (root tick : Nat) : Run Unit := do
  setScore root (v.localTime c.clip.storageName) (Int32.ofNat tick)
  run ((ClipPaths.ofClip v.namespaceName c.clip).control "set_frame") (some root)

/-- Plays an animation and lets ticks pass. -/
def playFor (v : RuntimeNames) (c : CompiledClip) (root count : Nat) : Run Unit := do
  run ((ClipPaths.ofClip v.namespaceName c.clip).control "play") (some root)
  ticks count

end World

namespace Clip

/-- The entry of a node that a seek to a tick finds: that of the latest frame, if it has one. -/
def soughtAt? (clip : Clip) (uuid : Uuid) (tick : Nat) : Option NodeEntry :=
  (clip.latestFrame? tick).bind fun frame => frame.entry? uuid

/-- What a seek finds is the latest entry of the node. -/
theorem latestAt?_of_soughtAt? {clip : Clip} {uuid : Uuid} {tick : Nat} {entry : NodeEntry}
    (h : clip.soughtAt? uuid tick = some entry) : clip.latestAt? uuid tick = some entry := by
  obtain ⟨frame, hframe, hentry⟩ := Option.bind_eq_some_iff.1 h
  exact latestAt?_of_latestFrame? hframe hentry

/-- A seek finds the latest entry if the latest frame has one, or if there is none at all. -/
theorem soughtAt?_eq_latestAt? {clip : Clip} {uuid : Uuid} {tick : Nat}
    (h : (clip.soughtAt? uuid tick).isSome = true ∨ ∀ t ≤ tick, clip.entryAt? uuid t = none) :
    clip.soughtAt? uuid tick = clip.latestAt? uuid tick := by
  cases hsought : clip.soughtAt? uuid tick with
  | some entry => exact (latestAt?_of_soughtAt? hsought).symm
  | none =>
    rw [hsought] at h
    exact (latestAt?_eq_none_iff.2 (h.resolve_left nofun)).symm

end Clip

namespace Ride

variable {R : Ride} {c : CompiledClip} {w w' : World} {v : View} {tick : Nat}

/-- A seek brings the passenger where the entry that it finds says. -/
theorem Shows.place_seek (hR : ArePlayable R.clips) (hc : c ∈ R.clips) (hw : R.Shows w v)
    (htick : tick < c.clip.duration)
    (hrun : Run.on (World.seek R.stage.names c R.root tick) w = (.ok (), w')) :
    w'.place? R.rider = some (R.brings (c.clip.soughtAt? R.slot.node.uuid tick) v.place) := by
  obtain ⟨w'', v', hrun', hw', hplace⟩ := hw.seek hR hc htick
  obtain rfl : w' = w'' := congrArg Prod.snd (hrun.symm.trans hrun')
  rw [hw'.place, hplace]
  rfl

/-- Playing brings the passenger where its latest entry says. -/
theorem Shows.place_playFor (hR : ArePlayable R.clips) (hc : c ∈ R.clips) (hw : R.Shows w v)
    (htick : tick < c.clip.duration) (hroot : v.tagged .root = true)
    (halone : w.MovesAlone R.stage.names R.clips R.root c R.slot.node.uuid)
    (hrun : Run.on (World.playFor R.stage.names c R.root tick) w = (.ok (), w')) :
    w'.place? R.rider = some (R.brings (c.clip.latestAt? R.slot.node.uuid tick) v.place) := by
  obtain ⟨w₁, hplay, hruns⟩ := hw.play_ticks hR hc hroot fun c' hc' hmoves hname =>
    (hw.hasTag (.playing c'.clip.storageName)).symm.trans (halone c' hc' hmoves hname)
  obtain ⟨w₂, v₂, hticks, hw₂, -, hplace⟩ := hruns tick htick
  obtain rfl : w' = w₂ :=
    congrArg Prod.snd (hrun.symm.trans ((Run.on_bind_ok hplay).trans hticks))
  rw [hw₂.place, hplace]

/-- Where another animation has just started whose turn comes later, it has the last word a tick
after this one has started as well. -/
theorem Shows.place_playFor_beside {c' : CompiledClip} (hR : ArePlayable R.clips)
    (hboth : R.clips = [c, c']) (hw : R.Shows w v)
    (hv : R.Follows (Schedule.idle.start c'.clip.storageName 0) v) (hlength : 1 < c.clip.duration)
    (hlength' : 1 < c'.clip.duration) {e : NodeEntry}
    (hentry : c'.clip.entryAt? R.slot.node.uuid 1 = some e)
    (hrun : Run.on (World.playFor R.stage.names c R.root 1) w = (.ok (), w')) :
    ∃ place, w'.place? R.rider = some (R.brings (some e) place) := by
  have hc : c ∈ R.clips := hboth ▸ List.mem_cons_self
  have hdistinct : c'.clip.storageName ≠ c.clip.storageName := by
    have hnodup := hR.areCompiled.nodup_storageNames
    rw [hboth] at hnodup
    simpa [eq_comm] using hnodup
  let σ := (Schedule.idle.start c'.clip.storageName 0).start c.clip.storageName 0
  obtain ⟨w₁, hplay, hw₁⟩ := hw.run (Takes.play hR hc) (by decide)
  have hfollows : R.Follows σ (R.played c v) :=
    follows_played hv.root fun c'' hc'' hmoves _ => hv.stands c'' hc'' hmoves
  have hend : R.IsBeforeEnd σ := by
    intro c'' hc'' _ n hn
    rw [hboth] at hc''
    rcases List.mem_cons.1 hc'' with rfl | hc''
    · obtain rfl : 0 = n := by simpa [σ, Schedule.start] using hn
      exact hlength
    · obtain rfl := List.mem_singleton.1 hc''
      obtain rfl : 0 = n := by simpa [σ, Schedule.start, hdistinct] using hn
      exact hlength'
  obtain ⟨v₂, hown, -, hplace⟩ := Takes.onTick hR hfollows hend
  obtain ⟨w₂, htick, hw₂⟩ := hw₁.tick hfollows.root hown
  obtain rfl : w' = w₂ := congrArg Prod.snd
    (hrun.symm.trans ((Run.on_bind_ok hplay).trans (Run.on_bind_ok htick)))
  -- the frames of both come one after the other
  have hturn : (σ.next c'.clip.storageName).bind c'.clip.frameAt? = c'.clip.frameAt? 1 := by
    simp [σ, Schedule.next, Schedule.start, hdistinct]
  have hgoes : R.goes (c'.clip.frameAt? 1) = R.brings (some e) := congrArg R.brings hentry
  rw [hw₂.place, hplace, hboth, List.foldl_cons, List.foldl_cons, List.foldl_nil, hturn, hgoes]
  exact ⟨_, rfl⟩

end Ride

namespace Stage

open World (Changes)

variable {s : Stage} {clips : List CompiledClip} {w w' : World} {o : Output} {c : CompiledClip}
  {root tick : Nat}

/-! ### Seeking -/

theorem Compiles.arePlayable (h : s.Compiles o) : ArePlayable o.clips :=
  ⟨h.areCompiled, h.isSparse, h.duration_le, h.still⟩

/-- A seek ends without an error, whatever the root still carries. -/
theorem Ready.seek (h : s.Ready clips w) (hc : c ∈ clips) (hroot : w.IsLiving root)
    (tick : Nat) : ∃ w', Run.on (World.seek s.names c root tick) w = (.ok (), w') := by
  let asked := w.setOwnerScore (.entity root) (s.names.localTime c.clip.storageName)
    (Int32.ofNat tick)
  have hobjective : w.hasObjective (s.names.localTime c.clip.storageName) = true :=
    h.serves.objectives _ ⟨.localTime c.clip.storageName, ⟨c, hc, rfl⟩, rfl⟩
  have hset : Run.on (World.setScore root (s.names.localTime c.clip.storageName)
      (Int32.ofNat tick)) w = (.ok (), asked) :=
    Run.on_bind_ok (World.on_requireObjective hobjective)
  have hasked : s.Ready clips asked := h.changes (World.Change.score _ _ _ hroot.lives).once
  obtain ⟨w', hrun, -⟩ := hasked.control hc hroot (.tail _ <| .tail _ <| .tail _ <| .tail _ <|
    .tail _ <| .tail _ <| .tail _ <| .tail _ <| .tail _ <| .tail _ <| .head _)
  exact ⟨w', (Run.on_bind_ok hset).trans hrun⟩

/-- So does playing for a number of ticks. -/
theorem Ready.playFor (h : s.Ready clips w) (hc : c ∈ clips) (hroot : w.IsLiving root)
    (count : Nat) : ∃ w', Run.on (World.playFor s.names c root count) w = (.ok (), w') := by
  obtain ⟨w₁, hplay, hchanges⟩ := h.control hc hroot (.head _)
  obtain ⟨w₂, hticks⟩ := (h.changes hchanges).ticks count
  exact ⟨w₂, (Run.on_bind_ok hplay).trans hticks⟩

/-- A seek brings the nodes of which it finds the latest entry where playing up to its tick brings
them, unless another animation moves them, and leaves those where they are of which
it finds none. -/
theorem RunsOnly.seek_playFor (h : s.RunsOnly clips w) (hclips : ArePlayable clips)
    (hnames : (s.rig.slots.toList.map (·.storageName)).Nodup)
    (hroot : w.IsRoot s.names s.config root) (hc : c ∈ clips) (htick : tick < c.clip.duration) :
    ∃ w₁ w₂, Run.on (World.seek s.names c root tick) w = (.ok (), w₁) ∧
      Run.on (World.playFor s.names c root tick) w = (.ok (), w₂) ∧
      ∀ slot ∈ s.rig.slots.toList, slot.node.kind.hasEntity = true →
        ∀ id, w.IsBody s.names s.rig root slot id →
          (w₁.place? id).isSome = true ∧
          (c.clip.soughtAt? slot.node.uuid tick = none → w₁.place? id = w.place? id) ∧
          ((c.clip.soughtAt? slot.node.uuid tick).isSome = true ∨
              (∀ t ≤ tick, c.clip.entryAt? slot.node.uuid t = none) →
            w.MovesAlone s.names clips root c slot.node.uuid → w₁.place? id = w₂.place? id) := by
  have hliving := hroot.isLiving h.tied.numbered
  obtain ⟨w₁, hseek⟩ := h.toReady.seek hc hliving tick
  obtain ⟨w₂, hplay⟩ := h.toReady.playFor hc hliving tick
  refine ⟨w₁, w₂, hseek, hplay, fun slot hslot hentity id hbody => ?_⟩
  have htagged := hroot.hasTag
  obtain ⟨R, v, rfl, rfl, rfl, rfl, rfl, hw⟩ := h.exists_shows hroot hnames hslot hentity hbody
  rw [hw.place_seek hclips hc htick hseek]
  refine ⟨rfl, fun hnone => ?_, fun hfound halone => ?_⟩
  · rw [hnone, hw.place]
    rfl
  · rw [hw.place_playFor hclips hc htick ((hw.hasTag .root).symm.trans htagged) halone hplay,
      Clip.soughtAt?_eq_latestAt? hfound]

end Stage

/-- Seeking and playing agree on the nodes that a seek finds, for everything that is compiled.  From
every world that callers can reach and on every root, a seek and playing for as many ticks end
without an error.  An entity of a node with an entry in the latest frame, or with none in any frame
so far, is then in the same place, unless another animation advances that moves the node.  That of a
node without an entry in the latest frame is where it was before the seek. -/
theorem seeks_of_compile (name : String) (nodes : List RigNode) (variants : List Variant)
    (animations : List Animation) (config : Config) :
    Ensures (Rig.build name nodes variants) fun rig =>
      Ensures (compile rig animations config) fun o =>
        ∃ w₀ w₁, World.ofPack o.pack = .ok w₀ ∧ Run.on World.load w₀ = (.ok (), w₁) ∧
          ∀ w, World.Reaches o.Offers w₁ w →
            ∀ root, w.IsRoot ⟨o.namespaceName⟩ config root →
              ∀ c ∈ o.clips, ∀ tick < c.clip.duration,
                ∃ w₂ w₃, Run.on (World.seek ⟨o.namespaceName⟩ c root tick) w = (.ok (), w₂) ∧
                  Run.on (World.playFor ⟨o.namespaceName⟩ c root tick) w = (.ok (), w₃) ∧
                  ∀ slot ∈ rig.slots.toList, slot.node.kind.hasEntity = true →
                    ∀ id, w.IsBody ⟨o.namespaceName⟩ rig root slot id →
                      (w₂.place? id).isSome = true ∧
                      (c.clip.soughtAt? slot.node.uuid tick = none → w₂.place? id = w.place? id) ∧
                      ((c.clip.soughtAt? slot.node.uuid tick).isSome = true ∨
                          (∀ t ≤ tick, c.clip.entryAt? slot.node.uuid t = none) →
                        w.MovesAlone ⟨o.namespaceName⟩ o.clips root c slot.node.uuid →
                          w₂.place? id = w₃.place? id) := by
  refine Ensures.intro fun rig hbuild => Ensures.intro fun o hcompile => ?_
  have hrig : rig.IsBuilt := ⟨name, nodes, variants, hbuild⟩
  obtain ⟨s, rfl, rfl, hcompiles⟩ := Stage.exists_compiles hrig hcompile
  obtain ⟨w₀, w₁, hw₀, hload, hruns⟩ := hcompiles.exists_runsOnly hrig
  have hfunctions := Stage.mem_functions_of_pack hcompiles.pack
  have hnames : s.names = ⟨o.namespaceName⟩ := by rw [← hcompiles.namespaceName]
  refine ⟨w₀, w₁, hw₀, hload, fun w hw root hroot c hc tick htick => ?_⟩
  rw [← hnames] at hroot ⊢
  exact (hruns.reaches hcompiles.namespaceName hfunctions hw).seek_playFor
    hcompiles.arePlayable hrig.nodup_storageNames hroot hc htick

/-! ### Where seeking and playing differ -/

/-- An entry brings a node that is not written as a matrix somewhere by a teleport. -/
theorem Ride.teleport_brings {R : Ride} (h : R.slot.node.kind.isMatrix = false) (entry : NodeEntry)
    (place : Place) : (R.brings (some entry) place).teleport =
      some (entry.pose.offset, entry.pose.yaw, entry.pose.pitch) := by
  rw [brings, NodeKind.goTo, h]
  rfl

/-- A seek and playing up to its tick agree on all entities of nodes that the animation moves. -/
def World.SeeksAsPlayed (w : World) (v : RuntimeNames) (rig : Rig) (c : CompiledClip)
    (root tick : Nat) : Prop :=
  ∀ w₁ w₂, Run.on (World.seek v c root tick) w = (.ok (), w₁) →
    Run.on (World.playFor v c root tick) w = (.ok (), w₂) →
      ∀ slot ∈ rig.slots.toList, slot.node.uuid ∈ c.clip.modifiedNodes →
        slot.node.kind.hasEntity = true → ∀ id, w.IsBody v rig root slot id →
          w₁.place? id = w₂.place? id

/-- A rig with a single camera. -/
def dolly : Rig :=
  ⟨"dolly", #[⟨⟨⟨1⟩, "camera", none, .camera, {}⟩, "camera", none⟩], []⟩

/-- The camera moves at the first two ticks, and something is said at the third. -/
def pan : Animation where
  name := "pan"
  length := 0.15
  animators := [{
    node := ⟨1⟩
    position := [{ time := 0, value := ⟨16, 0, 0⟩ }, { time := 0.05, value := ⟨32, 0, 0⟩ }] }]
  commandKeys := [⟨0.1, ["say cut"], none⟩]

/-- The camera moves at the first two ticks, in another direction. -/
def tilt : Animation where
  name := "tilt"
  length := 0.1
  animators := [{
    node := ⟨1⟩
    position := [{ time := 0, value := ⟨0, 16, 0⟩ }, { time := 0.05, value := ⟨0, 32, 0⟩ }] }]

/-- What the two animations are sampled to. -/
theorem exists_sample_dolly : ∃ p t e e', sample dolly pan {} ⟨"pan", "pan"⟩ = .ok p ∧
    sample dolly tilt {} ⟨"tilt", "tilt"⟩ = .ok t ∧ 2 < p.1.duration ∧ 1 < t.1.duration ∧
    ⟨1⟩ ∈ p.1.modifiedNodes ∧ p.1.soughtAt? ⟨1⟩ 2 = none ∧ (p.1.latestAt? ⟨1⟩ 2).isSome = true ∧
    p.1.soughtAt? ⟨1⟩ 1 = some e ∧ t.1.entryAt? ⟨1⟩ 1 = some e' ∧
    e.pose.offset ≠ e'.pose.offset := by
  -- the offsets differ in a coordinate that is a number
  let differ (e e' : NodeEntry) : Bool :=
    e.pose.offset.x == e.pose.offset.x && !(e.pose.offset.x == e'.pose.offset.x)
  have hcomputed : ((sample dolly pan {} ⟨"pan", "pan"⟩).toOption.any fun p =>
      (sample dolly tilt {} ⟨"tilt", "tilt"⟩).toOption.any fun t =>
        decide (2 < p.1.duration) && decide (1 < t.1.duration) &&
        decide (⟨1⟩ ∈ p.1.modifiedNodes) && (p.1.soughtAt? ⟨1⟩ 2).isNone &&
        (p.1.latestAt? ⟨1⟩ 2).isSome &&
        (p.1.soughtAt? ⟨1⟩ 1).any fun e => (t.1.entryAt? ⟨1⟩ 1).any (differ e)) = true := by
    decide +kernel
  obtain ⟨p, hp, htilted⟩ := exists_ok_of_any hcomputed
  obtain ⟨t, ht, htest⟩ := exists_ok_of_any htilted
  simp only [Bool.and_eq_true, decide_eq_true_eq, Option.any_eq_true,
    Option.isNone_iff_eq_none] at htest
  obtain ⟨⟨⟨⟨⟨hpan, htilt⟩, hmoved⟩, hnone⟩, hlatest⟩, e, he, e', he', hdiffer⟩ := htest
  refine ⟨p, t, e, e', hp, ht, hpan, htilt, hmoved, hnone, hlatest, he, he', fun heq => ?_⟩
  obtain ⟨hnumber, hdiffer⟩ := Bool.and_eq_true_iff.1 hdiffer
  rw [← heq, hnumber] at hdiffer
  cases hdiffer

theorem isBuilt_dolly : dolly.IsBuilt :=
  ⟨"dolly", [⟨⟨1⟩, "camera", none, .camera, {}⟩], [], rfl⟩

/-- The rig with its animations is compiled. -/
theorem exists_compile_dolly {p t : Clip × List Diagnostic}
    (hpan : sample dolly pan {} ⟨"pan", "pan"⟩ = .ok p)
    (htilt : sample dolly tilt {} ⟨"tilt", "tilt"⟩ = .ok t) :
    ∃ o, compile dolly [pan, tilt] {} = .ok o ∧
      o.clips = [⟨p.1, .build p.1.frames p.1.duration⟩, ⟨t.1, .build t.1.frames t.1.duration⟩] := by
  have hfinite : ((restPoses dolly {}).toOption.any fun rest => rest.all fun pose =>
      pose.matrix.toList.all fun x => (toSingle x).isFinite) = true := by
    decide +kernel
  have hnames : (allocateClipNames {} {} [pan, tilt]).1 = [⟨"pan", "pan"⟩, ⟨"tilt", "tilt"⟩] := rfl
  have hsampled : List.Forall₂ (fun p r => sample dolly p.1 {} p.2 = .ok r)
      ([pan, tilt].zip (allocateClipNames {} {} [pan, tilt]).1) [p, t] := by
    rw [hnames]
    exact .cons hpan (.cons htilt .nil)
  obtain ⟨rest, hrest, hall⟩ := exists_ok_of_any hfinite
  refine Stage.exists_compile isBuilt_dolly rfl hrest (fun b hb _ => ?_) hsampled
  exact List.all_eq_true.1 (List.all_eq_true.1 hall b.2 (List.of_mem_zip hb).2)

namespace Stage

variable {s : Stage} {clips : List CompiledClip} {w : World} {c c' : CompiledClip} {root tick : Nat}
  {slot : Slot} {id : Nat}

/-- Where a seek finds no entry of a node that was never moved by a teleport, and the node has an
earlier one, a seek and playing differ. -/
theorem RunsOnly.not_seeksAsPlayed (h : s.RunsOnly clips w) (hclips : ArePlayable clips)
    (hnames : (s.rig.slots.toList.map (·.storageName)).Nodup)
    (hroot : w.IsRoot s.names s.config root) (hc : c ∈ clips) (htick : tick < c.clip.duration)
    (halone : w.MovesAlone s.names clips root c slot.node.uuid) (hslot : slot ∈ s.rig.slots.toList)
    (hmoved : slot.node.uuid ∈ c.clip.modifiedNodes) (hentity : slot.node.kind.hasEntity = true)
    (hkind : slot.node.kind.isMatrix = false) (hbody : w.IsBody s.names s.rig root slot id)
    {place : Place} (hplace : w.place? id = some place) (hstill : place.teleport = none)
    (hnone : c.clip.soughtAt? slot.node.uuid tick = none)
    (hlatest : (c.clip.latestAt? slot.node.uuid tick).isSome = true) :
    ¬w.SeeksAsPlayed s.names s.rig c root tick := by
  intro hagree
  have htagged := hroot.hasTag
  obtain ⟨w₁, w₂, hseek, hplay, -⟩ := h.seek_playFor hclips hnames hroot hc htick
  have hsame := hagree w₁ w₂ hseek hplay slot hslot hmoved hentity id hbody
  obtain ⟨R, v, rfl, rfl, rfl, rfl, rfl, hw⟩ := h.exists_shows hroot hnames hslot hentity hbody
  obtain ⟨entry, hentry⟩ := Option.isSome_iff_exists.1 hlatest
  rw [hw.place_seek hclips hc htick hseek, hw.place_playFor hclips hc htick
    ((hw.hasTag .root).symm.trans htagged) halone hplay, hnone, hentry] at hsame
  have hteleport := congrArg Place.teleport (Option.some.inj hsame)
  rw [hw.place] at hplace
  rw [Ride.teleport_brings hkind, Option.some.inj hplace] at hteleport
  cases hstill.symm.trans hteleport

/-- Where another animation advances that shows another pose at the same tick, and whose turn comes
later, a seek and playing differ. -/
theorem RunsOnly.not_seeksAsPlayed_beside (h : s.RunsOnly clips w) (hclips : ArePlayable clips)
    (hnames : (s.rig.slots.toList.map (·.storageName)).Nodup)
    (hroot : w.IsRoot s.names s.config root)
    (hidle : ∀ c ∈ clips, w.hasTag root (s.names.playingTag c.clip.storageName) = false)
    (hboth : clips = [c, c']) (hlength : 1 < c.clip.duration) (hlength' : 1 < c'.clip.duration)
    (hslot : slot ∈ s.rig.slots.toList) (hmoved : slot.node.uuid ∈ c.clip.modifiedNodes)
    (hentity : slot.node.kind.hasEntity = true) (hkind : slot.node.kind.isMatrix = false)
    (hbody : w.IsBody s.names s.rig root slot id) {e e' : NodeEntry}
    (hentry : c.clip.soughtAt? slot.node.uuid 1 = some e) (hentry' : c'.clip.entryAt? slot.node.uuid
      1 = some e') (hpose : e.pose.offset ≠ e'.pose.offset) :
    ∃ w', Run.on (World.run ((ClipPaths.ofClip s.names.namespaceName c'.clip).control "play")
        (some root)) w = (.ok (), w') ∧
      w'.IsRoot s.names s.config root ∧ ¬w'.SeeksAsPlayed s.names s.rig c root 1 := by
  have htagged := hroot.hasTag
  obtain ⟨R, v, rfl, rfl, rfl, rfl, rfl, hw⟩ := h.exists_shows hroot hnames hslot hentity hbody
  have hc : c ∈ R.clips := hboth ▸ List.mem_cons_self
  have hc' : c' ∈ R.clips := hboth ▸ List.mem_cons_of_mem _ List.mem_cons_self
  obtain ⟨w', hstart, hw'⟩ := hw.run (Ride.Takes.play hclips hc') (by decide)
  have hfollows : R.Follows (Schedule.idle.start c'.clip.storageName 0) (R.played c' v) :=
    Ride.follows_played ((hw.hasTag .root).symm.trans htagged) fun c'' hc'' _ _ =>
      ⟨(hw.hasTag (.playing c''.clip.storageName)).symm.trans (hidle c'' hc''), nofun⟩
  have hroot' := hw'.isRoot hfollows.root
  refine ⟨w', hstart, hroot', fun hagree => ?_⟩
  obtain ⟨w₁, w₂, hseek, hplay, -⟩ := hw'.runs.seek_playFor hclips hnames hroot' hc hlength
  have hsame := hagree w₁ w₂ hseek hplay R.slot hslot hmoved hentity R.rider hw'.body
  obtain ⟨place, hlast⟩ :=
    hw'.place_playFor_beside hclips hboth hfollows hlength hlength' hentry' hplay
  rw [hw'.place_seek hclips hc hlength hseek, hentry, hlast] at hsame
  have hteleport := congrArg Place.teleport (Option.some.inj hsame)
  rw [Ride.teleport_brings hkind, Ride.teleport_brings hkind] at hteleport
  exact hpose (Prod.mk.inj (Option.some.inj hteleport)).1

end Stage

/-- Seeking and playing do not agree in general.  On a new instance, the camera of the rig keeps the
place that it has when a tick is sought at which it does not move; and where `tilt` advances as
well, it is `tilt` that has moved it last. -/
theorem not_seeksAsPlayed_dolly :
    ∃ (o : Output) (w₀ w₁ w w' : World) (c : CompiledClip) (root : Nat),
    Rig.build "dolly" [⟨⟨1⟩, "camera", none, .camera, {}⟩] [] = .ok dolly ∧
    compile dolly [pan, tilt] {} = .ok o ∧ World.ofPack o.pack = .ok w₀ ∧
    Run.on World.load w₀ = (.ok (), w₁) ∧ World.Reaches o.Offers w₁ w ∧
    World.Reaches o.Offers w₁ w' ∧ c ∈ o.clips ∧ 2 < c.clip.duration ∧
    w.IsRoot ⟨o.namespaceName⟩ {} root ∧
    (∀ c' ∈ o.clips,
      w.hasTag root ((⟨o.namespaceName⟩ : RuntimeNames).playingTag c'.clip.storageName) =
      false) ∧
    ¬w.SeeksAsPlayed ⟨o.namespaceName⟩ dolly c root 2 ∧
    w'.IsRoot ⟨o.namespaceName⟩ {} root ∧ (c.clip.soughtAt? ⟨1⟩ 1).isSome = true ∧
    ¬w'.SeeksAsPlayed ⟨o.namespaceName⟩ dolly c root 1 := by
  obtain ⟨p, t, e, e', hpan, htilt, hlength, hlength', hmoved, hnone, hlatest, hentry,
      hentry', hpose⟩ :=
    exists_sample_dolly
  obtain ⟨o, hcompile, hboth⟩ := exists_compile_dolly hpan htilt
  obtain ⟨s, hrig, hconfig, hcompiles⟩ := Stage.exists_compiles isBuilt_dolly hcompile
  have hnames : s.names = ⟨o.namespaceName⟩ := by rw [← hcompiles.namespaceName]
  have hdistinct := isBuilt_dolly.nodup_storageNames
  rw [← hrig] at hdistinct
  -- a new instance
  obtain ⟨w₀, w₁, hw₀, hload, hruns⟩ := hcompiles.exists_runsOnly (hrig ▸ isBuilt_dolly)
  obtain ⟨root, w, -, hsummoned, hw, hfirst⟩ := hcompiles.exists_instance hw₀ hload hruns
  have hroot := hfirst.isRoot
  have hidle := hfirst.idle
  have hslot : (⟨⟨⟨1⟩, "camera", none, .camera, {}⟩, "camera", none⟩ : Slot) ∈ s.rig.slots.toList :=
    hrig ▸ List.mem_cons_self
  obtain ⟨id, place, hbody, hplace, hstill⟩ := hfirst.body _ hslot rfl
  let c : CompiledClip := ⟨p.1, .build p.1.frames p.1.duration⟩
  let c' : CompiledClip := ⟨t.1, .build t.1.frames t.1.duration⟩
  have hc : c ∈ o.clips := hboth ▸ List.mem_cons_self
  have hc' : c' ∈ o.clips := hboth ▸ List.mem_cons_of_mem _ List.mem_cons_self
  have hcut := hw.not_seeksAsPlayed hcompiles.arePlayable hdistinct hroot hc hlength
    (fun c' hc' _ _ => hidle c' hc') hslot hmoved rfl rfl hbody hplace hstill hnone hlatest
  obtain ⟨w', hplay, hroot', hbeside⟩ := hw.not_seeksAsPlayed_beside hcompiles.arePlayable hdistinct
    hroot hidle hboth (Nat.lt_of_succ_lt hlength) hlength' hslot hmoved rfl rfl hbody hentry
      hentry' hpose
  -- callers can play `tilt` on it
  have hplayed : World.Reaches o.Offers w w' := by
    have hmem := Stage.mem_functions_of_control (s := s) hc' (.head _)
    refine .single (.inl ⟨.run _ (some root), ⟨⟨_, World.mem_functions_of_ofPack hw₀
      (Stage.installs_ofPack hcompiles.pack hw₀ _ hmem)⟩, fun i hi => ?_⟩,
      congrArg Prod.snd hplay.symm⟩)
    obtain ⟨e, he, -⟩ := hroot
    obtain rfl := Option.some.inj hi
    exact (Array.getElem?_eq_some_iff.1 he).1
  rw [hnames, hconfig] at hroot hroot'
  rw [hnames, hrig] at hcut hbeside
  rw [hnames] at hidle
  exact ⟨o, w₀, w₁, w, w', c, root, rfl, hcompile, hw₀, hload, hsummoned, hsummoned.trans hplayed,
    hc, hlength, hroot, hidle, hcut, hroot', by rw [hentry]; rfl, hbeside⟩

end Marionette
