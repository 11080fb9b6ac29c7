import Marionette.Proofs.Instance.Replay
import Marionette.Proofs.Instance.Summon
import Marionette.Proofs.Rig

/-!
# Playback of a new instance

- `Stage.Summons`: a world of the pack of a rig, in which it was loaded and one instance summoned.
- `Stage.exists_summons`: there is one, and its instance is ready to play every animation.
- `Stage.timeline_of_play`: where an animation stands after any number of ticks.
- `Stage.replay_of_play`: up to its end, an animation shows just its frames.
-/

namespace Marionette

namespace Stage

variable {s : Stage} {clips : List CompiledClip} {c : CompiledClip} {w home : World}

/-- From a new world of the pack, loading and then summoning lead to an instance in a world.  The
answers are those to the conditions of the author. -/
def Summons (s : Stage) (clips : List CompiledClip) (answers : Std.HashMap String Bool) (root : Nat)
    (w : World) : Prop :=
  ∃ p w₀ w₁, s.pack clips = .ok p ∧ World.ofPack p = .ok w₀ ∧
    Run.on World.load { w₀ with conditions := answers } = (.ok (), w₁) ∧
    Run.on (World.summon s.names.namespaceName) w₁ = (.ok root, w)

/-- The scene of a new instance. -/
def startScene (hosts : s.Hosts clips home) : Scene :=
  (newInstance hosts).initiated (s.firstScene home)

theorem startScene_tagged (hosts : s.Hosts clips home) (t : TagKey) :
    (startScene hosts).tagged t = (t != .new && (t == .root || t == .new)) := by
  have hsettled : ∀ sc, (Instance.settled clips sc).tagged = sc.tagged := fun _ =>
    Instance.settled_same Scene.tagged clips fun _ _ _ => rfl
  exact congrArg (t != .new && ·) (congrFun (hsettled _) t)

theorem startScene_output (hosts : s.Hosts clips home) :
    (startScene hosts).output = home.output.toList :=
  Instance.settled_same Scene.output clips fun _ _ _ => rfl

/-- A new instance is at rest. -/
theorem placeOf_startScene (hosts : s.Hosts clips home) {j : Nat} {b : Slot × Pose}
    (hb : s.bodies[j]? = some b) :
    Instance.placeOf (startScene hosts) (home.entities.size + 1 + j) =
      ⟨some (transformation b.2.matrix), none⟩ :=
  (Instance.settled_same (Instance.placeOf · (home.entities.size + 1 + j)) clips
    fun _ _ _ => rfl).trans (s.placeOf_firstScene home hb)

/-- All new entities belong to the new instance. -/
theorem owns_of_entity?_summoned (hosts : s.Hosts clips home) {i : Nat} {e : Entity}
    (hi : home.entities.size ≤ i) (he : (s.summoned home).entity? i = some e) :
    (newInstance hosts).Owns i := by
  rw [entity?_summoned, if_neg (by omega)] at he
  by_cases hroot : i = home.entities.size
  · exact .inl hroot
  · rw [if_neg hroot] at he
    obtain ⟨b, hb, -⟩ := Option.map_eq_some_iff.1 he
    exact .inr (mem_riders_newInstance.2 ⟨_, b, hb, by omega⟩)

/-- In a world where the pack is loaded and that has no entities yet, summoning leads to an instance
that is ready to play. -/
theorem Hosts.ready_of_summon (hosts : s.Hosts clips home) (hclips : AreCompiled clips)
    (hloaded : s.IsLoaded clips home) (hticks : home.tickFunctions = [s.function "tick"])
    (hempty : home.entities = #[])
    (hreach : (newInstance hosts).Reaches (s.summoned home) (startScene hosts) w) (hc : c ∈ clips)
    (hlength : c.clip.duration + c.clip.loopDelay ≤ 2147483647) :
    (newInstance hosts).Ready c w (startScene hosts) where
  shows := hreach.1
  ticks := ⟨hticks, hloaded .lifetime trivial, hloaded .tween trivial, hloaded .interp trivial⟩
  alone := by
    intro i e hi he
    rw [hreach.2.entity? i hi] at he
    exact absurd (owns_of_entity?_summoned hosts (by rw [hempty]; exact Nat.zero_le i) he) hi
  plays := {
    mem := hc
    built := hclips.built c hc
    length_le := hlength
    has := by
      intro k hk
      refine hloaded k ?_
      cases k with
      | localTime a | loopMode a => exact ⟨c, hc, hk.symm⟩
      | frame | tween | tweenRequest | interp | lifetime => trivial }
  nodup_names := hclips.nodup_storageNames
  mode := Instance.settled_mode hc hclips.nodup_storageNames
  root := (startScene_tagged hosts .root).trans rfl
  others := fun c' _ _ => (startScene_tagged hosts (Instance.playingKey c')).trans rfl

/-- The pack of a rig can be made, loaded, and asked for an instance, which is then ready to play
every animation. -/
theorem exists_summons (hns : IsStorageName s.names.namespaceName)
    (hvariants : (s.rig.variants.map (·.2)).Nodup) (hclips : AreCompiled clips)
    (hfinite : s.IsFiniteAtRest) (answers : Std.HashMap String Bool) :
    ∃ (home : World) (hosts : s.Hosts clips home) (w : World),
      s.Summons clips answers home.entities.size w ∧ home.conditions = answers ∧
      home.output = #[] ∧
      ∀ c ∈ clips, c.clip.duration + c.clip.loopDelay ≤ 2147483647 →
        (newInstance hosts).Ready c w (startScene hosts) := by
  obtain ⟨p, w₀, hp, hw₀⟩ := exists_pack hns hvariants hclips hfinite
  have hevents := events_ofPack hns hp hw₀
  have hempty : w₀.entities = #[] := congrArg World.entities hevents
  let start : World := { w₀ with conditions := answers }
  obtain ⟨objectives, hload, hloaded⟩ := (hosts_ofPack (w := start) hp hw₀ rfl rfl).load
    (congrArg World.loadFunctions hevents)
  let home : World := { start with objectives := objectives }
  have hosts : s.Hosts clips home := hosts_ofPack hp hw₀ rfl rfl
  have hnone : ∀ i e, home.entity? i = some e → e.matches s.newborns = false := by
    intro i e he
    have hget : w₀.entities[i]? = some e := he
    rw [hempty] at hget
    cases hget
  obtain ⟨w, hsummon, hreach⟩ := hosts.summon hloaded hnone
  refine ⟨home, hosts, w, ⟨p, w₀, home, hp, hw₀, hload, hsummon⟩, rfl,
    congrArg World.output hevents, fun c hc hlength => ?_⟩
  exact hosts.ready_of_summon hclips hloaded (congrArg World.tickFunctions hevents) hempty hreach
    hc hlength

/-- After an animation was played on a new instance, it stands at the position of its timeline after
every number of ticks: it is tagged as long as it advances, and its local time is the position. -/
theorem timeline_of_play (hrig : s.rig.IsBuilt) (hns : IsStorageName s.names.namespaceName)
    (hclips : AreCompiled clips) (hfinite : s.IsFiniteAtRest) (answers : Std.HashMap String Bool)
    (hc : c ∈ clips) (hlength : c.clip.duration + c.clip.loopDelay ≤ 2147483647) :
    ∃ root w w₁, s.Summons clips answers root w ∧
      Run.on (World.run ((ClipPaths.ofClip s.names.namespaceName c.clip).control "play")
        (some root)) w = (.ok (), w₁) ∧
      ∀ k, ∃ w₂, Run.on (World.ticks k) w₁ = (.ok (), w₂) ∧
        w₂.hasTag root (s.names.playingTag c.clip.storageName) = (c.clip.position k).2 ∧
        w₂.score? root (s.names.localTime c.clip.storageName) =
          some (Int32.ofNat (c.clip.position k).1) := by
  obtain ⟨home, hosts, w, hsummons, -, -, hready⟩ :=
    exists_summons hns hrig.nodup_variantNames hclips hfinite answers
  obtain ⟨w₁, hplay, hruns⟩ := (hready c hc hlength).play_ticks
  refine ⟨_, w, w₁, hsummons, hplay, fun k => ?_⟩
  obtain ⟨w₂, hticks, hreach, -⟩ := hruns k
  have hstands := (hready c hc hlength).stands k
  exact ⟨w₂, hticks, (hreach.hasTag (Instance.playingKey c)).trans hstands.playing,
    (hreach.score (Instance.timeKey c)).trans hstands.time⟩

/-- An animation of two ticks that goes in a circle is at its second tick after three ticks. -/
theorem timeline_third_tick :
    ∃ (c : CompiledClip) (root : Nat) (w w₁ w₂ : World), nodeless.Summons [c] {} root w ∧
      Run.on (World.run ((ClipPaths.ofClip "rig" c.clip).control "play") (some root)) w =
        (.ok (), w₁) ∧
      Run.on (World.ticks 3) w₁ = (.ok (), w₂) ∧
      w₂.hasTag root "rig.walk.playing" = true ∧ w₂.score? root "rig.walk.local_time" = some 1 := by
  let c : CompiledClip := ⟨⟨"walk", "walk", "walk", 2, .loop, 0, [], []⟩, .build [] 2⟩
  obtain ⟨root, w, w₁, hsummons, hplay, hruns⟩ := timeline_of_play (s := nodeless) (c := c)
    ⟨"rig", [], [], rfl⟩ ⟨by decide, List.all_eq_true.1 rfl⟩
      (areCompiled_singleton (c := c) rfl (by decide))
    (fun b hb => nomatch hb) {} (List.mem_singleton_self c) (by decide)
  obtain ⟨w₂, hticks, htag, htime⟩ := hruns 3
  have hplaying : nodeless.names.playingTag "walk" = "rig.walk.playing" := by
    show "rig" ++ "." ++ ("walk" ++ ".playing") = _
    simp only [String.reduceAppend]
  have hlocal : nodeless.names.localTime "walk" = "rig.walk.local_time" := by
    show "rig" ++ "." ++ ("walk" ++ ".local_time") = _
    simp only [String.reduceAppend]
  have hone : Int32.ofNat (c.clip.position 3).1 = 1 := by decide
  rw [hone] at htime
  exact ⟨c, root, w, w₁, w₂, hsummons, hplay, hticks, hplaying ▸ htag, hlocal ▸ htime⟩

/-! ### Up to the end -/

/-- Where the entity of a node is once the frames up to a tick were applied: where its latest entry
brings it, or else at rest. -/
def placeAt (clip : Clip) (b : Slot × Pose) (tick : Nat) : Place :=
  let rest : Place := ⟨some (transformation b.2.matrix), none⟩
  match clip.latestAt? b.1.node.uuid tick with
  | none => rest
  | some entry => b.1.node.kind.goTo entry.pose rest

/-- Lines of the author as an entity runs them, where their condition holds. -/
def recordedLines (answers : Std.HashMap String Bool) (executor : Nat) (condition : Option String)
    (texts : List String) : List RawOutput :=
  if condition.all fun text => answers.getD text true then
    texts.map fun line => ⟨some executor, lineText line⟩
  else []

/-- What a frame records: the commands of the root, and then those of the nodes in the order of the
rig.  A tracked locator runs its commands itself. -/
def recorded (s : Stage) (answers : Std.HashMap String Bool) (root : Nat) (body : Slot → Nat)
    (frame : Frame) : List RawOutput :=
  (match frame.commands with
    | none => []
    | some effect => recordedLines answers root effect.condition effect.commands) ++
  s.rig.slots.toList.flatMap fun slot =>
    let speaker := match slot.node.kind with
      | .locator true => body slot
      | _ => root
    match frame.entry? slot.node.uuid with
    | some ⟨_, some effect⟩ => recordedLines answers speaker effect.condition effect.commands
    | _ => []

/-- The number of the entity of a node of a new instance. -/
def bodyNumber (s : Stage) (root : Nat) (slot : Slot) : Nat :=
  root + 1 + s.bodies.findIdx fun b => b.1.storageName == slot.storageName

/-- Every node has a pose at rest. -/
theorem map_fst_zip_rest (hrest : s.rest.length = s.rig.slots.size) :
    (s.rig.slots.toList.zip s.rest).map (·.1) = s.rig.slots.toList :=
  List.map_fst_zip (by simp [hrest])

/-- Nodes with entities have distinct names. -/
theorem nodup_bodies (hnames : (s.rig.slots.toList.map (·.storageName)).Nodup)
    (hrest : s.rest.length = s.rig.slots.size) : (s.bodies.map (·.1.storageName)).Nodup := by
  rw [← map_fst_zip_rest hrest, List.map_map] at hnames
  exact hnames.sublist (List.filter_sublist.map _)

theorem getElem?_bodies_bodyNumber (hnames : (s.bodies.map (·.1.storageName)).Nodup)
    {b : Slot × Pose} (hb : b ∈ s.bodies) (root : Nat) :
    ∃ j, s.bodies[j]? = some b ∧ s.bodyNumber root b.1 = root + 1 + j := by
  let isName (b' : Slot × Pose) : Bool := b'.1.storageName == b.1.storageName
  have hlt : s.bodies.findIdx isName < s.bodies.length :=
    List.findIdx_lt_length_of_exists ⟨b, hb, beq_self_eq_true _⟩
  have hname : isName s.bodies[s.bodies.findIdx isName] = true := List.findIdx_getElem
  refine ⟨s.bodies.findIdx isName, ?_, rfl⟩
  rw [List.getElem?_eq_getElem hlt,
    List.inj_on_of_nodup_map hnames (List.getElem_mem hlt) hb (by simpa [isName] using hname)]

/-- The entity of a node is the only passenger that carries its tag. -/
theorem filter_riders_newInstance {hosts : s.Hosts clips home}
    (hnames : (s.bodies.map (·.1.storageName)).Nodup) {b : Slot × Pose} (hb : b ∈ s.bodies) :
    (newInstance hosts).riders.filter ((newInstance hosts).isNode · b.1.storageName) =
      [s.bodyNumber home.entities.size b.1] := by
  obtain ⟨j, hj, hnumber⟩ := getElem?_bodies_bodyNumber hnames hb home.entities.size
  have hget : ∀ i r, (newInstance hosts).riders[i]? = some r →
      i < s.bodies.length ∧ r = home.entities.size + 1 + i := by
    intro i r hr
    obtain ⟨hlt, hr⟩ := List.getElem?_eq_some_iff.1 hr
    have hi : i < s.bodies.length := by simpa [newInstance] using hlt
    exact ⟨hi, by simpa [newInstance] using hr.symm⟩
  have hown : (newInstance hosts).riders[j]? = some (home.entities.size + 1 + j) := by
    show (List.range' _ _)[j]? = _
    rw [List.getElem?_range' (List.getElem?_eq_some_iff.1 hj).1, Nat.one_mul]
  rw [hnumber]
  refine filter_eq_singleton hown ?_ fun i r hi hr => ?_
  · rw [isNode_newInstance hosts hj]
    exact decide_eq_true rfl
  · -- two passengers of one name would be one
    obtain ⟨hlt, rfl⟩ := hget i r hr
    rw [isNode_newInstance hosts (List.getElem?_eq_getElem hlt), decide_eq_false_iff_not]
    intro hname
    refine hi ((List.getElem?_inj (by rwa [List.length_map]) hnames).1 ?_)
    rw [List.getElem?_map, List.getElem?_map, List.getElem?_eq_getElem hlt, hj, Option.map_some,
      Option.map_some, hname]

/-- The passengers of a new instance are the entities of single nodes. -/
theorem embodies_newInstance (hosts : s.Hosts clips home) {j : Nat} {b : Slot × Pose}
    (hb : s.bodies[j]? = some b) :
    (newInstance hosts).Embodies (home.entities.size + 1 + j) b.1 := fun other _ =>
  isNode_newInstance hosts hb other.storageName

theorem lines_singleton (I : Instance) (id : Nat) (condition : Option String)
    (texts : List String) :
    I.lines [id] condition texts = recordedLines I.home.conditions id condition texts := by
  unfold Instance.lines recordedLines Instance.holds
  split
  · exact List.flatMap_pure_eq_map _ _
  · rfl

/-- What an instance says at a frame is what the frame records. -/
theorem frameLines_newInstance (hosts : s.Hosts clips home)
    (hnames : (s.bodies.map (·.1.storageName)).Nodup) (hrest : s.rest.length = s.rig.slots.size)
    (frame : Frame) :
    (newInstance hosts).frameLines frame =
      s.recorded home.conditions home.entities.size (s.bodyNumber home.entities.size) frame := by
  -- each slot has one speaker: its own body, or the root
  have hfilters : ∀ b ∈ s.bodies,
      (newInstance hosts).riders.filter ((newInstance hosts).isNode · b.1.storageName) =
        [s.bodyNumber home.entities.size b.1] := fun _ hb =>
    filter_riders_newInstance hnames hb
  have hspeakers : ∀ slot ∈ s.rig.slots.toList, (newInstance hosts).speakers slot =
      [match slot.node.kind with
        | .locator true => s.bodyNumber home.entities.size slot
        | _ => home.entities.size] := by
    intro slot hslot
    unfold Instance.speakers
    cases hkind : slot.node.kind with
    | locator tracked =>
      cases tracked with
      | true =>
        rw [← map_fst_zip_rest hrest] at hslot
        obtain ⟨b, hb, rfl⟩ := List.mem_map.1 hslot
        have hb : b ∈ s.bodies := List.mem_filter.2 ⟨hb, by rw [hkind]; rfl⟩
        exact hfilters _ hb
      | false => rfl
    | _ => rfl
  unfold Instance.frameLines recorded
  congr 1
  · unfold Instance.rootLines
    cases frame.commands with
    | none => rfl
    | some effect => exact lines_singleton _ _ _ _
  · refine List.flatMap_congr fun slot hslot => ?_
    unfold Instance.nodeLines
    dsimp only
    rw [hspeakers slot hslot]
    cases frame.entry? slot.node.uuid with
    | none => rfl
    | some entry =>
      obtain ⟨pose, effect⟩ := entry
      cases effect with
      | none => rfl
      | some effect => exact lines_singleton _ _ _ _

end Stage

/-- The passengers with the tag of a node, and where they are. -/
theorem Instance.Shows.map_passengers {I : Instance} {sc : Scene} {w : World} (h : I.Shows w sc)
    (name : String) :
    ((w.passengers I.root).filter fun e => e.hasTag (I.stage.names.nodeTag name)).map
        (fun e => (e.id, e.look.place)) =
      (I.riders.filter (I.isNode · name)).map fun r => (r, Instance.placeOf sc r) := by
  have hriders := h.forall₂_passengers
  generalize I.riders = rs, w.passengers I.root = es at hriders ⊢
  induction hriders with
  | nil => rfl
  | @cons r e rs es hrider _ ih =>
    have htag : e.hasTag (I.stage.names.nodeTag name) = I.isNode r name := hrider.hasTag _
    rw [List.filter_cons, List.filter_cons, htag]
    split
    · rw [List.map_cons, List.map_cons, ih, hrider.id, hrider.look]
      rfl
    · exact ih

namespace Stage

variable {s : Stage} {clips : List CompiledClip} {c : CompiledClip}

/-- After an animation with frames of distinct ticks was played on a new instance, up to its end:
every node with an entity is where its latest entry brings it, and the commands of all frames so far
have been recorded in the order of their ticks. -/
theorem replay_of_play (hrig : s.rig.IsBuilt) (hrest : s.rest.length = s.rig.slots.size)
    (hns : IsStorageName s.names.namespaceName) (hclips : AreCompiled clips)
    (hfinite : s.IsFiniteAtRest) (answers : Std.HashMap String Bool) (hc : c ∈ clips)
    (hlength : c.clip.duration + c.clip.loopDelay ≤ 2147483647) (hsparse : c.clip.IsSparse) :
    ∃ root w w₁ body, s.Summons clips answers root w ∧
      Run.on (World.run ((ClipPaths.ofClip s.names.namespaceName c.clip).control "play")
        (some root)) w = (.ok (), w₁) ∧
      ∀ k < c.clip.duration, ∃ w₂, Run.on (World.ticks k) w₁ = (.ok (), w₂) ∧
        (∀ b ∈ s.rig.slots.toList.zip s.rest, b.1.node.kind.hasEntity = true →
          ((w₂.passengers root).filter fun e =>
              e.hasTag (s.names.nodeTag b.1.storageName)).map (fun e => (e.id, e.look.place)) =
            [(body b.1, placeAt c.clip b k)]) ∧
        w₂.output.toList = (List.range (k + 1)).flatMap fun tick =>
          (c.clip.frameAt? tick).toList.flatMap (s.recorded answers root body) := by
  have hnames := nodup_bodies hrig.nodup_storageNames hrest
  obtain ⟨home, hosts, w, hsummons, rfl, houtput, hready⟩ :=
    exists_summons hns hrig.nodup_variantNames hclips hfinite answers
  obtain ⟨w₁, hplay, hruns⟩ := (hready c hc hlength).play_ticks
  refine ⟨_, w, w₁, s.bodyNumber home.entities.size, hsummons, hplay, fun k hk => ?_⟩
  obtain ⟨w₂, hticks, hreach, -⟩ := hruns k
  -- the passenger of a slot is where the latest frames have brought it
  refine ⟨w₂, hticks, fun b hb hentity => ?_, ?_⟩
  · have hbody : b ∈ s.bodies := List.mem_filter.2 ⟨hb, hentity⟩
    obtain ⟨j, hj, hnumber⟩ := getElem?_bodies_bodyNumber hnames hbody home.entities.size
    have hrider : home.entities.size + 1 + j ∈ (newInstance hosts).riders :=
      mem_riders_newInstance.2 ⟨j, b, hj, rfl⟩
    have hslot : b.1 ∈ s.rig.slots.toList := (List.of_mem_zip hb).1
    have hplace := (hready c hc hlength).placeOf_sceneAfter hsparse hrider
      hrig.nodup_storageNames hslot (embodies_newInstance hosts hj) hentity hk
    rw [placeOf_startScene hosts hj] at hplace
    refine (hreach.map_passengers b.1.storageName).trans ?_
    rw [filter_riders_newInstance hnames hbody, hnumber, List.map_singleton, hplace]
    rfl
  -- what was recorded are the lines of the frames so far
  · refine hreach.output.trans ?_
    rw [(hready c hc hlength).output_sceneAfter hsparse (startScene_tagged hosts .suppress) hk,
      startScene_output, houtput]
    refine (List.nil_append _).trans (List.flatMap_congr fun tick _ => ?_)
    refine List.flatMap_congr fun frame _ => ?_
    exact frameLines_newInstance hosts hnames hrest frame

/-- A rig with a camera, a bone and a locator that has no entity. -/
def crane : Stage :=
  ⟨⟨"rig", #[⟨⟨⟨1⟩, "camera", none, .camera, {}⟩, "camera", none⟩,
      ⟨⟨⟨2⟩, "arm", none, .bone none, {}⟩, "arm", none⟩,
      ⟨⟨⟨3⟩, "marker", none, .locator false, {}⟩, "marker", none⟩], []⟩, {}, ⟨"rig"⟩,
    [Pose.one, Pose.one, Pose.one]⟩

theorem isBuilt_crane : crane.rig.IsBuilt :=
  ⟨"rig", [⟨⟨1⟩, "camera", none, .camera, {}⟩, ⟨⟨2⟩, "arm", none, .bone none, {}⟩,
    ⟨⟨3⟩, "marker", none, .locator false, {}⟩], [], rfl⟩

theorem isFiniteAtRest_crane : crane.IsFiniteAtRest := by
  have hone : ∀ x ∈ Pose.one.matrix.toList, (toSingle x).isFinite = true := by
    decide +kernel
  intro b hb _
  simp only [crane, List.zip_cons_cons, List.zip_nil_right, List.mem_cons, List.not_mem_nil,
    or_false] at hb
  obtain rfl | rfl | rfl := hb <;> exact hone

/-- At the second tick the camera has been moved, the arm still shows its entry of the first tick,
and the locator says something after the root did. -/
theorem replay_second_tick :
    ∃ (c : CompiledClip) (root : Nat) (w w₁ w₂ : World), crane.Summons [c] {} root w ∧
      Run.on (World.run ((ClipPaths.ofClip "rig" c.clip).control "play") (some root)) w =
        (.ok (), w₁) ∧
      Run.on (World.ticks 1) w₁ = (.ok (), w₂) ∧
      (((w₂.passengers root).filter fun e => e.hasTag (crane.names.nodeTag "camera")).map fun e =>
        e.look.place) = [⟨some (transformation Mat4.one), some (⟨0, 2, 0⟩, 90, 10)⟩] ∧
      (((w₂.passengers root).filter fun e => e.hasTag (crane.names.nodeTag "arm")).map fun e =>
        e.look.place) = [⟨some (transformation (Mat4.shift ⟨1, 0, 0⟩)), none⟩] ∧
      w₂.output.toList = [⟨some root, "say start"⟩, ⟨some root, "say step"⟩] := by
  let raised : Pose := { Pose.one with offset := ⟨0, 2, 0⟩, yaw := 90, pitch := 10 }
  let stretched : Pose := { Pose.one with matrix := Mat4.shift ⟨1, 0, 0⟩ }
  let frames : List Frame := [
    { tick := 0, nodes := [(⟨2⟩, ⟨stretched, none⟩)], commands := some ⟨["/say start"], none⟩ },
    { tick := 1
      nodes := [(⟨1⟩, ⟨raised, none⟩),
        (⟨3⟩, ⟨Pose.one, some ⟨["/say step"], none, false, 1⟩⟩)] }]
  let c : CompiledClip := ⟨⟨"walk", "walk", "walk", 2, .once, 0, [], frames⟩, .build frames 2⟩
  obtain ⟨root, w, w₁, body, hsummons, hplay, hruns⟩ := replay_of_play (c := c) isBuilt_crane rfl
    ⟨by decide, List.all_eq_true.1 rfl⟩ (areCompiled_singleton (c := c) rfl (by decide))
    isFiniteAtRest_crane {} (List.mem_singleton_self c) (by decide) ⟨by decide, by decide⟩
  obtain ⟨w₂, hticks, hplaces, houtput⟩ := hruns 1 (by decide)
  -- the camera is the first slot, the arm the second; the bodies are left out
  have hcamera := congrArg (List.map Prod.snd) (hplaces _ (.head _) rfl)
  have harm := congrArg (List.map Prod.snd) (hplaces _ (.tail _ (.head _)) rfl)
  rw [List.map_map] at hcamera harm
  exact ⟨c, root, w, w₁, w₂, hsummons, hplay, hticks, hcamera.trans rfl, harm.trans rfl,
    houtput.trans rfl⟩

end Stage

end Marionette
