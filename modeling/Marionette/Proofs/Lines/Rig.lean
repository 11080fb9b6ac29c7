import Marionette.Proofs.Functions.Payload
import Marionette.Proofs.Lines.Functions

/-!
# Functions of a rig, with one line for each command

- `Stage.hasNoReturn_summonPayload`: no text in the data of a new instance holds a carriage return.
- `Stage.fits_tickFunctions`, `Stage.fits_instanceFunctions`: the commands of the functions of the
  rig itself stay on a line each.
- `Stage.fits_functions`: so do all commands of the pack of a rig.
-/

namespace Marionette

namespace Stage

variable {s : Stage} {clips : List Clip}

/-! ### The data of a new instance -/

/-- In documents a carriage return is escaped. -/
theorem hasNoReturn_escapedText (text : String) : HasNoReturn (Json.escapedText text) := by
  have hcontrol : ∀ n < 0x20, '\r' ∉ Json.escapeChar (Char.ofNat n) := by decide
  have hchar : ∀ c, '\r' ∉ Json.escapeChar c := by
    intro c hmem
    by_cases hc : c.toNat < 0x20
    · exact hcontrol c.toNat hc (by rwa [Char.ofNat_toNat])
    · have hne : c ≠ '\r' := by
        rintro rfl
        exact hc (by decide)
      unfold Json.escapeChar at hmem
      split_ifs at hmem <;> simp [hne.symm] at hmem
  rw [HasNoReturn, Json.escapedText, String.toList_ofList]
  simp only [List.mem_append, List.mem_singleton, List.mem_flatMap]
  rintro ((h | ⟨c, -, hc⟩) | h)
  · exact absurd h (by decide)
  · exact hchar c hc
  · exact absurd h (by decide)

theorem hasNoReturn_defaultBoneItem : HasNoReturn defaultBoneItem := by decide

/-- The item that a node shows comes from a variant, from the node or from nowhere. -/
theorem hasNoReturn_boneItem {node : RigNode} {variant : Option Variant} {model : String}
    (hnode : node.kind.HasNoReturn) (hvariant : ∀ v ∈ variant, v.IsOneLine)
    (h : boneItem? node variant = some model) : HasNoReturn model := by
  unfold boneItem? at h
  split at h
  · rename_i item hkind
    cases h
    rw [hkind] at hnode
    cases hmodel : variant.bind fun v => v.model? node.uuid with
    | some model =>
      obtain ⟨v, rfl, hv⟩ := Option.bind_eq_some_iff.1 hmodel
      obtain ⟨m, hm, rfl⟩ := Option.map_eq_some_iff.1 hv
      exact (hvariant v rfl).models m (List.mem_of_find?_eq_some hm)
    | none =>
      cases item with
      | some item => exact hnode item rfl
      | none => exact hasNoReturn_defaultBoneItem
  · cases h

/-- The variant that is shown at first is one of the variants of the rig. -/
theorem IsOneLine.defaultVariant (hs : s.IsOneLine) : ∀ v ∈ s.defaultVariant?, v.IsOneLine := by
  intro v hv
  obtain ⟨named, hnamed, rfl⟩ := Option.map_eq_some_iff.1 hv
  exact (hs.variants named (List.mem_of_find?_eq_some hnamed)).2

/-- No text in what a node shows holds a carriage return. -/
theorem hasNoReturn_contents (hs : s.IsOneLine) {node : RigNode} (hnode : node.kind.HasNoReturn) :
    (s.contents node).HasNoReturn := by
  have hkeys : HasNoReturn "item" ∧ HasNoReturn "block_state" ∧ HasNoReturn "Name" ∧
      HasNoReturn "text" := by decide
  have hshown := hnode
  rw [Compound.hasNoReturn_iff]
  unfold contents
  split <;> rename_i hkind <;> rw [hkind] at hshown
  · intro e he
    obtain ⟨model, hmodel, rfl⟩ := List.mem_map.1 he
    have hitem := hasNoReturn_boneItem hnode hs.defaultVariant (Option.mem_toList.1 hmodel)
    exact ⟨hkeys.1, hasNoReturn_itemData hitem⟩
  · exact List.forall_mem_singleton.2 ⟨hkeys.1, hasNoReturn_itemData hshown⟩
  · refine List.forall_mem_singleton.2 ⟨hkeys.2.1, ?_⟩
    rw [Datum.HasNoReturn, Datum.entriesWithoutReturn_iff]
    exact List.forall_mem_singleton.2 ⟨hkeys.2.2.1, by rwa [Datum.HasNoReturn]⟩
  · refine List.forall_mem_singleton.2 ⟨hkeys.2.2.2, ?_⟩
    rw [Datum.HasNoReturn]
    exact hasNoReturn_escapedText _
  · exact nofun
  · exact nofun

/-- A list of texts holds no carriage return if none of the texts does. -/
theorem hasNoReturn_strings {texts : List String} (h : ∀ t ∈ texts, HasNoReturn t) :
    (Datum.strings texts).HasNoReturn := by
  rw [Datum.strings, Datum.HasNoReturn, Datum.allWithoutReturn_iff]
  intro d hd
  obtain ⟨t, ht, rfl⟩ := List.mem_map.1 hd
  rw [Datum.HasNoReturn]
  exact h t ht

/-- Nor does a text in the data of the entity of a node. -/
theorem hasNoReturn_bodyData (hs : s.IsOneLine) {b : Slot × Pose} (hb : b.1 ∈ s.rig.slots.toList) :
    (s.bodyData b).HasNoReturn := by
  obtain ⟨hname, hnode⟩ := hs.slots b.1 hb
  have hkeys : HasNoReturn "id" ∧ HasNoReturn "Tags" ∧ HasNoReturn "transformation" ∧
      HasNoReturn "interpolation_duration" := by decide
  have htype : HasNoReturn b.1.node.kind.entityType := by
    have htypes : HasNoReturn "minecraft:item_display" ∧ HasNoReturn "minecraft:block_display" ∧
        HasNoReturn "minecraft:text_display" := by decide
    cases b.1.node.kind <;> simp only [NodeKind.entityType, htypes]
  have htags : (Datum.strings [s.names.nodeTag b.1.storageName, s.names.anyNodeTag]).HasNoReturn :=
    hasNoReturn_strings (by simp [IsLine.hasNoReturn, hs.own, hs.nodeTag hname])
  have hcontents := Compound.hasNoReturn_iff.1 (hasNoReturn_contents hs hnode)
  rw [Compound.hasNoReturn_iff, bodyData]
  simp only [List.forall_mem_append, List.forall_mem_cons]
  refine ⟨⟨⟨⟨hkeys.1, ?_⟩, ⟨hkeys.2.1, htags⟩, List.forall_mem_nil _⟩, hcontents⟩,
    ⟨hkeys.2.2.1, hasNoReturn_transformation _⟩, ⟨hkeys.2.2.2, trivial⟩, List.forall_mem_nil _⟩
  rw [Datum.HasNoReturn]
  exact htype

/-- What is summoned names the entities, their tags and what they show. -/
theorem hasNoReturn_summonPayload (hs : s.IsOneLine) : s.summonPayload.HasNoReturn := by
  have hkeys : HasNoReturn "Tags" ∧ HasNoReturn "Passengers" := by decide
  have htags : (Datum.strings [s.names.rootTag, s.names.newTag]).HasNoReturn :=
    hasNoReturn_strings (by simp [IsLine.hasNoReturn, hs.own])
  rw [Compound.hasNoReturn_iff, summonPayload]
  simp only [List.forall_mem_cons]
  refine ⟨⟨hkeys.1, htags⟩, ⟨hkeys.2, ?_⟩, nofun⟩
  rw [Datum.HasNoReturn, Datum.allWithoutReturn_iff]
  intro d hd
  obtain ⟨data, hdata, rfl⟩ := List.mem_map.1 hd
  obtain ⟨b, hb, hbody⟩ := List.mem_filterMap.1 hdata
  rw [passenger?_eq] at hbody
  split at hbody
  · cases hbody
    exact hasNoReturn_bodyData hs (List.of_mem_zip hb).1
  · cases hbody

/-! ### Objectives and the tick -/

/-- The function that runs on loading: a comment with the name of the rig, the objectives, each
behind a comment, and comments about the tags. -/
theorem fits_loadBody (hs : s.IsOneLine) (hclips : ∀ c ∈ clips, c.IsOneLine) :
    ∀ c ∈ s.loadBody clips, c.Fits := by
  have hcomment : ∀ {text}, IsLine text → (Command.comment text).Fits :=
    fun h => ⟨h, Command.noConfusion⟩
  have hobjective : ∀ o ∈ s.names.instanceObjectives ++
      clips.flatMap fun c => s.names.animationObjectives c.storageName, IsLine o.1 ∧
      IsLine o.2 := by
    -- the descriptions of the objectives are fixed texts
    have habout : IsLine "frame index the dispatch tree is evaluated against" ∧
        IsLine "remaining tween ticks; animations do not advance while > 0" ∧
        IsLine "tween length for the next tween_play/tween_resume" ∧
        IsLine "interpolation duration synced to node entities" ∧
        IsLine "ticks since summon" ∧ IsLine "playback position in ticks" ∧
        IsLine "0 loop, 1 once, 2 hold" := by decide
    refine List.forall_mem_append.2 ⟨?_, fun o ho => ?_⟩
    · simp [RuntimeNames.instanceObjectives, hs.own, habout]
    · obtain ⟨c, hc, ho⟩ := List.mem_flatMap.1 ho
      have hanimation : ∀ o ∈ s.names.animationObjectives c.storageName, IsLine o.1 ∧
          IsLine o.2 := by
        simp [RuntimeNames.animationObjectives, hs.ofAnimation (hclips c hc).storageName, habout]
      exact hanimation o ho
  obtain ⟨-, -, -, -, -, hsuppress, hroot, -, -⟩ := hs.own
  intro command hcommand
  unfold loadBody at hcommand
  dsimp only at hcommand
  rw [List.mem_append, List.mem_append, List.mem_append, List.mem_map, List.mem_flatMap] at hcommand
  simp only [List.mem_cons, List.not_mem_nil, or_false] at hcommand
  -- the head line, each objective with its comment, the two tags and the animations
  obtain ((rfl | ⟨o, ho, rfl | rfl⟩) | rfl | rfl) | ⟨c, hc, rfl⟩ := hcommand
  · refine hcomment ?_
    simp only [isLine_append, and_assoc]
    exact ⟨by decide, hs.name, by decide⟩
  · obtain ⟨hname, habout⟩ := hobjective o ho
    refine hcomment ?_
    simp only [isLine_append, and_assoc]
    exact ⟨hname, by decide, habout⟩
  · exact ⟨(hobjective o ho).1, Command.noConfusion⟩
  · refine hcomment ?_
    simp only [isLine_append, and_assoc]
    exact ⟨by decide, hroot, by decide⟩
  · refine hcomment ?_
    simp only [isLine_append, and_assoc]
    exact ⟨by decide, hsuppress, by decide⟩
  · refine hcomment ?_
    simp only [isLine_append, and_assoc]
    exact ⟨by decide, (hs.ofAnimation (hclips c hc).storageName).2.2, by decide, (hclips c hc).name,
      by decide⟩

/-- Paths of an animation begin with the name space and its path name. -/
theorem hasLinePath_ofClip (hs : s.IsOneLine) {clip : Clip} (hclip : clip.IsOneLine) :
    HasLinePath (.ofClip s.names.namespaceName clip) := by
  refine ⟨hs.namespaceName, ?_⟩
  show IsLine s!"animations/{clip.pathName}"
  simp only [isLine_append]
  exact ⟨by decide, hclip.pathName⟩

/-- What a root does at a tick: it counts its life, ticks every animation that plays, and lets the
tween pass. -/
theorem fits_onTickBody (hs : s.IsOneLine) (hclips : ∀ c ∈ clips, c.IsOneLine) :
    ∀ c ∈ s.onTickBody clips, c.Fits := by
  have hstep : IsLine "tween_step" := by decide
  have hown := hs.own
  refine List.forall_mem_append.2 ⟨List.forall_mem_append.2 ⟨?_, ?_⟩, ?_⟩
  · simp [hown]
  · intro command hcommand
    obtain ⟨c, hc, rfl⟩ := List.mem_map.1 hcommand
    have hpaths := hasLinePath_ofClip hs (hclips c hc)
    have htick := isLine_join hpaths.2 (show IsLine "tick" by decide)
    simp [ClipPaths.control, FunctionPath.join] at htick ⊢
    exact ⟨(hs.ofAnimation (hclips c hc).storageName).2.2, hpaths.1, htick⟩
  · simp [hown, hstep, Stage.function, hs.namespaceName]

/-- A tick of a tween is written with the scores of the root only. -/
theorem fits_tweenStepBody (hs : s.IsOneLine) : ∀ c ∈ s.tweenStepBody, c.Fits := by
  simp [tweenStepBody, hs.own, hs.namespaceName]

/-- Roots are selected by the type of their entity, which the author may choose. -/
theorem isOneLine_ofType {tag : String} (hs : s.IsOneLine) (htag : IsLine tag) :
    ((Selector.entities.ofType s.config.rootEntity).tagged tag).IsOneLine := by
  rw [Selector.isOneLine_tagged]
  refine ⟨⟨fun t ht => ?_, nofun⟩, htag⟩
  rw [← Option.some.inj ht]
  exact hs.rootEntity

/-- The four functions of loading and of ticks are written as lines. -/
theorem fits_tickFunctions (hs : s.IsOneLine) (hclips : ∀ c ∈ clips, c.IsOneLine) :
    FitAll (s.tickFunctions clips) := by
  have htick : IsLine "on_tick" := by decide
  have hroots : s.roots.IsOneLine := isOneLine_ofType hs (by simp only [hs.own])
  refine List.forall_mem_cons.2 ⟨fits_loadBody hs hclips, List.forall_mem_cons.2 ⟨?_,
    List.forall_mem_cons.2 ⟨fits_onTickBody hs hclips, List.forall_mem_singleton.2
      (fits_tweenStepBody hs)⟩⟩⟩
  simp [hroots, Stage.function, htick, hs.namespaceName]

/-! ### Summoning, removing, interpolation and variants -/

/-- Summoning is one command and the call of what gives the new instance its start. -/
theorem fits_summonBody (hs : s.IsOneLine) : ∀ c ∈ s.summonBody, c.Fits := by
  have hinit : IsLine "init_instance" := by decide
  have hfresh := isOneLine_ofType hs (show IsLine s.names.newTag by simp only [hs.own])
  simp [summonBody, hs.rootEntity, hasNoReturn_summonPayload hs, hfresh, Stage.function, hinit,
    hs.namespaceName]

/-- A new instance gets its scores and loses the tag of new ones. -/
theorem fits_initBody (hs : s.IsOneLine) (hclips : ∀ c ∈ clips, c.IsOneLine) :
    ∀ c ∈ s.initBody clips, c.Fits := by
  have hown := hs.own
  refine List.forall_mem_append.2 ⟨List.forall_mem_append.2 ⟨?_, ?_⟩, ?_⟩
  · simp [hown]
  · intro command hcommand
    obtain ⟨c, hc, hcommand⟩ := List.mem_flatMap.1 hcommand
    have hanimation : ∀ command ∈ [setOwn (s.names.localTime c.storageName) 0,
        setOwn (s.names.loopMode c.storageName) c.loopMode.score], command.Fits := by
      simp [hs.ofAnimation (hclips c hc).storageName]
    exact hanimation command hcommand
  · simp [hown]

/-- Setting the interpolation duration of the nodes needs a store under the root. -/
theorem fits_syncBody (hs : s.IsOneLine) : ∀ c ∈ s.syncBody, c.Fits := by
  have hholder : interpHolder.IsOneLine := show IsLine "#interp" by decide
  have hpath : (Clause.storeResultEntity "interpolation_duration").IsOneLine :=
    show IsLine "interpolation_duration" by decide
  simp [syncBody, Command.copyScore, hs.own, hholder, hpath]

/-- A variant is shown by items for its bones, or is a comment with its name. -/
theorem fits_variantBody (hs : s.IsOneLine) {v : Variant} (hv : v.IsOneLine) :
    ∀ c ∈ s.variantBody v, c.Fits := by
  unfold variantBody
  dsimp only
  split
  · refine List.forall_mem_singleton.2 ⟨?_, Command.noConfusion⟩
    show IsLine s!"variant '{v.name}' has no bones"
    simp only [isLine_append, and_assoc]
    exact ⟨by decide, hv.name, by decide⟩
  · intro command hcommand
    obtain ⟨slot, hslot, hcommand⟩ := List.mem_filterMap.1 hcommand
    obtain ⟨model, hmodel, rfl⟩ := Option.map_eq_some_iff.1 hcommand
    obtain ⟨hname, hnode⟩ := hs.slots slot hslot
    have hitem := hasNoReturn_boneItem hnode (fun v' hv' => Option.some.inj hv' ▸ hv) hmodel
    refine ⟨⟨isOneLine_onNode hs hname, Holder.isOneLine_this, ?_⟩, Command.noConfusion⟩
    rw [Compound.hasNoReturn_iff]
    exact List.forall_mem_singleton.2
      ⟨show HasNoReturn "item" by decide, hasNoReturn_itemData hitem⟩

/-- The functions of instances and variants are written as lines. -/
theorem fits_instanceFunctions (hs : s.IsOneLine) (hclips : ∀ c ∈ clips, c.IsOneLine) :
    FitAll (s.instanceFunctions clips) := by
  refine List.forall_mem_append.2 ⟨?_, ?_⟩
  · refine List.forall_mem_cons.2
      ⟨fits_summonBody hs, List.forall_mem_cons.2 ⟨fits_initBody hs hclips,
      List.forall_mem_cons.2 ⟨?_, List.forall_mem_cons.2 ⟨?_, List.forall_mem_singleton.2
        (fits_syncBody hs)⟩⟩⟩⟩
    · simp
    · intro command hcommand
      obtain ⟨c, hc, rfl⟩ := List.mem_map.1 hcommand
      simp [hs.ofAnimation (hclips c hc).storageName]
  · intro g hg
    obtain ⟨v, hv, rfl⟩ := List.mem_map.1 hg
    exact fits_variantBody hs (hs.variants v hv).2

/-! ### The whole pack -/

/-- The functions of an animation are written as lines if the frames of its tree stay on lines. -/
theorem fits_clipFunctions (hs : s.IsOneLine) {c : CompiledClip} (hclip : c.clip.IsOneLine)
    (hframes : ∀ f ∈ c.tree.frames, f.IsOneLine) : FitAll (s.clipFunctions c.clip c.tree) := by
  have hpaths := hasLinePath_ofClip hs hclip
  exact ((fits_dispatchFunctions hs hpaths c.tree).append
    (fits_leafFunctions hs hpaths hframes)).append
    (fits_controlFunctions hs hpaths hclip.storageName)

/-- All commands of a rig with compiled animations stay on a line each. -/
theorem fits_functions (hs : s.IsOneLine) {compiled : List CompiledClip}
    (hclips : ∀ c ∈ compiled, c.clip.IsOneLine ∧ ∀ f ∈ c.tree.frames, f.IsOneLine) :
    FitAll (s.functions compiled) := by
  have hown : ∀ clip ∈ compiled.map (·.clip), clip.IsOneLine := by
    intro clip hclip
    obtain ⟨c, hc, rfl⟩ := List.mem_map.1 hclip
    exact (hclips c hc).1
  refine FitAll.append (FitAll.append ?_ (fits_tickFunctions hs hown))
    (fits_instanceFunctions hs hown)
  intro g hg
  obtain ⟨c, hc, hg⟩ := List.mem_flatMap.1 hg
  exact fits_clipFunctions hs (hclips c hc).1 (hclips c hc).2 g hg

end Stage

end Marionette
