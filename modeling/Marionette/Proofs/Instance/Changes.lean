import Marionette.Proofs.Instance.Scene
import Marionette.Proofs.World.Spawning
import Mathlib.Data.List.Forall2

/-!
# Changes of an instance

What a world tells about an instance that it shows, and how single changes of the world show in the
scene.

- `Shows.isLiving_root`, `Shows.hasTag`, `Shows.passengers` and others: what commands ask for.
- `Reaches.setScore`, `Reaches.addTag`, `Reaches.relook`, `Reaches.say` and others: one rule for
  each change.
-/

namespace Marionette

namespace RuntimeNames

variable (names : RuntimeNames) (k k' : TagKey) (tags : List String)

/-- Adding the tag of a key adds that of no other key. -/
theorem mem_insertTag_tag : decide (names.tag k' ∈ insertTag (names.tag k) tags) =
    (k' == k || decide (names.tag k' ∈ tags)) := by
  by_cases hk : k' = k
  · simp [mem_insertTag, hk]
  · have hne : names.tag k' ≠ names.tag k := fun heq => hk (tag_inj heq)
    simp [mem_insertTag, hk, hne]

/-- Removing the tag of a key removes that of no other key. -/
theorem mem_filter_tag : decide (names.tag k' ∈ tags.filter (· != names.tag k)) =
    (k' != k && decide (names.tag k' ∈ tags)) := by
  by_cases hk : k' = k
  · simp [hk]
  · have hne : names.tag k' ≠ names.tag k := fun heq => hk (tag_inj heq)
    simp [hk, hne]

end RuntimeNames

namespace Instance

variable {I : Instance} {w : World} {sc : Scene}

namespace Shows

theorem isLiving_root (h : I.Shows w sc) : w.IsLiving I.root := by
  obtain ⟨e, he, hroot⟩ := h.root
  exact ⟨e, he, hroot.id, hroot.alive⟩

theorem isLiving_rider (h : I.Shows w sc) {r : Nat} (hr : r ∈ I.riders) : w.IsLiving r := by
  obtain ⟨e, he, hrider⟩ := h.riders r hr
  exact ⟨e, he, hrider.id, hrider.alive⟩

theorem hasTag (h : I.Shows w sc) (k : TagKey) :
    w.hasTag I.root (I.stage.names.tag k) = sc.tagged k := by
  obtain ⟨e, he, hroot⟩ := h.root
  rw [World.hasTag, he, Option.any_some, hroot.hasTag]

theorem rider_hasTag (h : I.Shows w sc) {r : Nat} (hr : r ∈ I.riders) (t : String) :
    w.hasTag r t = I.tags r t := by
  obtain ⟨e, he, hrider⟩ := h.riders r hr
  rw [World.hasTag, he, Option.any_some, hrider.hasTag]

/-- What an instance owns and is tagged as a root is its root. -/
theorem eq_root_of_owns (h : I.Shows w sc) {i : Nat} (hi : I.Owns i)
    (htag : w.hasTag i I.stage.names.rootTag = true) : i = I.root := by
  rcases hi with rfl | hr
  · rfl
  · rw [h.rider_hasTag hr, I.notRoot i hr] at htag
    cases htag

theorem hasObjective (h : I.Shows w sc) {k : ScoreKey} (hk : I.Has k) :
    w.hasObjective (I.stage.names.score k) = true := by
  unfold World.hasObjective
  rw [World.objectives_eq_of_setting h.setting]
  exact hk

theorem installs (h : I.Shows w sc) : w.Installs (I.stage.functions I.clips) :=
  I.hosts.installs.congr (World.functions_eq_of_setting h.setting)

/-- The passengers that are alive are those of the scene, in their order. -/
theorem forall₂_passengers (h : I.Shows w sc) :
    List.Forall₂ (fun r e => I.ShowsRider r (sc.look r) e) I.riders (w.passengers I.root) := by
  obtain ⟨e, he, hroot⟩ := h.root
  -- every passenger is found, alive, under its own number
  have hfound : ∀ rs : List Nat, (∀ r ∈ rs, r ∈ I.riders) →
      List.Forall₂ (fun r e => I.ShowsRider r (sc.look r) e) rs
        ((rs.filterMap w.entity?).filter (·.alive)) := by
    intro rs hrs
    induction rs with
    | nil => exact .nil
    | cons r rs ih =>
      obtain ⟨p, hp, hrider⟩ := h.riders r (hrs r List.mem_cons_self)
      rw [List.filterMap_cons, hp, List.filter_cons, if_pos hrider.alive]
      exact .cons hrider (ih fun r hr => hrs r (List.mem_cons_of_mem _ hr))
  rw [World.passengers, he]
  show List.Forall₂ _ _ ((e.passengers.filterMap w.entity?).filter (·.alive))
  rw [hroot.passengers]
  exact hfound I.riders fun _ hr => hr

theorem passengers (h : I.Shows w sc) : (w.passengers I.root).map (·.id) = I.riders := by
  have hriders := h.forall₂_passengers
  generalize I.riders = rs, w.passengers I.root = es at hriders ⊢
  induction hriders with
  | nil => rfl
  | cons hrider _ ih => rw [List.map_cons, hrider.id, ih]

end Shows

namespace Reaches

variable {w' w'' : World} {sc' : Scene}

theorem refl (h : I.Shows w sc) : I.Reaches w sc w :=
  ⟨h, .refl w⟩

theorem trans (h : I.Reaches w sc w') (h' : I.Reaches w' sc' w'') : I.Reaches w sc' w'' :=
  ⟨h'.1, h.2.trans h'.2⟩

/-- Setting a score of the root. -/
theorem setScore (h : I.Shows w sc) (k : ScoreKey) (v : Int32) :
    I.Reaches w (sc.set k v) (w.setOwnerScore (.entity I.root) (I.stage.names.score k) v) := by
  refine ⟨⟨h.setting, h.root, h.riders, fun k' => ?_, h.output⟩, ⟨rfl, rfl, fun _ _ => rfl, ?_⟩⟩
  · rw [World.score?, World.ownerScore?_setOwnerScore, Scene.set_score]
    by_cases hk : k' = k
    · rw [if_pos (by rw [hk]), if_pos hk]
    · rw [if_neg fun heq => hk (RuntimeNames.score_inj (Prod.mk.inj heq).2), if_neg hk]
      exact h.score k'
  · intro o objective hk _
    rw [World.ownerScore?_setOwnerScore, if_neg (hk k)]

/-- Setting the score that the passengers read. -/
theorem setCarried (h : I.Shows w sc) (v : Int32) :
    I.Reaches w sc (w.setOwnerScore (.fake "#interp") (I.stage.names.score .interp) v) := by
  refine ⟨⟨h.setting, h.root, h.riders, fun k' => ?_, h.output⟩, ⟨rfl, rfl, fun _ _ => rfl, ?_⟩⟩
  · rw [World.score?, World.ownerScore?_setOwnerScore, if_neg (by simp)]
    exact h.score k'
  · intro o objective _ hf
    rw [World.ownerScore?_setOwnerScore, if_neg hf]

/-- Recording a command. -/
theorem say (h : I.Shows w sc) (executor : Nat) (text : String) :
    I.Reaches w (sc.say executor text)
      { w with output := w.output.push ⟨some executor, text⟩ } := by
  refine ⟨⟨h.setting, h.root, h.riders, h.score, ?_⟩,
    ⟨rfl, rfl, fun _ _ => rfl, fun _ _ _ _ => rfl⟩⟩
  rw [Array.toList_push, h.output]
  rfl

/-- Changing the tags of the root. -/
theorem retag (h : I.Shows w sc) {tagged : TagKey → Bool} {f : List String → List String}
    (hf : ∀ e, I.ShowsRoot sc.tagged e → ∀ k,
      decide (I.stage.names.tag k ∈ f e.tags) = tagged k) :
    I.Reaches w { sc with tagged := tagged }
      (w.modifyEntity I.root fun e => { e with tags := f e.tags }) := by
  refine ⟨⟨h.setting, ?_, fun r hr => ?_, h.score, h.output⟩,
    ⟨rfl, Array.size_modify, fun i hi => ?_, fun _ _ _ _ => rfl⟩⟩
  · obtain ⟨e, he, hroot⟩ := h.root
    refine ⟨{ e with tags := f e.tags }, ?_, hroot.id, hroot.alive, hroot.entityType,
      hroot.vehicle, hroot.passengers, hf e hroot⟩
    rw [World.entity?_modifyEntity, if_pos rfl, he]
    rfl
  · obtain ⟨e, he, hrider⟩ := h.riders r hr
    refine ⟨e, ?_, hrider⟩
    rw [World.entity?_modifyEntity, if_neg (root_not_rider hr), he]
  · rw [World.entity?_modifyEntity, if_neg fun heq => hi (.inl heq)]

theorem addTag (h : I.Shows w sc) (k : TagKey) :
    I.Reaches w (sc.tag k) (w.modifyEntity I.root fun e =>
      { e with tags := insertTag (I.stage.names.tag k) e.tags }) := by
  refine retag h fun e he k' => ?_
  rw [RuntimeNames.mem_insertTag_tag, ← he.hasTag k', Entity.hasTag]

theorem removeTag (h : I.Shows w sc) (k : TagKey) :
    I.Reaches w (sc.untag k) (w.modifyEntity I.root fun e =>
      { e with tags := e.tags.filter (· != I.stage.names.tag k) }) := by
  refine retag h fun e he k' => ?_
  rw [RuntimeNames.mem_filter_tag, ← he.hasTag k', Entity.hasTag]

/-- Changing what a passenger looks like. -/
theorem relook (h : I.Shows w sc) {r : Nat} (hr : r ∈ I.riders) {f : Entity → Entity}
    {g : Look → Look} (hbare : ∀ e, (f e).bare = e.bare) (hlook : ∀ e, (f e).look = g e.look) :
    I.Reaches w (sc.relook r g) (w.modifyEntity r f) := by
  refine ⟨⟨h.setting, ?_, fun r' hr' => ?_, h.score, h.output⟩,
    ⟨rfl, Array.size_modify, fun i hi => ?_, fun _ _ _ _ => rfl⟩⟩
  · obtain ⟨e, he, hroot⟩ := h.root
    refine ⟨e, ?_, hroot⟩
    rw [World.entity?_modifyEntity, if_neg fun heq => root_not_rider hr heq.symm, he]
  · obtain ⟨e, he, hrider⟩ := h.riders r' hr'
    rw [World.entity?_modifyEntity, he, Scene.relook_look]
    -- of the changed passenger only the looks are new
    by_cases hid : r' = r
    · have hb := hbare e
      refine ⟨f e, by rw [if_pos hid]; rfl, ?_, ?_, ?_, fun t => ?_, ?_⟩
      · exact (congrArg Entity.id hb).trans hrider.id
      · exact (congrArg Entity.alive hb).trans hrider.alive
      · exact (congrArg Entity.vehicle hb).trans hrider.vehicle
      · have htags : (f e).tags = e.tags := by
          simpa only [Entity.bare] using congrArg Entity.tags hb
        rw [Entity.hasTag, htags]
        exact hrider.hasTag t
      · rw [if_pos hid, hlook, hrider.look]
    · exact ⟨e, by rw [if_neg hid], hrider.id, hrider.alive, hrider.vehicle, hrider.hasTag,
        by rw [if_neg hid]; exact hrider.look⟩
  · rw [World.entity?_modifyEntity, if_neg fun heq : i = r => hi (.inr (heq ▸ hr))]

end Reaches

end Instance

end Marionette
