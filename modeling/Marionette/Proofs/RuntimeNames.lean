import Marionette.Functions.Rig
import Marionette.Proofs.Names
import Mathlib.Data.List.Nodup

/-!
# Names of the playback state are kept apart

Everything that an instance remembers has a key, and different keys have different names.

- `ScoreKey`, `TagKey`: the scores and the tags of a root.
- `RuntimeNames.score_inj`, `RuntimeNames.tag_inj`: their names differ.
- `RuntimeNames.nodeTag_inj`, `RuntimeNames.tag_ne_nodeTag`: so do the tags of the entities of
  nodes.
- `RuntimeNames.objectives`, `RuntimeNames.tags`: all objectives and tags of a rig;
  `objectives_loadBody`: loading creates just these objectives.
- `nodup_tags_iff`: when the tags are different.
- `names_keep_apart`: names within a name space and of different name spaces.
-/

namespace Marionette

/-- A score of a root. -/
inductive ScoreKey where
  | frame | tween | tweenRequest | interp | lifetime
  /-- Playback position of an animation. -/
  | localTime (animation : String)
  /-- Loop mode of an animation. -/
  | loopMode (animation : String)
deriving DecidableEq

/-- A tag of a root. -/
inductive TagKey where
  | root | new | suppress
  /-- An animation is advancing. -/
  | playing (animation : String)
deriving DecidableEq

/-- The name of a score within the name space. -/
def ScoreKey.text : ScoreKey → String
  | frame => "frame"
  | tween => "tween"
  | tweenRequest => "tween_request"
  | interp => "interp"
  | lifetime => "lifetime"
  | localTime animation => animation ++ ".local_time"
  | loopMode animation => animation ++ ".loop_mode"

/-- The name of a tag within the name space. -/
def TagKey.text : TagKey → String
  | root => "root"
  | new => "new"
  | suppress => "suppress_effects"
  | playing animation => animation ++ ".playing"

theorem ScoreKey.text_inj {k k' : ScoreKey} (h : k.text = k'.text) : k = k' := by
  -- the ends of the names tell all keys apart, up to the name of the animation
  have hend := congrArg (fun t => t.toList.reverse) h
  cases k <;> cases k' <;> simp [text] at hend ⊢
  all_goals exact String.toList_inj.1 hend

theorem TagKey.text_inj {k k' : TagKey} (h : k.text = k'.text) : k = k' := by
  have hend := congrArg (fun t => t.toList.reverse) h
  cases k <;> cases k' <;> simp [text] at hend ⊢
  exact String.toList_inj.1 hend

namespace RuntimeNames

variable (v : RuntimeNames)

/-- The objective of a score. -/
def score (k : ScoreKey) : String := v.name k.text

/-- The tag of a key. -/
def tag (k : TagKey) : String := v.name k.text

variable {v}

theorem name_inj {a b : String} (h : v.name a = v.name b) : a = b := by
  have hl := congrArg String.toList h
  simp only [name, String.toList_append] at hl
  exact String.toList_inj.1 (List.append_cancel_left hl)

theorem score_inj {k k' : ScoreKey} (h : v.score k = v.score k') : k = k' :=
  ScoreKey.text_inj (name_inj h)

theorem tag_inj {k k' : TagKey} (h : v.tag k = v.tag k') : k = k' :=
  TagKey.text_inj (name_inj h)

theorem nodeTag_inj {a b : String} (h : v.nodeTag a = v.nodeTag b) : a = b := by
  have hl := congrArg String.toList (name_inj h)
  simp only [String.toList_append] at hl
  exact String.toList_inj.1 (List.append_cancel_left hl)

theorem nodeTag_ne_anyNodeTag (a : String) : v.nodeTag a ≠ v.anyNodeTag := by
  intro h
  have hl := congrArg String.toList (name_inj h)
  simp at hl

/-- The tags that tell roots from other entities are no tags of the entities of nodes. -/
theorem tag_ne_nodeTag {k : TagKey} (hk : k = .root ∨ k = .new) :
    v.tag k ≠ v.anyNodeTag ∧ ∀ a, v.tag k ≠ v.nodeTag a := by
  refine ⟨fun h => ?_, fun a h => ?_⟩
  all_goals
    have hl := congrArg String.toList (name_inj h)
    rcases hk with rfl | rfl <;> simp [TagKey.text] at hl

end RuntimeNames

/-! ### All names of a rig -/

/-- The keys of all scores of a root with some animations. -/
def ScoreKey.all (animations : List String) : List ScoreKey :=
  [frame, tween, tweenRequest, interp, lifetime] ++
    animations.flatMap fun a => [localTime a, loopMode a]

/-- The objective that a command creates. -/
def Command.objective? : Command → Option String
  | .objectiveAdd name => some name
  | _ => none

namespace RuntimeNames

variable {v v' : RuntimeNames} {animations nodes : List String}

/-- The objectives of a rig with some animations. -/
def objectives (v : RuntimeNames) (animations : List String) : List String :=
  (ScoreKey.all animations).map v.score

/-- The tags of a rig with some animations and nodes. -/
def tags (v : RuntimeNames) (animations nodes : List String) : List String :=
  [v.rootTag, v.newTag, v.suppressTag, v.anyNodeTag] ++ animations.map v.playingTag ++
    nodes.map v.nodeTag

theorem objectives_eq (v : RuntimeNames) (clips : List Clip) :
    (v.instanceObjectives ++ clips.flatMap fun c => v.animationObjectives c.storageName).map (·.1) =
      v.objectives (clips.map (·.storageName)) := by
  rw [objectives, ScoreKey.all, List.map_append, List.map_append, List.map_flatMap,
    List.map_flatMap, List.flatMap_map]
  rfl

/-- Loading creates these objectives, and no others. -/
theorem objectives_loadBody (s : Stage) (clips : List Clip) :
    (s.loadBody clips).filterMap Command.objective? =
      s.names.objectives (clips.map (·.storageName)) := by
  have hcreated : ∀ (named : List (String × String)) (create : String × String → List Command),
      (∀ n, (create n).filterMap Command.objective? = [n.1]) →
        (named.flatMap create).filterMap Command.objective? = named.map (·.1) := by
    intro named create hcreate
    induction named with
    | nil => rfl
    | cons n rest ih =>
      rw [List.flatMap_cons, List.filterMap_append, hcreate, ih]
      rfl
  have hcomments : ∀ text : Clip → String,
      (clips.map fun c => Command.comment (text c)).filterMap Command.objective? = [] := by
    intro text
    rw [List.filterMap_map]
    exact List.filterMap_eq_nil_iff.2 fun _ _ => rfl
  rw [Stage.loadBody, List.filterMap_append, List.filterMap_append, List.filterMap_append,
    hcreated _ _ fun _ => rfl, hcomments, objectives_eq, List.append_nil]
  exact List.append_nil _

theorem nodup_scoreKeys (h : animations.Nodup) : (ScoreKey.all animations).Nodup := by
  refine List.nodup_append.2 ⟨by decide, List.nodup_flatMap.2 ⟨fun a _ => by simp, ?_⟩, ?_⟩
  · refine h.imp fun {a b} hne => ?_
    simp [Function.onFun, Ne.symm hne]
  · intro k hk k' hk'
    obtain ⟨a, -, ha⟩ := List.mem_flatMap.1 hk'
    rintro rfl
    simp at hk ha
    rcases ha with rfl | rfl <;> simp at hk

/-- The tag of an animation and the tag of a node are the same for a single pair of names. -/
theorem playingTag_eq_nodeTag_iff {a n : String} (ha : '.' ∉ a.toList) :
    v.playingTag a = v.nodeTag n ↔ a = "node" ∧ n = "playing" := by
  constructor
  · intro h
    have hl := congrArg String.toList (name_inj h)
    have hcut : a.toList ++ '.' :: "playing".toList = "node".toList ++ '.' :: n.toList := by
      simpa using hl
    obtain ⟨hnode, hplaying⟩ := eq_of_append_separator ha (by decide) hcut
    exact ⟨String.toList_inj.1 hnode, (String.toList_inj.1 hplaying).symm⟩
  · rintro ⟨rfl, rfl⟩
    simp [playingTag, nodeTag]

/-- Names of different name spaces are different: what stands before the first dot
tells them apart. -/
theorem name_ne (hv : IsStorageName v.namespaceName) (hv' : IsStorageName v'.namespaceName)
    (hne : v ≠ v') (a b : String) : v.name a ≠ v'.name b := by
  intro h
  have hl := congrArg String.toList h
  have hcut : v.namespaceName.toList ++ '.' :: a.toList =
      v'.namespaceName.toList ++ '.' :: b.toList := by
    simpa [name] using hl
  obtain ⟨hns, -⟩ := eq_of_append_separator (hv.not_mem (by decide)) (hv'.not_mem (by decide)) hcut
  exact hne (congrArg RuntimeNames.mk (String.toList_inj.1 hns))

theorem nodup_objectives (h : animations.Nodup) : (v.objectives animations).Nodup :=
  (nodup_scoreKeys h).map fun _ _ => score_inj

/-- The tags of a rig are different, unless an animation named `node` meets a node named `playing`:
the tag of the root on which the one advances is the tag of the entity of the other. -/
theorem nodup_tags_iff (hanimations : ∀ a ∈ animations, '.' ∉ a.toList) (h : animations.Nodup)
    (h' : nodes.Nodup) :
    (v.tags animations nodes).Nodup ↔ ¬ ("node" ∈ animations ∧ "playing" ∈ nodes) := by
  let fixed : List String := ["root", "new", "suppress_effects", "node"]
  have hfixed : (fixed.map v.name).Nodup := List.Nodup.map (fun _ _ => name_inj) (by decide)
  have hplaying : (animations.map v.playingTag).Nodup := h.map fun a b hab => by
    have hkey : TagKey.playing a = .playing b := tag_inj hab
    exact TagKey.playing.inj hkey
  have hnode : (nodes.map v.nodeTag).Nodup := h'.map fun _ _ => nodeTag_inj
  -- the other tags have a second dot
  have hdot : ∀ tag ∈ fixed.map v.name, ∀ rest : String, '.' ∈ rest.toList → tag ≠ v.name rest := by
    intro tag htag rest hrest heq
    obtain ⟨text, htext, rfl⟩ := List.mem_map.1 htag
    rw [← name_inj heq] at hrest
    exact absurd hrest ((show ∀ text ∈ fixed, '.' ∉ text.toList by decide) text htext)
  constructor
  · rintro hnodup ⟨hanimation, hnode⟩
    have hclash : v.playingTag "node" = v.nodeTag "playing" :=
      (playingTag_eq_nodeTag_iff (by decide)).2 ⟨rfl, rfl⟩
    refine (List.nodup_append.1 hnodup).2.2 _ ?_ _ (List.mem_map_of_mem hnode) hclash
    exact List.mem_append_right _ (List.mem_map_of_mem hanimation)
  · intro hclash
    refine List.nodup_append.2 ⟨List.nodup_append.2 ⟨hfixed, hplaying, ?_⟩, hnode, ?_⟩
    · intro tag htag tag' htag'
      obtain ⟨a, -, rfl⟩ := List.mem_map.1 htag'
      exact hdot tag htag _ (by simp)
    · intro tag htag tag' htag'
      obtain ⟨n, hn, rfl⟩ := List.mem_map.1 htag'
      rcases List.mem_append.1 htag with htag | htag
      · exact hdot tag htag _ (by simp)
      · obtain ⟨a, ha, rfl⟩ := List.mem_map.1 htag
        intro heq
        obtain ⟨rfl, rfl⟩ := (playingTag_eq_nodeTag_iff (hanimations a ha)).1 heq
        exact hclash ⟨ha, hn⟩

/-- Every objective and every tag of a rig is a name within its name space. -/
theorem exists_eq_name {text : String}
    (h : text ∈ v.objectives animations ++ v.tags animations nodes) :
    ∃ rest, text = v.name rest := by
  rcases List.mem_append.1 h with h | h
  · obtain ⟨k, -, rfl⟩ := List.mem_map.1 h
    exact ⟨_, rfl⟩
  · rcases List.mem_append.1 h with h | h
    · rcases List.mem_append.1 h with h | h
      · obtain ⟨rest, -, rfl⟩ := List.mem_map.1
          (show text ∈ ["root", "new", "suppress_effects", "node"].map v.name from h)
        exact ⟨_, rfl⟩
      · obtain ⟨a, -, rfl⟩ := List.mem_map.1 h
        exact ⟨_, rfl⟩
    · obtain ⟨n, -, rfl⟩ := List.mem_map.1 h
      exact ⟨_, rfl⟩

/-- The names of the playback state are kept apart.  The objectives that loading creates are
different; the tags are different, unless an animation named `node` meets a node named `playing`;
and rigs of different name spaces have no objective and no tag in common. -/
theorem names_keep_apart (hv : IsStorageName v.namespaceName)
    (hanimations : ∀ a ∈ animations, IsStorageName a) (h : animations.Nodup) (h' : nodes.Nodup) :
    (∀ (s : Stage) (clips : List Clip), s.names = v → clips.map (·.storageName) = animations →
        (s.loadBody clips).filterMap Command.objective? = v.objectives animations) ∧
      (v.objectives animations).Nodup ∧
      ((v.tags animations nodes).Nodup ↔ ¬ ("node" ∈ animations ∧ "playing" ∈ nodes)) ∧
      ∀ (v' : RuntimeNames) (animations' nodes' : List String), IsStorageName v'.namespaceName →
        v ≠ v' → (v.objectives animations ++ v.tags animations nodes).Disjoint
          (v'.objectives animations' ++ v'.tags animations' nodes') := by
  refine ⟨?_, nodup_objectives h, ?_, ?_⟩
  · rintro s clips rfl rfl
    exact objectives_loadBody s clips
  · exact nodup_tags_iff (fun a ha => (hanimations a ha).not_mem (by decide)) h h'
  · intro v' animations' nodes' hv' hne text htext htext'
    obtain ⟨rest, rfl⟩ := exists_eq_name htext
    obtain ⟨rest', heq⟩ := exists_eq_name htext'
    exact name_ne hv hv' hne rest rest' heq

/-- A rig with an animation named `root` and with nodes named `root` and `playing` has no name
twice, and none in common with a rig whose name space begins with the same letters. -/
theorem names_keep_apart_wolf : IsStorageName "wolf" ∧ IsStorageName "wolf_2" ∧
    (∀ a ∈ ["walk", "root"], IsStorageName a) ∧
    ((⟨"wolf"⟩ : RuntimeNames).objectives ["walk", "root"]).Nodup ∧
    ((⟨"wolf"⟩ : RuntimeNames).tags ["walk", "root"] ["root", "playing"]).Nodup ∧
    ((⟨"wolf"⟩ : RuntimeNames).objectives ["walk", "root"] ++
        (⟨"wolf"⟩ : RuntimeNames).tags ["walk", "root"] ["root", "playing"]).Disjoint
      ((⟨"wolf_2"⟩ : RuntimeNames).objectives ["walk"] ++
        (⟨"wolf_2"⟩ : RuntimeNames).tags ["walk"] ["playing"]) := by
  have hwolf : IsStorageName "wolf" := by decide
  have hother : IsStorageName "wolf_2" := by decide
  have hanimations : ∀ a ∈ ["walk", "root"], IsStorageName a := by decide
  have hnodes : ["root", "playing"].Nodup := by decide
  obtain ⟨-, hobjectives, htags, hdisjoint⟩ :=
    names_keep_apart (v := ⟨"wolf"⟩) hwolf hanimations (by decide) hnodes
  exact ⟨hwolf, hother, hanimations, hobjectives, htags.2 (by decide),
    hdisjoint ⟨"wolf_2"⟩ ["walk"] ["playing"] hother (by decide)⟩

/-- An animation named `node` and a node named `playing` have one tag. -/
theorem not_nodup_tags_playing : ¬ ∀ (v : RuntimeNames) (animations nodes : List String),
    IsStorageName v.namespaceName → (∀ a ∈ animations, IsStorageName a) →
    (∀ n ∈ nodes, IsStorageName n) → animations.Nodup → nodes.Nodup →
    (v.tags animations nodes).Nodup := by
  intro h
  have hsafe : IsStorageName "rig" ∧ IsStorageName "node" ∧ IsStorageName "playing" := by decide
  have hnodup := h ⟨"rig"⟩ ["node"] ["playing"] hsafe.1 (List.forall_mem_singleton.2 hsafe.2.1)
    (List.forall_mem_singleton.2 hsafe.2.2) (by decide) (by decide)
  refine (nodup_tags_iff ?_ (by decide) (by decide)).1 hnodup ⟨.head _, .head _⟩
  exact List.forall_mem_singleton.2 (hsafe.2.1.not_mem (by decide))

end RuntimeNames

end Marionette
