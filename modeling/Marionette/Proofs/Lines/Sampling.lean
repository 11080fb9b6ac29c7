import Marionette.Proofs.Lines.Functions
import Marionette.Proofs.Sampling.Lossless

/-!
# Frames whose texts stay on one line

The texts in the frames of an animation are those of its keys, and an animation whose keys hold a
text of several lines is refused.

- `Animation.FitsOnLines`: the commands and the conditions of all keys stay on lines;
  `Animation.fitsOnLines_of_check`: so they do in an animation that is not refused.
- `Track.FitsOnLines`: what a node has of its keys; `sampleNode_fits`, `sampleTick_fits`,
  `sampleFrom_fits`: sampling keeps to it, and puts nothing else into frames.
- `Clip.isOneLine_frames_of_sample`: the frames of an animation that is sampled stay on lines.
-/

namespace Marionette

/-! ### Keys -/

/-- Commands and conditions that span several lines are refused when an animation is checked. -/
theorem fitOnLines_of_checkLines {a : Animation} {node : Option Uuid} {commands : List String}
    {condition : Option String} (h : a.checkLines node commands condition = .ok ()) :
    FitOnLines commands condition := by
  have hall : ∀ text ∈ commands ++ condition.toList, IsLine text := by
    unfold Animation.checkLines at h
    split at h
    · rename_i hnone
      intro text htext c hc
      have hbreaks := List.find?_eq_none.1 hnone text htext
      simp only [Animation.breaksLine, List.any_eq_true, Bool.or_eq_true, beq_iff_eq] at hbreaks
      exact not_or.1 fun hc' => hbreaks ⟨c, hc, hc'⟩
    · cases h
  exact ⟨fun line hline => hall line (List.mem_append_left _ hline),
    fun text htext => hall text (List.mem_append_right _ (Option.mem_toList.2 htext))⟩

namespace Animation

variable {a : Animation}

/-- The commands and the conditions of all keys stay on a line each. -/
structure FitsOnLines (a : Animation) : Prop where
  animators : ∀ animator ∈ a.animators, ∀ k ∈ animator.commands, FitOnLines k.commands k.condition
  variantKeys : ∀ k ∈ a.variantKeys, FitOnLines [] k.condition
  commandKeys : ∀ k ∈ a.commandKeys, FitOnLines k.commands k.condition

/-- This goes for the keys of every locator. -/
theorem fitOnLines_of_checkAnimators {seen : List Uuid} {animators : List Animator}
    (h : a.checkAnimators seen animators = .ok ()) :
    ∀ animator ∈ animators, ∀ k ∈ animator.commands, FitOnLines k.commands k.condition := by
  induction animators generalizing seen with
  | nil => exact List.forall_mem_nil _
  | cons animator rest ih =>
    rw [checkAnimators] at h
    dsimp only at h
    split at h
    · cases h
    · obtain ⟨_, hown, hrest⟩ := exists_of_bind_ok h
      refine List.forall_mem_cons.2 ⟨fun k hk => ?_, ih hrest⟩
      obtain ⟨_, -, hown⟩ := exists_of_bind_ok hown
      obtain ⟨_, -, hown⟩ := exists_of_bind_ok hown
      obtain ⟨_, -, hown⟩ := exists_of_bind_ok hown
      obtain ⟨_, -, hlines⟩ := exists_of_bind_ok hown
      exact fitOnLines_of_checkLines (forall_of_forM_ok hlines k hk)

/-- An animation whose keys hold a text of several lines is refused. -/
theorem fitsOnLines_of_check (h : a.check = .ok ()) : a.FitsOnLines := by
  obtain ⟨_, -, h⟩ := exists_of_bind_ok h
  obtain ⟨_, -, h⟩ := exists_of_bind_ok h
  obtain ⟨_, hanimators, h⟩ := exists_of_bind_ok h
  obtain ⟨_, -, h⟩ := exists_of_bind_ok h
  obtain ⟨_, -, h⟩ := exists_of_bind_ok h
  obtain ⟨_, hvariants, hcommands⟩ := exists_of_bind_ok h
  exact ⟨fitOnLines_of_checkAnimators hanimators,
    fun k hk => fitOnLines_of_checkLines (forall_of_forM_ok hvariants k hk),
    fun k hk => fitOnLines_of_checkLines (forall_of_forM_ok hcommands k hk)⟩

end Animation

/-! ### Tracks -/

variable {rig : Rig} {a : Animation} {config : Config} {tick count : Nat}
  {remarks : List Diagnostic}

/-- The keys of a node, and the repetition that is going on, stay on lines. -/
structure Track.FitsOnLines (track : Track) : Prop where
  commands : ∀ k ∈ track.channels.commands, FitOnLines k.commands k.condition
  repetition : ∀ r ∈ track.repetition, FitOnLines r.effect.commands r.effect.condition

/-- What a node runs at a tick, and what it repeats from then on, comes from its keys. -/
theorem locatorEffect_fits {node : Uuid} {keys : List LocatorKey} {repetition : Option Repetition}
    (hkeys : ∀ k ∈ keys, FitOnLines k.commands k.condition)
    (hrepetition : ∀ r ∈ repetition, FitOnLines r.effect.commands r.effect.condition) :
    (∀ e ∈ (locatorEffect a node keys repetition tick).1, FitOnLines e.commands e.condition) ∧
      ∀ r ∈ (locatorEffect a node keys repetition tick).2.1,
        FitOnLines r.effect.commands r.effect.condition := by
  unfold locatorEffect
  split
  -- a key of this tick is passed on, and remembered if it repeats
  · rename_i key hkey
    have hfit := hkeys key (List.mem_of_find?_eq_some hkey)
    dsimp only
    split
    · exact ⟨nofun, nofun⟩
    · refine ⟨fun e he => Option.some.inj he ▸ hfit, fun r hr => ?_⟩
      dsimp only at hr
      split at hr
      · exact Option.some.inj hr ▸ hfit
      · nomatch hr
  -- without a key, only what is being repeated can be due
  · split
    · exact ⟨nofun, nofun⟩
    · rename_i r
      have hfit := hrepetition r rfl
      refine ⟨fun e he => ?_, fun r' hr' => Option.some.inj hr' ▸ hfit⟩
      dsimp only at he
      split at he
      · exact Option.some.inj he ▸ hfit
      · nomatch he

/-- Sampling a node keeps what its keys and its repetition say on lines, and its entry says
nothing else. -/
theorem sampleNode_fits {precision : Float} {track track' : Track} {marker : Marker} {world : Mat4}
    {entry : Option NodeEntry} (htrack : track.FitsOnLines)
    (h : sampleNode a precision tick track marker world = .ok (track', entry, remarks)) :
    track'.FitsOnLines ∧
      ∀ n ∈ entry, ∀ e ∈ n.effect, FitOnLines e.commands e.condition := by
  unfold sampleNode at h
  dsimp only at h
  split at h
  · split at h
    · have hfound := @locatorEffect_fits a tick track.slot.node.uuid _ _ htrack.commands
        htrack.repetition
      generalize locatorEffect a track.slot.node.uuid track.channels.commands track.repetition tick
        = found at h hfound
      obtain ⟨effect, repetition, notes⟩ := found
      dsimp only at h
      -- the effect is kept whether or not the pose is written down
      split at h
      · cases h
        exact ⟨⟨htrack.commands, hfound.2⟩, fun n hn => Option.some.inj hn ▸ hfound.1⟩
      · cases h
        exact ⟨⟨htrack.commands, hfound.2⟩, nofun⟩
    · split at h
      · cases h
        exact ⟨⟨htrack.commands, htrack.repetition⟩, fun n hn => Option.some.inj hn ▸ nofun⟩
      · cases h
        exact ⟨⟨htrack.commands, htrack.repetition⟩, nofun⟩
  · cases h

/-- All nodes of a tick: tracks and entries alike. -/
theorem sampleNodes_fits {precision : Float} {items : List (Track × Marker × Mat4)}
    {tracks : List Track} {entries : List (Uuid × NodeEntry)}
    (hitems : ∀ item ∈ items, item.1.FitsOnLines)
    (h : sampleNodes a precision tick items = .ok (tracks, entries, remarks)) :
    (∀ track ∈ tracks, track.FitsOnLines) ∧
      ∀ n ∈ entries, ∀ e ∈ n.2.effect, FitOnLines e.commands e.condition := by
  induction items generalizing tracks entries remarks with
  | nil =>
    cases h
    exact ⟨List.forall_mem_nil _, List.forall_mem_nil _⟩
  -- the nodes are sampled one after the other
  | cons item items ih =>
    obtain ⟨hitem, hrest⟩ := List.forall_mem_cons.1 hitems
    obtain ⟨track, marker, world⟩ := item
    rw [sampleNodes] at h
    obtain ⟨⟨track', entry, here⟩, hnode, h⟩ := exists_of_bind_ok h
    obtain ⟨⟨tracks', entries', later⟩, hnodes, h⟩ := exists_of_bind_ok h
    obtain ⟨htrack, hentry⟩ := sampleNode_fits hitem hnode
    obtain ⟨htracks, hentries⟩ := ih hrest hnodes
    cases h
    refine ⟨List.forall_mem_cons.2 ⟨htrack, htracks⟩, List.forall_mem_append.2 ⟨?_, hentries⟩⟩
    intro n hn
    obtain ⟨e, he, rfl⟩ := List.mem_map.1 hn
    exact hentry e (Option.mem_toList.1 he)

/-! ### Frames -/

/-- Commands of the root that no condition stands in front of say something. -/
def Animation.SaysSomething (a : Animation) : Prop :=
  ∀ k ∈ a.commandKeys, k.condition = none → ∀ line ∈ k.commands, Marionette.SaysSomething line

/-- Variants are named by their identifiers, so only their condition is text of the author. -/
theorem variantEffect_fits (ha : a.FitsOnLines) :
    ∀ e ∈ (variantEffect rig a tick).1, FitOnLines [] e.condition := by
  unfold variantEffect
  split
  · exact nofun
  · rename_i key hkey
    dsimp only
    split
    · exact nofun
    · exact fun e he =>
        Option.some.inj he ▸ ha.variantKeys key (List.mem_of_find?_eq_some hkey)

/-- Commands of the root come from keys without a node; those without a condition say something as
the animation does. -/
theorem commandEffect_fits (ha : a.FitsOnLines) (hspoken : a.SaysSomething) :
    ∀ e ∈ commandEffect a tick, FitOnLines e.commands e.condition ∧
      (e.condition = none → ∀ line ∈ e.commands, SaysSomething line) := by
  unfold commandEffect
  split
  · exact nofun
  · rename_i key hkey
    have hmem := List.mem_of_find?_eq_some hkey
    split
    · exact nofun
    · exact fun e he => Option.some.inj he ▸ ⟨ha.commandKeys key hmem, hspoken key hmem⟩

/-- The frame of a tick puts together what its nodes, its variants and its commands give. -/
theorem sampleTick_fits {tracks tracks' : List Track} {frame : Frame} (ha : a.FitsOnLines)
    (hspoken : a.SaysSomething) (htracks : ∀ track ∈ tracks, track.FitsOnLines)
    (h : sampleTick rig a config tick tracks = .ok (tracks', frame, remarks)) :
    (∀ track ∈ tracks', track.FitsOnLines) ∧ frame.IsOneLine := by
  obtain ⟨⟨later, nodes, w1⟩, hnodes, h⟩ := exists_of_bind_ok h
  cases h
  obtain ⟨hlater, hentries⟩ :=
    sampleNodes_fits (fun item hitem => htracks item.1 (List.of_mem_zip hitem).1) hnodes
  exact ⟨hlater, variantEffect_fits ha, commandEffect_fits ha hspoken, hentries⟩

/-- However many ticks are sampled, all frames that are recorded stay on lines. -/
theorem sampleFrom_fits {r r' : Recording} (ha : a.FitsOnLines) (hspoken : a.SaysSomething)
    (htracks : ∀ track ∈ r.tracks, track.FitsOnLines) (hframes : ∀ f ∈ r.frames, f.IsOneLine)
    (h : sampleFrom rig a config count tick r = .ok r') : ∀ f ∈ r'.frames, f.IsOneLine := by
  induction count generalizing tick r with
  | zero =>
    cases h
    exact hframes
  | succ count ih =>
    rw [sampleFrom] at h
    obtain ⟨⟨tracks, frame, here⟩, hfirst, h⟩ := exists_of_bind_ok h
    obtain ⟨hnext, hframe⟩ := sampleTick_fits ha hspoken htracks hfirst
    refine ih hnext ?_ h
    dsimp only
    split
    · exact hframes
    · exact fun f hf => (Array.mem_push.1 hf).elim (hframes f) fun heq => heq ▸ hframe

/-- The keys that a node gets are some of those of its animator. -/
theorem assignChannels_fits {channels channels' : Array Channels} {animators : List Animator}
    (hchannels : ∀ c ∈ channels, ∀ k ∈ c.commands, FitOnLines k.commands k.condition)
    (hanimators : ∀ animator ∈ animators, ∀ k ∈ animator.commands,
      FitOnLines k.commands k.condition)
    (h : assignChannels rig a channels animators = .ok (channels', remarks)) :
    ∀ c ∈ channels', ∀ k ∈ c.commands, FitOnLines k.commands k.condition := by
  induction animators generalizing channels remarks with
  | nil =>
    cases h
    exact hchannels
  | cons animator animators ih =>
    obtain ⟨hanimator, hrest⟩ := List.forall_mem_cons.1 hanimators
    obtain ⟨place, later, -, hassigned, -⟩ := assignChannels_cons_ok_iff.1 h
    refine ih (fun c hc => ?_) hrest hassigned
    rcases Array.mem_or_eq_of_mem_setIfInBounds hc with hc | rfl
    · exact hchannels c hc
    · intro k hk
      dsimp only [trimAnimator, trimKeys] at hk
      split at hk
      · exact hanimator k ((List.takeWhile_prefix _).sublist.mem hk)
      · exact absurd hk List.not_mem_nil

/-- Dropping nodes from a frame breaks no line. -/
theorem Frame.IsOneLine.restrict {f : Frame} (h : f.IsOneLine) (uuids : List Uuid) :
    (f.restrict uuids).IsOneLine :=
  ⟨h.variant, h.commands, fun n hn => h.nodes n (List.mem_filter.1 hn).1⟩

/-- The frames of an animation that is sampled stay on lines. -/
theorem Clip.isOneLine_frames_of_sample {names : ClipNames} {clip : Clip}
    (hspoken : a.SaysSomething) (h : sample rig a config names = .ok (clip, remarks)) :
    ∀ f ∈ clip.frames, f.IsOneLine := by
  have ha := Animation.fitsOnLines_of_check (check_of_sample h)
  obtain ⟨channels, w1, rest, r, hchannels, -, hsampled, -, hframes⟩ := sample_eq h
  have hnone : ∀ c ∈ Array.replicate rig.size ({} : Channels), ∀ k ∈ c.commands,
      FitOnLines k.commands k.condition := fun c hc => (Array.mem_replicate.1 hc).2 ▸ nofun
  have hkeys := assignChannels_fits hnone ha.animators hchannels
  have htracks : ∀ track ∈ startTracks rig channels rest, track.FitsOnLines := by
    intro track htrack
    obtain ⟨⟨slot, own, pose⟩, hitem, rfl⟩ := List.mem_map.1 htrack
    refine ⟨hkeys own ?_, nofun⟩
    exact Array.mem_toList_iff.1 (List.of_mem_zip (List.of_mem_zip hitem).2).1
  have hrecorded := sampleFrom_fits ha hspoken htracks (by simp) hsampled
  rw [hframes]
  intro f hf
  obtain ⟨g, hg, rfl⟩ := List.mem_map.1 (List.mem_filter.1 hf).1
  exact (hrecorded g (Array.mem_toList_iff.1 hg)).restrict _

end Marionette
