import Marionette.Proofs.Sampling.Keys
import Marionette.Proofs.Sampling.Lossless

/-!
# Commands of locators

A locator runs the commands of a key at its tick, and if the key asks for it again and again until
the next key.  Tick by tick this is a repetition that is carried along; looked at from any tick it
is told by the latest key.

- `LocatorKey.effect?`, `LocatorKey.repetition?`: what a key runs, and what goes on after it.
- `locatorEffect_of_key`, `locatorEffect_of_none`: one tick, with a key and without one.
- `Track.Run.repetition_of_key`: what goes on is what the latest key has begun.
- `Animation.commandKeyAt?`: the key of a locator at a tick; `effectAt?_of_key`: it is run there.
- `sample_repeats`: the commands of locators in a clip that is sampled.
-/

namespace Marionette

/-! ### One tick -/

/-- What a key runs; a key without commands runs nothing. -/
def LocatorKey.effect? (key : LocatorKey) : Option LocatorEffect :=
  if key.commands.isEmpty then none
  else some ⟨key.commands, key.condition, key.repeats, max key.repeatFrequency 1⟩

/-- The repetition that a key begins at its tick. -/
def LocatorKey.repetition? (key : LocatorKey) (tick : Nat) : Option Repetition :=
  if key.repeats then key.effect?.map fun effect => ⟨effect, tick⟩ else none

/-- What is run for a repetition at a tick. -/
def Repetition.effectAt? (r : Repetition) (tick : Nat) : Option LocatorEffect :=
  if (tick - r.since) % r.effect.repeatFrequency = 0 then some r.effect else none

/-- A repetition goes on in the steps of its key. -/
theorem LocatorKey.effectAt?_repetition? (key : LocatorKey) (since tick : Nat) :
    (key.repetition? since).bind (·.effectAt? tick) =
      if key.repeats = true ∧ (tick - since) % max key.repeatFrequency 1 = 0 then key.effect?
      else none := by
  unfold repetition? effect?
  by_cases hrepeats : key.repeats = true
  · by_cases hempty : key.commands.isEmpty = true
    · simp [hrepeats, hempty]
    · simp [hrepeats, hempty, Repetition.effectAt?]
  · simp [hrepeats]

section Tick

variable {a : Animation} {node : Uuid} {keys : List LocatorKey} {repetition : Option Repetition}
  {tick : Nat}

/-- The first key of a tick. -/
def keyAt? (keys : List LocatorKey) (tick : Nat) : Option LocatorKey :=
  keys.find? fun k => secondsToTick k.time == tick

/-- A key runs its commands, and what went on before ends. -/
theorem locatorEffect_of_key {key : LocatorKey} (h : keyAt? keys tick = some key) :
    (locatorEffect a node keys repetition tick).1 = key.effect? ∧
      (locatorEffect a node keys repetition tick).2.1 = key.repetition? tick := by
  unfold keyAt? at h
  unfold locatorEffect LocatorKey.repetition? LocatorKey.effect?
  rw [h]
  dsimp only
  by_cases hempty : key.commands.isEmpty = true
  · simp [hempty]
  · simp [hempty]

/-- Without a key what goes on goes on. -/
theorem locatorEffect_of_none (h : keyAt? keys tick = none) :
    (locatorEffect a node keys repetition tick).1 = repetition.bind (·.effectAt? tick) ∧
      (locatorEffect a node keys repetition tick).2.1 = repetition := by
  unfold keyAt? at h
  unfold locatorEffect
  rw [h]
  cases repetition with
  | none => exact ⟨rfl, rfl⟩
  | some r => exact ⟨rfl, rfl⟩

/-- A locator is read with its keys: its entry has what is run, and its track what goes on. -/
theorem sampleNode_locator {precision : Float} {track track' : Track} {marker : Marker}
    {world : Mat4} {entry : Option NodeEntry} {remarks : List Diagnostic} {tracked : Bool}
    (hkind : track.slot.node.kind = .locator tracked)
    (h : sampleNode a precision tick track marker world = .ok (track', entry, remarks)) :
    entry.bind (·.effect) =
        (locatorEffect a track.slot.node.uuid track.channels.commands track.repetition tick).1 ∧
      track'.repetition =
        (locatorEffect a track.slot.node.uuid track.channels.commands track.repetition
          tick).2.1 := by
  unfold sampleNode at h
  dsimp only at h
  rw [hkind] at h
  split at h
  next =>
    dsimp only at h
    generalize locatorEffect a track.slot.node.uuid track.channels.commands track.repetition tick
      = found at h ⊢
    obtain ⟨effect, repetition, notes⟩ := found
    dsimp only at h
    split at h
    next => cases h; exact ⟨rfl, rfl⟩
    next hdropped =>
      cases h
      -- what is not kept runs nothing
      cases effect with
      | none => exact ⟨rfl, rfl⟩
      | some effect => exact absurd rfl hdropped
  next => cases h

end Tick

/-! ### All ticks -/

namespace Track.Run

variable {a : Animation} {precision : Float} {count : Nat} {matrix : Nat → Mat4}
  {track : Nat → Track} {entry : Nat → Option NodeEntry} {tracked : Bool} {keys : List LocatorKey}

/-- What a locator does at a tick. -/
theorem locator_step (h : Track.Run a precision count matrix track entry)
    (hkind : (track 0).slot.node.kind = .locator tracked)
    (hkeys : (track 0).channels.commands = keys) {tick : Nat} (htick : tick < count) :
    (entry tick).bind (·.effect) =
        (locatorEffect a (track 0).slot.node.uuid keys (track tick).repetition tick).1 ∧
      (track (tick + 1)).repetition =
        (locatorEffect a (track 0).slot.node.uuid keys (track tick).repetition tick).2.1 := by
  obtain ⟨marker, world, remarks, -, hstep⟩ := h.step tick htick
  have hslot := h.slot_eq tick (Nat.le_of_lt htick)
  have hread := sampleNode_locator (hslot.symm ▸ hkind) hstep
  rwa [hslot, h.channels_eq tick (Nat.le_of_lt htick), hkeys] at hread

/-- What goes on before a tick is what the latest key has begun. -/
theorem repetition_of_key (h : Track.Run a precision count matrix track entry)
    (hkind : (track 0).slot.node.kind = .locator tracked)
    (hkeys : (track 0).channels.commands = keys) {since : Nat} {key : LocatorKey}
    (hkey : keyAt? keys since = some key) :
    ∀ tick ≤ count, since < tick → (∀ t, since < t → t < tick → keyAt? keys t = none) →
      (track tick).repetition = key.repetition? since := by
  intro tick htick hlt hnone
  induction tick with
  | zero => omega
  | succ tick ih =>
    obtain ⟨-, hnext⟩ := h.locator_step hkind hkeys htick
    rw [hnext]
    rcases Nat.lt_or_eq_of_le (Nat.le_of_lt_succ hlt) with hbefore | rfl
    · rw [(locatorEffect_of_none (hnone tick hbefore (Nat.lt_succ_self tick))).2]
      exact ih (Nat.le_of_succ_le htick) hbefore fun t hs ht => hnone t hs (Nat.lt_succ_of_lt ht)
    · exact (locatorEffect_of_key hkey).2

/-- Before the first key nothing goes on. -/
theorem repetition_of_none (h : Track.Run a precision count matrix track entry)
    (hkind : (track 0).slot.node.kind = .locator tracked)
    (hkeys : (track 0).channels.commands = keys) :
    ∀ tick ≤ count, (∀ t < tick, keyAt? keys t = none) → (track tick).repetition = none := by
  intro tick htick hnone
  induction tick with
  | zero => exact h.repetition
  | succ tick ih =>
    obtain ⟨-, hnext⟩ := h.locator_step hkind hkeys htick
    rw [hnext, (locatorEffect_of_none (hnone tick (Nat.lt_succ_self tick))).2]
    exact ih (Nat.le_of_succ_le htick) fun t ht => hnone t (Nat.lt_succ_of_lt ht)

/-- A node that is not moved has no entry with an effect. -/
theorem effect_eq_none (h : Track.Run a precision count matrix track entry)
    (hstill : (track count).modified = false) {tick : Nat} (htick : tick < count) :
    (entry tick).bind (·.effect) = none := by
  have hnext := h.modified_mono _ le_rfl htick hstill
  cases he : entry tick with
  | none => rfl
  | some e =>
    rw [((h.reads tick htick).kept e he).2.2.2] at hnext
    obtain ⟨-, hnext⟩ := Bool.or_eq_false_iff.1 hnext
    obtain ⟨hnothing, -⟩ := Bool.or_eq_false_iff.1 hnext
    exact Option.isNone_iff_eq_none.1 (Option.isSome_eq_false_iff.1 hnothing)

end Track.Run

/-! ### Clips that are sampled -/

/-- The key of a node at a tick: the first one up to the end of the animation. -/
def Animation.commandKeyAt? (a : Animation) (node : Uuid) (tick : Nat) : Option LocatorKey :=
  (a.commandsOf node).find? fun k => decide (k.time ≤ a.length) && secondsToTick k.time == tick

theorem Animation.commandKeyAt?_eq (a : Animation) (node : Uuid) (tick : Nat) :
    a.commandKeyAt? node tick =
      keyAt? ((a.commandsOf node).filter fun k => k.time ≤ a.length) tick := by
  unfold commandKeyAt? keyAt?
  rw [List.find?_filter]
  congr 1
  funext k
  rw [Bool.decide_and, Bool.decide_eq_true, Bool.decide_eq_true]

section Sample

variable {rig : Rig} {a : Animation} {config : Config} {names : ClipNames} {clip : Clip}
  {remarks : List Diagnostic}

/-- What happens to a locator while a clip is sampled, and which effects the clip has of it. -/
theorem exists_locatorRun_of_sample (hrig : rig.IsBuilt)
    (h : sample rig a config names = .ok (clip, remarks)) {slot : Slot} (hslot : slot ∈ rig.slots)
    {tracked : Bool} (hkind : slot.node.kind = .locator tracked) :
    ∃ matrix track entry,
      Track.Run a config.precisionScale clip.duration matrix track entry ∧
      (track 0).slot.node.kind = .locator tracked ∧
      (track 0).channels.commands =
        ((a.commandsOf slot.node.uuid).filter fun k => k.time ≤ a.length) ∧
      ∀ tick < clip.duration,
        (clip.entryAt? slot.node.uuid tick).bind (·.effect) = (entry tick).bind (·.effect) := by
  obtain ⟨place, hplace⟩ := Array.getElem?_of_mem hslot
  obtain ⟨channels, w1, matrix, track, entry, hchannels, hown, hrun, rfl, -, -,
      hmodified, hentry⟩ :=
    exists_keyedRun_of_sample hrig h hplace
  have hcommands := commands_of_assignChannels hrig (check_of_sample h) hchannels hplace hkind hown
  refine ⟨matrix, track, entry, hrun, hkind, hcommands, fun tick htick => ?_⟩
  by_cases hmem : (track 0).slot.node.uuid ∈ clip.modifiedNodes
  · rw [hentry hmem tick htick]
  · have hstill : (track clip.duration).modified = false :=
      Bool.of_not_eq_true (mt hmodified.2 hmem)
    rw [entryAt?_of_sample hrig h _ hmem, hrun.effect_eq_none hstill htick]
    rfl

/-- At the tick of a key a locator runs the commands of the key. -/
theorem effectAt?_of_key (hrig : rig.IsBuilt) (h : sample rig a config names = .ok (clip, remarks))
    {slot : Slot} (hslot : slot ∈ rig.slots) {tracked : Bool}
    (hkind : slot.node.kind = .locator tracked) {tick : Nat} (htick : tick < clip.duration)
    {key : LocatorKey} (hkey : a.commandKeyAt? slot.node.uuid tick = some key) :
    (clip.entryAt? slot.node.uuid tick).bind (·.effect) = key.effect? := by
  obtain ⟨matrix, track, entry, hrun, hlocator, hkeys, heffect⟩ :=
    exists_locatorRun_of_sample hrig h hslot hkind
  rw [Animation.commandKeyAt?_eq] at hkey
  rw [heffect tick htick, (hrun.locator_step hlocator hkeys htick).1]
  exact (locatorEffect_of_key hkey).1

/-- A locator follows its latest key: whatever rig is built and whatever clip is sampled, a key runs
its commands at its tick and none if it has none.  At any later tick before the next key they are
run again if the key repeats and its frequency divides the ticks since then.  Before the first key
nothing is run. -/
theorem sample_repeats (name : String) (nodes : List RigNode) (variants : List Variant)
    (a : Animation) (config : Config) (names : ClipNames) :
    Ensures (Rig.build name nodes variants) fun rig =>
      Ensures (sample rig a config names) fun (clip, _) =>
        ∀ slot ∈ rig.slots, ∀ tracked, slot.node.kind = .locator tracked →
          ∀ tick < clip.duration,
            (∀ key, a.commandKeyAt? slot.node.uuid tick = some key →
              (clip.entryAt? slot.node.uuid tick).bind (·.effect) = key.effect?) ∧
            (∀ since key, since < tick → a.commandKeyAt? slot.node.uuid since = some key →
              (∀ t, since < t → t ≤ tick → a.commandKeyAt? slot.node.uuid t = none) →
              (clip.entryAt? slot.node.uuid tick).bind (·.effect) =
                if key.repeats = true ∧ (tick - since) % max key.repeatFrequency 1 = 0 then
                  key.effect?
                else none) ∧
            ((∀ t ≤ tick, a.commandKeyAt? slot.node.uuid t = none) →
              (clip.entryAt? slot.node.uuid tick).bind (·.effect) = none) := by
  refine Ensures.intro fun rig hbuild => Ensures.intro ?_
  rintro ⟨clip, remarks⟩ hclip slot hslot tracked hkind tick htick
  have hrig : rig.IsBuilt := ⟨name, nodes, variants, hbuild⟩
  refine ⟨fun key => effectAt?_of_key hrig hclip hslot hkind htick, ?_⟩
  obtain ⟨matrix, track, entry, hrun, hlocator, hkeys, heffect⟩ :=
    exists_locatorRun_of_sample hrig hclip hslot hkind
  rw [heffect tick htick, (hrun.locator_step hlocator hkeys htick).1]
  simp only [Animation.commandKeyAt?_eq]
  constructor
  -- since the last key its repetitions count
  · intro since key hlt hkey hnone
    rw [(locatorEffect_of_none (hnone tick hlt le_rfl)).1,
      hrun.repetition_of_key hlocator hkeys hkey tick (Nat.le_of_lt htick) hlt
        fun t hs ht => hnone t hs (Nat.le_of_lt ht),
      key.effectAt?_repetition? since tick]
  -- before the first key nothing is repeated
  · intro hnone
    rw [(locatorEffect_of_none (hnone tick le_rfl)).1,
      hrun.repetition_of_none hlocator hkeys tick (Nat.le_of_lt htick)
        fun t ht => hnone t (Nat.le_of_lt ht)]
    rfl

end Sample

end Marionette
