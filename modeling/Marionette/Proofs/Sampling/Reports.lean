import Marionette.Proofs.Sampling.Locators

/-!
# Keys that are left out are reported

- `FirstOfTick`: a key that shares its tick with no key before it.
- `droppedKeys`, `lateKey`, `missingVariant`: what is told about keys that are left out.
- `remarks_of_sampleFrom`, `remarks_of_sample`: what is told on the way is handed back.
- `Clip.Records.effectsAt`, `effectsAt_of_sample`: variants and commands of a clip at a tick.
- `sample_reports`: a key of a locator, of variants or of commands is attached to the frame of its
  tick or reported, unless it is one of a locator between the last tick and the end.
-/

namespace Marionette

variable {rig : Rig} {a : Animation} {config : Config} {names : ClipNames} {clip : Clip}
  {remarks : List Diagnostic} {tick count : Nat}

/-! ### Reports -/

/-- The warning about keys of a channel after the end of an animation. -/
def droppedKeys (a : Animation) (node : Uuid) (channel : String) (dropped : Nat) : Diagnostic :=
  let shown := Decimal.doubleText a.length
  .warning (some a.name) (some node)
    s!"{dropped} {channel} keyframe(s) after the end of the animation ({shown}s) are ignored"

/-- The warning about a key of the whole rig that lies past the end. -/
def lateKey (a : Animation) (what : String) (time : Float) : Diagnostic :=
  let shown := Decimal.doubleText time
  .warning (some a.name) none s!"{what} keyframe at {shown}s is past the end and is ignored"

/-- The warning about a variant that the rig does not have. -/
def missingVariant (a : Animation) (time : Float) (variant : Uuid) : Diagnostic :=
  let shown := Decimal.doubleText time
  let missing := variant.text
  .warning (some a.name) none
    s!"variant keyframe at {shown}s references missing variant {missing}; dropped"

/-- Keys after the end are reported with their number. -/
theorem exists_droppedKeys {keys : List LocatorKey} {key : LocatorKey} (node : Uuid)
    (channel : String) (hmem : key ∈ keys) (hlate : ¬key.time ≤ a.length) :
    ∃ dropped, 0 < dropped ∧ droppedKeys a node channel dropped ∈
      (trimKeys keys (·.time) a.length channel a.name node).2 := by
  have hdropped : keys.length - (keys.takeWhile fun k => k.time ≤ a.length).length ≠ 0 := by
    intro hzero
    have hprefix := List.takeWhile_prefix (l := keys) fun k : LocatorKey => k.time ≤ a.length
    have hall := hprefix.eq_of_length (Nat.le_antisymm hprefix.length_le (by omega))
    rw [← hall] at hmem
    have hkept := List.mem_takeWhile_imp hmem
    exact hlate (of_decide_eq_true hkept)
  refine ⟨_, Nat.pos_of_ne_zero hdropped, ?_⟩
  unfold trimKeys
  dsimp only
  rw [if_neg hdropped]
  exact List.mem_singleton.2 rfl

theorem lateKey_mem {what : String} {times : List Float} {time : Float} (hmem : time ∈ times)
    (hlate : (a.duration : Int) ≤ secondsToTick time) :
    lateKey a what time ∈ lateKeys a what times :=
  List.mem_map.2 ⟨time, List.mem_filter.2 ⟨hmem, decide_eq_true hlate⟩, rfl⟩

/-! ### Remarks that are handed back -/

/-- What a tick has beside poses. -/
theorem sampleTick_effects {tracks tracks' : List Track} {frame : Frame}
    (h : sampleTick rig a config tick tracks = .ok (tracks', frame, remarks)) :
    frame.variant = (variantEffect rig a tick).1 ∧ frame.commands = commandEffect a tick ∧
      ∀ d ∈ (variantEffect rig a tick).2, d ∈ remarks := by
  obtain ⟨⟨tracks'', nodes, w1⟩, -, h⟩ := exists_of_bind_ok h
  cases h
  exact ⟨rfl, rfl, fun d hd => List.mem_append_right _ hd⟩

/-- Remarks are kept, and those about the variants of every tick are among them. -/
theorem remarks_of_sampleFrom {r r' : Recording}
    (h : sampleFrom rig a config count tick r = .ok r') :
    (∀ d ∈ r.remarks, d ∈ r'.remarks) ∧
      ∀ t, tick ≤ t → t < tick + count → ∀ d ∈ (variantEffect rig a t).2, d ∈ r'.remarks := by
  induction count generalizing tick r with
  | zero =>
    cases h
    exact ⟨fun _ hd => hd, fun t hle hlt => absurd hlt (by omega)⟩
  | succ count ih =>
    rw [sampleFrom] at h
    obtain ⟨⟨next, frame, here⟩, hfirst, h⟩ := exists_of_bind_ok h
    obtain ⟨hkept, hlater⟩ := ih h
    obtain ⟨-, -, htold⟩ := sampleTick_effects hfirst
    have hmem (d : Diagnostic) : d ∈ r.remarks ++ here ↔ d ∈ r.remarks ∨ d ∈ here := by
      rw [← Array.mem_toList_iff, Array.toList_appendList, List.mem_append, Array.mem_toList_iff]
    constructor
    · exact fun d hd => hkept d ((hmem d).2 (.inl hd))
    · intro t hle hlt d hd
      rcases Nat.eq_or_lt_of_le hle with rfl | hafter
      · exact hkept d ((hmem d).2 (.inr (htold d hd)))
      · exact hlater t hafter (by omega) d hd

/-- What is told while keys are put beside the nodes, at the ticks and at the end is handed back. -/
theorem remarks_of_sample (h : sample rig a config names = .ok (clip, remarks)) :
    (∃ channels w1, assignChannels rig a (Array.replicate rig.size {}) a.animators =
        .ok (channels, w1) ∧ ∀ d ∈ w1, d ∈ remarks) ∧
      (∀ tick < clip.duration, ∀ d ∈ (variantEffect rig a tick).2, d ∈ remarks) ∧
      (∀ d ∈ lateKeys a "variant" (a.variantKeys.map (·.time)), d ∈ remarks) ∧
      ∀ d ∈ lateKeys a "command" (a.commandKeys.map (·.time)), d ∈ remarks := by
  unfold sample at h
  obtain ⟨-, -, h⟩ := exists_of_bind_ok h
  obtain ⟨⟨channels, w1⟩, hchannels, h⟩ := exists_of_bind_ok h
  obtain ⟨rest, -, h⟩ := exists_of_bind_ok h
  obtain ⟨r, hrun, h⟩ := exists_of_bind_ok h
  obtain ⟨-, htold⟩ := remarks_of_sampleFrom hrun
  cases h
  refine ⟨⟨channels, w1, hchannels, ?_⟩, ?_, ?_, ?_⟩
  · intro d hd
    simp only [List.mem_append]
    exact .inl (.inl (.inl hd))
  · intro tick htick d hd
    have hlt : tick < 0 + a.duration := (Nat.zero_add _).symm ▸ htick
    simp only [List.mem_append]
    exact .inl (.inl (.inr (Array.mem_toList_iff.2 (htold tick (Nat.zero_le _) hlt d hd))))
  · intro d hd
    simp only [List.mem_append]
    exact .inl (.inr hd)
  · intro d hd
    simp only [List.mem_append]
    exact .inr hd

/-! ### Effects of the whole rig -/

section Effects

variable {frameAt : Nat → Frame}

theorem Frame.effects_of_isEmpty {f : Frame} (h : f.isEmpty = true) :
    f.variant = none ∧ f.commands = none := by
  unfold isEmpty at h
  rw [Bool.and_eq_true, Bool.and_eq_true] at h
  exact ⟨Option.isNone_iff_eq_none.1 h.1.2, Option.isNone_iff_eq_none.1 h.2⟩

/-- Variants and commands of a tick are not lost with the nodes that are not moved. -/
theorem Clip.Records.effectsAt (h : clip.Records frameAt) (htick : tick < clip.duration) :
    (clip.frameAt? tick).bind (·.variant) = (frameAt tick).variant ∧
      (clip.frameAt? tick).bind (·.commands) = (frameAt tick).commands := by
  rw [h.frameAt?_eq htick]
  split_ifs with hempty
  · obtain ⟨hvariant, hcommands⟩ := Frame.effects_of_isEmpty hempty
    exact ⟨hvariant.symm, hcommands.symm⟩
  · exact ⟨rfl, rfl⟩

/-- The frame of a tick has the variants and the commands of the tick. -/
theorem effectsAt_of_sample (hrig : rig.IsBuilt)
    (h : sample rig a config names = .ok (clip, remarks)) (htick : tick < clip.duration) :
    (clip.frameAt? tick).bind (·.variant) = (variantEffect rig a tick).1 ∧
      (clip.frameAt? tick).bind (·.commands) = commandEffect a tick := by
  obtain ⟨_, _, _, _, frameAt, -, -, -, -, hrun, hrecords, -⟩ := exists_run_of_sample hrig h
  obtain ⟨here, hstep⟩ := hrun.step tick htick
  obtain ⟨hvariant, hcommands, -⟩ := sampleTick_effects hstep
  obtain ⟨hvariantAt, hcommandsAt⟩ := hrecords.effectsAt htick
  exact ⟨hvariantAt.trans hvariant, hcommandsAt.trans hcommands⟩

end Effects

/-! ### Keys -/

/-- A key that shares its tick with no key before it. -/
def FirstOfTick {α : Type} (timeOf : α → Float) (keys : List α) (key : α) : Prop :=
  ∃ before after, keys = before ++ key :: after ∧
    ∀ k ∈ before, secondsToTick (timeOf k) ≠ secondsToTick (timeOf key)

namespace FirstOfTick

variable {α : Type} {timeOf : α → Float} {keys : List α} {key : α}

theorem mem (h : FirstOfTick timeOf keys key) : key ∈ keys := by
  obtain ⟨before, after, rfl, -⟩ := h
  exact List.mem_append_right _ List.mem_cons_self

/-- Such a key is the one that is found at its tick, among all keys that fulfil a condition. -/
theorem find?_eq (h : FirstOfTick timeOf keys key) (htick : secondsToTick (timeOf key) = tick)
    (test : α → Bool) (htest : test key = true) :
    (keys.find? fun k => test k && secondsToTick (timeOf k) == (tick : Int)) = some key := by
  obtain ⟨before, after, rfl, hbefore⟩ := h
  refine List.find?_eq_some_iff_append.2 ⟨?_, before, after, rfl, fun k hk => ?_⟩
  · rw [htest, htick, Bool.true_and, beq_self_eq_true]
  · have hne : (secondsToTick (timeOf k) == (tick : Int)) = false :=
      beq_false_of_ne (htick ▸ hbefore k hk)
    rw [hne, Bool.and_false]
    rfl

end FirstOfTick

/-- A key of variants is attached as far as the rig has them, and others are reported. -/
theorem variantEffect_of_key (rig : Rig) {key : VariantKey}
    (hfirst : FirstOfTick (·.time) a.variantKeys key) (htick : secondsToTick key.time = tick)
    (hkey : key.variants ≠ []) :
    (variantEffect rig a tick).1 = some ⟨key.variants, key.condition⟩ ∨
      ∃ v ∈ key.variants, rig.variant? v = none ∧
        missingVariant a key.time v ∈ (variantEffect rig a tick).2 := by
  have hfound := hfirst.find?_eq htick (fun _ => true) rfl
  simp only [Bool.true_and] at hfound
  unfold variantEffect
  rw [hfound]
  dsimp only
  rw [List.partition_eq_filter_filter]
  by_cases hall : ∀ v ∈ key.variants, (rig.variant? v).isSome = true
  · left
    rw [List.filter_eq_self.2 hall, List.isEmpty_eq_false_iff.2 hkey, if_neg Bool.false_ne_true]
  · right
    obtain ⟨v, hv, hmissing⟩ : ∃ v ∈ key.variants, rig.variant? v = none := by
      simpa using hall
    refine ⟨v, hv, hmissing, List.mem_map.2 ⟨v, List.mem_filter.2 ⟨hv, ?_⟩, rfl⟩⟩
    simp [hmissing]

/-- A key of commands is attached. -/
theorem commandEffect_of_key {key : CommandKey} (hfirst : FirstOfTick (·.time) a.commandKeys key)
    (htick : secondsToTick key.time = tick) (hkey : key.commands ≠ []) :
    commandEffect a tick = some ⟨key.commands, key.condition⟩ := by
  have hfound := hfirst.find?_eq htick (fun _ => true) rfl
  simp only [Bool.true_and] at hfound
  unfold commandEffect
  rw [hfound]
  dsimp only
  rw [List.isEmpty_eq_false_iff.2 hkey, if_neg Bool.false_ne_true]

/-- A key of a locator is attached, or reported with those after the end. -/
theorem locatorKey_attached_or_dropped (hrig : rig.IsBuilt)
    (h : sample rig a config names = .ok (clip, remarks)) {slot : Slot} (hslot : slot ∈ rig.slots)
    {tracked : Bool} (hkind : slot.node.kind = .locator tracked) {animator : Animator}
    (hmem : animator ∈ a.animators) (hnode : animator.node = slot.node.uuid) {key : LocatorKey}
    (hfirst : FirstOfTick (·.time) animator.commands key)
    (hlast : key.time ≤ a.length → secondsToTick key.time < clip.duration) :
    (∃ tick : Nat, secondsToTick key.time = tick ∧
        (clip.entryAt? slot.node.uuid tick).bind (·.effect) = key.effect?) ∨
      ∃ dropped, 0 < dropped ∧
        droppedKeys a slot.node.uuid "locator command" dropped ∈ remarks := by
  have ha := hasTimelines_of_check (check_of_sample h)
  -- a key within the length lies at a tick of the animation and is attached there
  by_cases hin : key.time ≤ a.length
  · left
    have hnonneg := (ha.commands animator hmem).secondsToTick_nonneg
      (List.mem_map_of_mem hfirst.mem)
    obtain ⟨tick, htick⟩ := Int.eq_ofNat_of_zero_le hnonneg
    have hlt := hlast hin
    refine ⟨tick, htick, effectAt?_of_key hrig h hslot hkind (by omega) ?_⟩
    rw [Animation.commandKeyAt?, ← hnode, ha.commandsOf_eq hmem]
    exact hfirst.find?_eq htick (fun k => decide (k.time ≤ a.length)) (decide_eq_true hin)
  · right
    -- a later one is trimmed when the channels are assigned, and the report is made then
    obtain ⟨place, hplace⟩ := Array.getElem?_of_mem hslot
    obtain ⟨⟨channels, w1, hchannels, htold⟩, -⟩ := remarks_of_sample h
    obtain ⟨hkeys, -⟩ := assignChannels_at hrig hchannels ha.nodup Array.size_replicate hplace
    obtain ⟨-, htrimmed⟩ := hkeys animator hmem hnode
    obtain ⟨dropped, hpos, hdropped⟩ :=
      exists_droppedKeys slot.node.uuid "locator command" hfirst.mem hin
    refine ⟨dropped, hpos, htold _ (htrimmed _ ?_)⟩
    unfold trimAnimator
    simp only [List.mem_append]
    exact .inl (.inl (.inl (.inl hdropped)))

/-- A time of a key is the one of a tick, or it is reported as late. -/
theorem exists_tick_or_lateKey (h : sample rig a config names = .ok (clip, remarks))
    {times : List Float} (htimes : IsTimeline times) {time : Float} (hmem : time ∈ times)
    (channel : String) :
    (∃ tick : Nat, secondsToTick time = tick ∧ tick < clip.duration) ∨
      lateKey a channel time ∈ lateKeys a channel times := by
  have hduration := (takesOver_of_sample h).duration
  rcases lt_or_ge (secondsToTick time) a.duration with hlt | hge
  · obtain ⟨tick, htick⟩ := Int.eq_ofNat_of_zero_le (htimes.secondsToTick_nonneg hmem)
    exact .inl ⟨tick, htick, by omega⟩
  · exact .inr (lateKey_mem hmem hge)

/-- A key of variants is attached, or reported as late or with the variants that are missing. -/
theorem variantKey_attached_or_reported (hrig : rig.IsBuilt)
    (h : sample rig a config names = .ok (clip, remarks)) {key : VariantKey}
    (hfirst : FirstOfTick (·.time) a.variantKeys key) (hkey : key.variants ≠ []) :
    (∃ tick : Nat, secondsToTick key.time = tick ∧
        (clip.frameAt? tick).bind (·.variant) = some ⟨key.variants, key.condition⟩) ∨
      lateKey a "variant" key.time ∈ remarks ∨
      ∃ v ∈ key.variants, rig.variant? v = none ∧ missingVariant a key.time v ∈ remarks := by
  obtain ⟨-, htold, hlate, -⟩ := remarks_of_sample h
  rcases exists_tick_or_lateKey h (hasTimelines_of_check (check_of_sample h)).variantKeys
    (List.mem_map_of_mem hfirst.mem) "variant" with ⟨tick, htick, hin⟩ | hafter
  · rcases variantEffect_of_key rig hfirst htick hkey with hshown | ⟨v, hv, hnone, hmissing⟩
    · exact .inl ⟨tick, htick, (effectsAt_of_sample hrig h hin).1.trans hshown⟩
    · exact .inr (.inr ⟨v, hv, hnone, htold tick hin _ hmissing⟩)
  · exact .inr (.inl (hlate _ hafter))

/-- A key of commands is attached, or reported as late. -/
theorem commandKey_attached_or_late (hrig : rig.IsBuilt)
    (h : sample rig a config names = .ok (clip, remarks)) {key : CommandKey}
    (hfirst : FirstOfTick (·.time) a.commandKeys key) (hkey : key.commands ≠ []) :
    (∃ tick : Nat, secondsToTick key.time = tick ∧
        (clip.frameAt? tick).bind (·.commands) = some ⟨key.commands, key.condition⟩) ∨
      lateKey a "command" key.time ∈ remarks := by
  obtain ⟨-, -, -, hlate⟩ := remarks_of_sample h
  rcases exists_tick_or_lateKey h (hasTimelines_of_check (check_of_sample h)).commandKeys
    (List.mem_map_of_mem hfirst.mem) "command" with ⟨tick, htick, hin⟩ | hafter
  · exact .inl ⟨tick, htick,
      (effectsAt_of_sample hrig h hin).2.trans (commandEffect_of_key hfirst htick hkey)⟩
  · exact .inr (hlate _ hafter)

/-- Keys beside poses are not lost in silence: whatever rig is built and whatever clip is sampled, a
key that runs or shows something and shares its tick with no key before it is attached to the frame
of its tick, or it is reported.  Of locators this is said of keys that lie before the last tick
ends. -/
theorem sample_reports (name : String) (nodes : List RigNode) (variants : List Variant)
    (a : Animation) (config : Config) (names : ClipNames) :
    Ensures (Rig.build name nodes variants) fun rig =>
      Ensures (sample rig a config names) fun (clip, remarks) =>
        (∀ slot ∈ rig.slots, ∀ tracked, slot.node.kind = .locator tracked →
          ∀ animator ∈ a.animators, animator.node = slot.node.uuid →
            ∀ key, FirstOfTick (·.time) animator.commands key → key.commands ≠ [] →
              (key.time ≤ a.length → secondsToTick key.time < clip.duration) →
                (∃ (tick : Nat) (entry : NodeEntry), secondsToTick key.time = tick ∧
                  clip.entryAt? slot.node.uuid tick = some entry ∧
                  entry.effect = some ⟨key.commands, key.condition, key.repeats,
                    max key.repeatFrequency 1⟩) ∨
                ∃ dropped, 0 < dropped ∧
                  droppedKeys a slot.node.uuid "locator command" dropped ∈ remarks) ∧
          (∀ key, FirstOfTick (·.time) a.variantKeys key → key.variants ≠ [] →
            (∃ (tick : Nat) (frame : Frame), secondsToTick key.time = tick ∧
              clip.frameAt? tick = some frame ∧
              frame.variant = some ⟨key.variants, key.condition⟩) ∨
            lateKey a "variant" key.time ∈ remarks ∨
            ∃ v ∈ key.variants, rig.variant? v = none ∧ missingVariant a key.time v ∈ remarks) ∧
          ∀ key, FirstOfTick (·.time) a.commandKeys key → key.commands ≠ [] →
            (∃ (tick : Nat) (frame : Frame), secondsToTick key.time = tick ∧
              clip.frameAt? tick = some frame ∧
              frame.commands = some ⟨key.commands, key.condition⟩) ∨
            lateKey a "command" key.time ∈ remarks := by
  refine Ensures.intro fun rig hbuild => Ensures.intro ?_
  rintro ⟨clip, remarks⟩ hclip
  have hrig : rig.IsBuilt := ⟨name, nodes, variants, hbuild⟩
  refine ⟨?_, ?_, ?_⟩
  · intro slot hslot tracked hkind animator hmem hnode key hfirst hkey hlast
    rcases locatorKey_attached_or_dropped hrig hclip hslot hkind hmem hnode hfirst hlast with
      ⟨tick, htick, heffect⟩ | hdropped
    · rw [LocatorKey.effect?, List.isEmpty_eq_false_iff.2 hkey, if_neg Bool.false_ne_true]
        at heffect
      obtain ⟨entry, hentry, heffect⟩ := Option.bind_eq_some_iff.1 heffect
      exact .inl ⟨tick, entry, htick, hentry, heffect⟩
    · exact .inr hdropped
  · intro key hfirst hkey
    rcases variantKey_attached_or_reported hrig hclip hfirst hkey with
      ⟨tick, htick, hshown⟩ | hreported
    · obtain ⟨frame, hframe, hshown⟩ := Option.bind_eq_some_iff.1 hshown
      exact .inl ⟨tick, frame, htick, hframe, hshown⟩
    · exact .inr hreported
  · intro key hfirst hkey
    rcases commandKey_attached_or_late hrig hclip hfirst hkey with ⟨tick, htick, hrun⟩ | hlate
    · obtain ⟨frame, hframe, hrun⟩ := Option.bind_eq_some_iff.1 hrun
      exact .inl ⟨tick, frame, htick, hframe, hrun⟩
    · exact .inr hlate

/-- A rig of one locator. -/
def post : Rig :=
  ⟨"post", #[⟨⟨⟨1⟩, "post", none, .locator false, {}⟩, "post", none⟩], []⟩

/-- The locator gets commands at the very end. -/
def flare : Animation where
  name := "flare"
  length := 0.05
  animators := [{ node := ⟨1⟩, commands := [⟨0.05, ["say flare"], none, false, 0⟩] }]

/-- Its key is not after the end, but its tick is: it is neither run nor reported. -/
theorem flare_silent :
    Rig.build "post" [⟨⟨1⟩, "post", none, .locator false, {}⟩] [] = .ok post ∧
      ∃ clip remarks, sample post flare {} (.ofName flare.name) = .ok (clip, remarks) ∧
        ∃ slot ∈ post.slots, ∃ animator ∈ flare.animators, ∃ key,
          slot.node.kind = .locator false ∧ animator.node = slot.node.uuid ∧
          FirstOfTick (·.time) animator.commands key ∧ key.commands ≠ [] ∧ key.time ≤ flare.length ∧
          ¬((∃ (tick : Nat) (entry : NodeEntry), secondsToTick key.time = tick ∧
              clip.entryAt? slot.node.uuid tick = some entry ∧ entry.effect.isSome = true) ∨
            ∃ d, d ∈ remarks) := by
  constructor
  · have hname : Rig.allocateNames {} ["post"] = ["post"] := by decide +kernel
    simp [Rig.build, Rig.firstRepeated, Rig.ordered, Rig.preorder, hname, post]
    rfl
  · have hsilent : (sample post flare {} (.ofName flare.name)).toOption.any
        (fun p => p.1.frames.isEmpty && p.2.isEmpty) = true := by decide +kernel
    obtain ⟨⟨clip, remarks⟩, hclip, hempty⟩ := exists_ok_of_any hsilent
    obtain ⟨hframes, hremarks⟩ := Bool.and_eq_true_iff.1 hempty
    have hnone (tick : Nat) : clip.entryAt? ⟨1⟩ tick = none := by
      rw [Clip.entryAt?, Clip.frameAt?, List.isEmpty_iff.1 hframes]
      rfl
    refine ⟨clip, remarks, hclip, _, Array.mem_toList_iff.1 (List.mem_singleton.2 rfl), _,
      List.mem_singleton.2 rfl, ⟨0.05, ["say flare"], none, false, 0⟩, rfl, rfl,
      ⟨[], [], rfl, List.forall_mem_nil _⟩, by decide, by decide +kernel, ?_⟩
    rintro (⟨tick, entry, -, hentry, -⟩ | ⟨d, hd⟩)
    · cases (hnone tick).symm.trans hentry
    · have hremarks : remarks = [] := List.isEmpty_iff.1 hremarks
      rw [hremarks] at hd
      cases hd

end Marionette
