import Marionette.Functions.Leaves
import Marionette.Proofs.DispatchTree.Lookup

/-!
# Latest entries

- `Clip.IsSparse`: every tick has at most one frame.
- `Clip.entryAt?`: the entry of a node at a tick.
- `Clip.latestAt?`: its latest entry up to a tick; `latestAt?_eq_some_iff` says so.
- `Clip.latestFrame?`: the latest frame up to a tick; `IsSparse.routeFrame?_build`: it is what the
  seeking lookup finds.
-/

namespace Marionette

namespace Clip

/-- The ticks of the frames are distinct and lie before the end. -/
structure IsSparse (clip : Clip) : Prop where
  nodup : (clip.frames.map (·.tick)).Nodup
  lt : ∀ f ∈ clip.frames, f.tick < clip.duration

variable (c : Clip) (uuid : Uuid)

/-- The entry of a node at a tick. -/
def entryAt? (tick : Nat) : Option NodeEntry :=
  (c.frameAt? tick).bind fun f => f.entry? uuid

/-- The latest entry of a node up to a tick. -/
def latestAt? : Nat → Option NodeEntry
  | 0 => c.entryAt? uuid 0
  | tick + 1 => (c.entryAt? uuid (tick + 1)).or (latestAt? tick)

/-- The latest frame up to a tick. -/
def latestFrame? : Nat → Option Frame
  | 0 => c.frameAt? 0
  | tick + 1 => (c.frameAt? (tick + 1)).or (latestFrame? tick)

variable {c uuid} {tick : Nat} {entry : NodeEntry}

theorem latestAt?_eq_none_iff :
    c.latestAt? uuid tick = none ↔ ∀ t ≤ tick, c.entryAt? uuid t = none := by
  induction tick with
  | zero => simp [latestAt?]
  | succ tick ih =>
    rw [latestAt?, Option.or_eq_none_iff, ih]
    constructor
    · rintro ⟨hlast, hothers⟩ t ht
      rcases Nat.lt_or_eq_of_le ht with hlt | rfl
      · exact hothers t (Nat.le_of_lt_succ hlt)
      · exact hlast
    · intro h
      exact ⟨h _ (Nat.le_refl _), fun t ht => h t (Nat.le_succ_of_le ht)⟩

/-- The latest entry is one of a tick after which there is none. -/
theorem latestAt?_eq_some_iff :
    c.latestAt? uuid tick = some entry ↔
      ∃ t ≤ tick, c.entryAt? uuid t = some entry ∧
        ∀ t', t < t' → t' ≤ tick → c.entryAt? uuid t' = none := by
  induction tick with
  | zero =>
    rw [latestAt?]
    constructor
    · exact fun h => ⟨0, Nat.le_refl _, h, fun t' hlt hle => absurd hlt (by omega)⟩
    · rintro ⟨t, ht, h, -⟩
      rwa [Nat.le_zero.1 ht] at h
  | succ tick ih =>
    rw [latestAt?]
    cases hlast : c.entryAt? uuid (tick + 1) with
    | some last =>
      -- an entry at the tick itself is the latest one
      rw [Option.some_or]
      constructor
      · exact fun h =>
          ⟨tick + 1, Nat.le_refl _, hlast.trans h, fun t' hlt hle => absurd hlt (by omega)⟩
      · rintro ⟨t, ht, h, hnone⟩
        rcases Nat.lt_or_eq_of_le ht with hlt | rfl
        · cases hlast.symm.trans (hnone _ hlt (Nat.le_refl _))
        · exact hlast.symm.trans h
    | none =>
      -- without one the latest entry is that of the tick before
      rw [Option.none_or, ih]
      constructor
      · rintro ⟨t, ht, h, hnone⟩
        refine ⟨t, Nat.le_succ_of_le ht, h, fun t' hlt hle => ?_⟩
        rcases Nat.lt_or_eq_of_le hle with hle | rfl
        · exact hnone t' hlt (Nat.le_of_lt_succ hle)
        · exact hlast
      · rintro ⟨t, ht, h, hnone⟩
        rcases Nat.lt_or_eq_of_le ht with hlt | rfl
        · exact ⟨t, Nat.le_of_lt_succ hlt, h, fun t' hlt' hle =>
            hnone t' hlt' (Nat.le_succ_of_le hle)⟩
        · cases hlast.symm.trans h

/-- An entry of the latest frame is the latest entry of its node. -/
theorem latestAt?_of_latestFrame? {frame : Frame} (hframe : c.latestFrame? tick = some frame)
    (hentry : frame.entry? uuid = some entry) : c.latestAt? uuid tick = some entry := by
  induction tick with
  | zero =>
    rw [latestFrame?] at hframe
    rw [latestAt?, entryAt?, hframe]
    exact hentry
  | succ tick ih =>
    rw [latestFrame?] at hframe
    rw [latestAt?, entryAt?]
    cases hlast : c.frameAt? (tick + 1) with
    | some last =>
      rw [hlast, Option.some_or] at hframe
      cases hframe
      rw [Option.bind_some, hentry, Option.some_or]
    | none =>
      rw [hlast, Option.none_or] at hframe
      exact ih hframe

/-- In the tree of an animation, the seeking lookup finds the latest frame up to a tick. -/
theorem IsSparse.routeFrame?_build (h : c.IsSparse) (ht : tick < c.duration) :
    (DispatchTree.build c.frames c.duration).routeFrame? tick = c.latestFrame? tick := by
  have hfind : ∀ t, (DispatchTree.build c.frames c.duration).findFrame? t = c.frameAt? t := fun t =>
    DispatchTree.findFrame?_build_of_nodup h.nodup h.lt t
  unfold DispatchTree.findFrame? at hfind
  rw [DispatchTree.routeFrame?,
    if_neg (show ¬(DispatchTree.build c.frames c.duration).duration ≤ tick from
    Nat.not_le.2 ht)]
  cases hroot : (DispatchTree.build c.frames c.duration).root with
  | none =>
    rw [hroot] at hfind
    have hnone : ∀ t, c.frameAt? t = none := fun t => (hfind t).symm
    show none = c.latestFrame? tick
    induction tick with
    | zero => exact (hnone 0).symm
    | succ tick ih =>
      rw [latestFrame?, hnone, Option.none_or]
      exact ih (by omega)
  | some n =>
    have hord := (DispatchTree.root_build hroot).1
    rw [hroot] at hfind
    -- the step from a tick to the next is the same on both sides
    induction tick with
    | zero => exact (DispatchNode.routeFrame?_zero hord).trans (hfind 0)
    | succ tick ih =>
      rw [latestFrame?, ← hfind, ← ih (by omega)]
      exact DispatchNode.routeFrame?_succ hord tick

end Clip

end Marionette
