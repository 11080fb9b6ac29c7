import Marionette.Proofs.Results
import Marionette.Proofs.Rounding
import Marionette.Sampling

/-!
# Tracks

- `Track.Reads`: what reading a node does to its track, and which entry it has.
- `sampleNode_reads`: the sampler does this to a node.
- `sampleNodes_at`, `sampleNodes_sublist`: it reads each node in its place, and entries follow the
  order of the nodes.
- `Track.Run`: a node is read at one tick after the other.
- `Track.Run.last_eq`: after each tick its last matrix is the one of that tick.
- `Track.Run.at_rest`: a node that has not been moved has been at rest.
-/

namespace Marionette

/-! ### One node -/

variable {a : Animation} {precision : Float} {tick : Nat} {track track' : Track} {marker : Marker}
  {world : Mat4} {entry : Option NodeEntry} {remarks : List Diagnostic}

/-- A node with its keys. -/
def Track.keyed (track : Track) : Slot × Channels :=
  (track.slot, track.channels)

/-- What reading a node with a rounded matrix does to its track, and which entry it has. -/
structure Track.Reads (track : Track) (matrix : Mat4) (track' : Track)
    (entry : Option NodeEntry) : Prop where
  slot : track'.slot = track.slot
  channels : track'.channels = track.channels
  rest : track'.rest = track.rest
  /-- An entry is kept for an effect or for a change, and the node is moved by an effect or by a
  change away from its rest. -/
  kept : ∀ e, entry = some e → e.pose.matrix = matrix ∧ track'.last = some matrix ∧
    (e.effect.isSome || !(track.last == some matrix)) = true ∧
    track'.modified = (track.modified ||
      (e.effect.isSome || (!(track.last == some matrix) && !(track.rest == matrix))))
  /-- Only locators that are not tracked may change without an entry. -/
  dropped : entry = none → track'.last = track.last ∧ track'.modified = track.modified ∧
    (track.slot.node.kind = .locator false ∨ (track.last == some matrix) = true)

/-- What the sampler does to one node. -/
theorem sampleNode_reads
    (h : sampleNode a precision tick track marker world = .ok (track', entry, remarks)) :
    track.Reads (world.rounded precision) track' entry := by
  unfold sampleNode at h
  dsimp only at h
  split at h
  next pose hpose =>
    rw [← Pose.matrix_of_ofMatrix? hpose]
    split at h
    next tracked hkind =>
      generalize locatorEffect a track.slot.node.uuid track.channels.commands track.repetition tick
        = found at h
      obtain ⟨effect, repetition, notes⟩ := found
      dsimp only at h
      split at h
      next hkept =>
        cases h
        refine ⟨rfl, rfl, rfl, ?_, fun hnone => (nomatch hnone)⟩
        rintro e ⟨⟩
        refine ⟨rfl, rfl, ?_, rfl⟩
        rcases Bool.or_eq_true_iff.1 hkept with heffect | hchanged
        · exact Bool.or_eq_true_iff.2 (.inl heffect)
        · exact Bool.or_eq_true_iff.2 (.inr (Bool.and_eq_true_iff.1 hchanged).2)
      next hdropped =>
        cases h
        refine ⟨rfl, rfl, rfl, fun e hsome => (nomatch hsome), fun _ => ⟨rfl, rfl, ?_⟩⟩
        -- of the locators only an untracked one may have moved without an entry
        cases tracked with
        | false => exact .inl hkind
        | true =>
          right
          by_contra hchanged
          exact hdropped (by simp [hchanged])
    next hkind =>
      split at h
      next hkept =>
        cases h
        refine ⟨rfl, rfl, rfl, ?_, fun hnone => (nomatch hnone)⟩
        rintro e ⟨⟩
        exact ⟨rfl, rfl, hkept, rfl⟩
      next hdropped =>
        cases h
        refine ⟨rfl, rfl, rfl, fun e hsome => (nomatch hsome), fun _ => ⟨rfl, rfl, .inr ?_⟩⟩
        by_contra hchanged
        exact hdropped (by simp [hchanged])
  next => cases h

/-! ### All nodes -/

section Nodes

variable {items : List (Track × Marker × Mat4)} {tracks : List Track}
  {entries : List (Uuid × NodeEntry)}

/-- The first node is read, then the others. -/
theorem sampleNodes_cons {item : Track × Marker × Mat4}
    (h : sampleNodes a precision tick (item :: items) = .ok (tracks, entries, remarks)) :
    ∃ track' entry here tracks' entries' later,
      sampleNode a precision tick item.1 item.2.1 item.2.2 = .ok (track', entry, here) ∧
      sampleNodes a precision tick items = .ok (tracks', entries', later) ∧
      tracks = track' :: tracks' ∧
      entries = (entry.toList.map fun e => (item.1.slot.node.uuid, e)) ++ entries' := by
  obtain ⟨track, marker, world⟩ := item
  rw [sampleNodes] at h
  obtain ⟨⟨track', entry, here⟩, hnode, h⟩ := exists_of_bind_ok h
  obtain ⟨⟨tracks', entries', later⟩, hrest, h⟩ := exists_of_bind_ok h
  have hslot := (sampleNode_reads hnode).slot
  cases h
  rw [hslot]
  exact ⟨track', entry, here, tracks', entries', later, hnode, hrest, rfl, rfl⟩

/-- Nodes and keys stay as they are. -/
theorem sampleNodes_keyed
    (h : sampleNodes a precision tick items = .ok (tracks, entries, remarks)) :
    tracks.map Track.keyed = items.map fun item => item.1.keyed := by
  induction items generalizing tracks entries remarks with
  | nil =>
    cases h
    rfl
  | cons item items ih =>
    obtain ⟨track', entry, here, tracks', entries', later, hnode, hrest, rfl, -⟩ :=
      sampleNodes_cons h
    have hreads := sampleNode_reads hnode
    rw [List.map_cons, List.map_cons, ih hrest, Track.keyed, hreads.slot, hreads.channels]
    rfl

/-- Entries are those of the nodes, in their order. -/
theorem sampleNodes_sublist
    (h : sampleNodes a precision tick items = .ok (tracks, entries, remarks)) :
    (entries.map (·.1)).Sublist (items.map fun item => item.1.slot.node.uuid) := by
  induction items generalizing tracks entries remarks with
  | nil =>
    cases h
    exact .slnil
  | cons item items ih =>
    obtain ⟨track', entry, here, tracks', entries', later, -, hrest, -, rfl⟩ := sampleNodes_cons h
    cases entry with
    | none => exact (ih hrest).cons _
    | some e => exact (ih hrest).cons_cons _

/-- Each node is read with its own marker and its own matrix, and its entry is the one that stands
beside its identifier. -/
theorem sampleNodes_at
    (h : sampleNodes a precision tick items = .ok (tracks, entries, remarks))
    (hnodup : (items.map fun item => item.1.slot.node.uuid).Nodup) {place : Nat}
    {item : Track × Marker × Mat4} (hitem : items[place]? = some item) :
    ∃ track' here, tracks[place]? = some track' ∧
      sampleNode a precision tick item.1 item.2.1 item.2.2 =
        .ok (track', (entries.find? fun n => n.1 == item.1.slot.node.uuid).map (·.2), here) := by
  induction items generalizing tracks entries remarks place with
  | nil => cases hitem
  | cons first items ih =>
    obtain ⟨track', entry, here, tracks', entries', later, hnode, hrest, rfl, rfl⟩ :=
      sampleNodes_cons h
    obtain ⟨hnew, hnodup⟩ := List.nodup_cons.1 hnodup
    cases place with
    | zero =>
      cases hitem
      refine ⟨track', here, rfl, ?_⟩
      cases entry with
      | some e =>
        have hfound : (((item.1.slot.node.uuid, e) :: entries').find?
            fun n => n.1 == item.1.slot.node.uuid) = some (item.1.slot.node.uuid, e) :=
          List.find?_cons_of_pos (beq_self_eq_true _)
        rw [Option.toList_some, List.map_singleton, List.singleton_append, hfound]
        exact hnode
      | none =>
        -- the entries that follow belong to other nodes
        have hnone : (entries'.find? fun n => n.1 == item.1.slot.node.uuid) = none := by
          rw [List.find?_eq_none]
          intro n hn heq
          have hmem := (sampleNodes_sublist hrest).subset (List.mem_map_of_mem hn)
          rw [beq_iff_eq.1 heq] at hmem
          exact hnew hmem
        rw [Option.toList_none, List.map_nil, List.nil_append, hnone]
        exact hnode
    | succ place =>
      obtain ⟨later, here', hlater, hread⟩ := ih hrest hnodup hitem
      refine ⟨later, here', hlater, ?_⟩
      have hother : ((entry.toList.map fun e => (first.1.slot.node.uuid, e)).find?
          fun n => n.1 == item.1.slot.node.uuid) = none := by
        rw [List.find?_eq_none]
        intro n hn heq
        obtain ⟨e, -, rfl⟩ := List.mem_map.1 hn
        exact hnew (List.mem_map.2 ⟨item, List.mem_of_getElem? hitem, (beq_iff_eq.1 heq).symm⟩)
      rw [List.find?_append, hother, Option.none_or]
      exact hread

end Nodes

/-! ### A run of reads -/

section Runs

variable {count : Nat} {matrix : Nat → Mat4} {track : Nat → Track} {entry : Nat → Option NodeEntry}

/-- A node is read at the ticks before `count`, beginning with a track that has no entries. -/
structure Track.Run (a : Animation) (precision : Float) (count : Nat) (matrix : Nat → Mat4)
    (track : Nat → Track) (entry : Nat → Option NodeEntry) : Prop where
  step : ∀ tick < count, ∃ marker world remarks, matrix tick = world.rounded precision ∧
    sampleNode a precision tick (track tick) marker world =
      .ok (track (tick + 1), entry tick, remarks)
  last : (track 0).last = none
  modified : (track 0).modified = false
  repetition : (track 0).repetition = none
  /-- All matrices are rounded. -/
  rounded : ∀ tick, ∃ world : Mat4, matrix tick = world.rounded precision
  rest : ∃ world : Mat4, (track 0).rest = world.rounded precision

namespace Track.Run

theorem reads (h : Track.Run a precision count matrix track entry) :
    ∀ tick < count, (track tick).Reads (matrix tick) (track (tick + 1)) (entry tick) := by
  intro tick htick
  obtain ⟨marker, world, remarks, hmatrix, hstep⟩ := h.step tick htick
  exact hmatrix ▸ sampleNode_reads hstep

theorem slot_eq (h : Track.Run a precision count matrix track entry) :
    ∀ tick ≤ count, (track tick).slot = (track 0).slot := by
  intro tick htick
  induction tick with
  | zero => rfl
  | succ tick ih => rw [(h.reads tick htick).slot, ih (Nat.le_of_succ_le htick)]

theorem channels_eq (h : Track.Run a precision count matrix track entry) :
    ∀ tick ≤ count, (track tick).channels = (track 0).channels := by
  intro tick htick
  induction tick with
  | zero => rfl
  | succ tick ih => rw [(h.reads tick htick).channels, ih (Nat.le_of_succ_le htick)]

theorem rest_eq (h : Track.Run a precision count matrix track entry) :
    ∀ tick ≤ count, (track tick).rest = (track 0).rest := by
  intro tick htick
  induction tick with
  | zero => rfl
  | succ tick ih => rw [(h.reads tick htick).rest, ih (Nat.le_of_succ_le htick)]

/-- The first tick has an entry. -/
theorem exists_entry_zero (h : Track.Run a precision count matrix track entry)
    (hkind : (track 0).slot.node.kind ≠ .locator false) (hcount : 0 < count) :
    ∃ e, entry 0 = some e := by
  cases hentry : entry 0 with
  | some e => exact ⟨e, rfl⟩
  | none =>
    obtain ⟨-, -, hkept⟩ := (h.reads 0 hcount).dropped hentry
    have hsame := hkept.resolve_left hkind
    rw [h.last] at hsame
    cases hsame

/-- A tick without an entry shows the last matrix. -/
theorem eq_of_last (h : Track.Run a precision count matrix track entry)
    (hkind : (track 0).slot.node.kind ≠ .locator false) {tick : Nat} (htick : tick + 1 < count)
    (hlast : (track (tick + 1)).last = some (matrix tick)) (hentry : entry (tick + 1) = none) :
    matrix tick = matrix (tick + 1) := by
  obtain ⟨-, -, hkept⟩ := (h.reads _ htick).dropped hentry
  rw [h.slot_eq _ (Nat.le_of_lt htick)] at hkept
  have hsame := hkept.resolve_left hkind
  obtain ⟨world, hworld⟩ := h.rounded tick
  obtain ⟨world', hworld'⟩ := h.rounded (tick + 1)
  rw [hlast, hworld, hworld'] at hsame
  rw [hworld, hworld']
  exact Mat4.rounded_eq_of_beq hsame

/-- After a tick the last matrix is the one of that tick, whether or not it has an entry. -/
theorem last_eq (h : Track.Run a precision count matrix track entry)
    (hkind : (track 0).slot.node.kind ≠ .locator false) :
    ∀ tick < count, (track (tick + 1)).last = some (matrix tick) := by
  intro tick htick
  induction tick with
  | zero =>
    obtain ⟨e, hentry⟩ := h.exists_entry_zero hkind htick
    exact ((h.reads 0 htick).kept e hentry).2.1
  | succ tick ih =>
    have hbefore := ih (Nat.lt_of_succ_lt htick)
    cases hentry : entry (tick + 1) with
    | some e => exact ((h.reads _ htick).kept e hentry).2.1
    | none =>
      rw [((h.reads _ htick).dropped hentry).1, hbefore,
        h.eq_of_last hkind htick hbefore hentry]

/-- A tick without an entry shows the matrix of the tick before it. -/
theorem eq_of_entry_eq_none (h : Track.Run a precision count matrix track entry)
    (hkind : (track 0).slot.node.kind ≠ .locator false) {tick : Nat} (htick : tick + 1 < count)
    (hentry : entry (tick + 1) = none) : matrix tick = matrix (tick + 1) :=
  h.eq_of_last hkind htick (h.last_eq hkind tick (Nat.lt_of_succ_lt htick)) hentry

/-- An entry that does not count as moving the node shows it at rest. -/
theorem eq_rest_of_entry (h : Track.Run a precision count matrix track entry) {tick : Nat}
    (htick : tick < count) {e : NodeEntry} (hentry : entry tick = some e)
    (hstill : (track (tick + 1)).modified = false) : matrix tick = (track 0).rest := by
  obtain ⟨-, -, hwhy, hmoved⟩ := (h.reads tick htick).kept e hentry
  rw [hmoved, h.rest_eq tick (Nat.le_of_lt htick)] at hstill
  obtain ⟨-, hstill⟩ := Bool.or_eq_false_iff.1 hstill
  obtain ⟨heffect, hfar⟩ := Bool.or_eq_false_iff.1 hstill
  -- Without an effect the entry is there for a change.
  rw [heffect, Bool.false_or] at hwhy
  rw [hwhy, Bool.true_and, Bool.not_eq_false'] at hfar
  obtain ⟨world, hworld⟩ := h.rounded tick
  obtain ⟨world', hworld'⟩ := h.rest
  rw [hworld, hworld'] at hfar ⊢
  exact (Mat4.rounded_eq_of_beq hfar).symm

/-- A node that has not been moved has been at rest at every tick so far. -/
theorem at_rest (h : Track.Run a precision count matrix track entry)
    (hkind : (track 0).slot.node.kind ≠ .locator false) :
    ∀ tick < count, (track (tick + 1)).modified = false → matrix tick = (track 0).rest := by
  intro tick htick hstill
  induction tick with
  | zero =>
    obtain ⟨e, hentry⟩ := h.exists_entry_zero hkind htick
    exact h.eq_rest_of_entry htick hentry hstill
  | succ tick ih =>
    cases hentry : entry (tick + 1) with
    | some e => exact h.eq_rest_of_entry htick hentry hstill
    | none =>
      rw [((h.reads _ htick).dropped hentry).2.1] at hstill
      rw [← h.eq_of_entry_eq_none hkind htick hentry]
      exact ih (Nat.lt_of_succ_lt htick) hstill

/-- What has been moved stays moved. -/
theorem modified_mono (h : Track.Run a precision count matrix track entry) {tick : Nat} :
    ∀ later ≤ count, tick ≤ later → (track later).modified = false →
      (track tick).modified = false := by
  intro later hlater hle hstill
  induction later with
  | zero => rwa [Nat.le_zero.1 hle]
  | succ later ih =>
    rcases Nat.lt_or_eq_of_le hle with hlt | rfl
    · refine ih (Nat.le_of_succ_le hlater) (Nat.le_of_lt_succ hlt) ?_
      cases hentry : entry later with
      | some e =>
        rw [((h.reads _ hlater).kept e hentry).2.2.2] at hstill
        exact (Bool.or_eq_false_iff.1 hstill).1
      | none =>
        rwa [((h.reads _ hlater).dropped hentry).2.1] at hstill
    · exact hstill

end Track.Run

end Runs

end Marionette
