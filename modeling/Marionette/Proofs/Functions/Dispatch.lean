import Marionette.Proofs.DispatchTree.Lookup
import Marionette.Proofs.Functions.Basic

/-!
# Running the dispatch trees

Every branch asks for each of its children whether the frame score lies in the range of the child,
the second time after the first child has been run.  That the second question gets the same answer
as before rests on the frames: they leave the frame score alone.

- `AtFrame`: the root is alive and has a frame score.
- `Does.guardedCall`: a call under a question about the frame score; `Does.guardedPair`: two of
  them.
- `Does.exactCall`: a node of the exact tree runs the frame that the exact lookup finds.
- `Does.seekCall`: a node of the seeking tree runs the frame that the seeking lookup finds.
- `Does.dispatch`, `Does.seek`: the same for whole trees; `Does.dispatch_skip`, `Does.seek_skip` for
  scores before every tick.
-/

namespace Marionette

/-- The root is alive and has a frame score. -/
structure AtFrame (s : Stage) (root : Nat) (score : Int32) (w : World) : Prop where
  living : w.IsLiving root
  objective : w.hasObjective s.names.frame = true
  score : w.score? root s.names.frame = some score

theorem AtFrame.of_onlyLooks {s : Stage} {root : Nat} {score : Int32} {w w' : World}
    (h : AtFrame s root score w) (hw : World.OnlyLooks w w') : AtFrame s root score w' :=
  ⟨hw.isLiving h.living, (hw.hasObjective _).trans h.objective, (hw.score? _ _).trans h.score⟩

namespace World

variable {s : Stage} {paths : ClipPaths} {root d upper tick : Nat} {v : Int32} {w : World}
  {n : DispatchNode} {Q : World → Prop}

/-- What a lookup leads to: the function of the frame that it finds, or nothing. -/
def DoesFound (d : Nat) (paths : ClipPaths) (root : Nat) (found : Option Frame) (w : World)
    (Q : World → Prop) : Prop :=
  match found with
  | none => Q w
  | some frame => Does d (.function (paths.frame frame.tick)) (some root) w Q

namespace Does

/-- A call under a question about the frame score. -/
theorem guardedCall {lo hi : Nat} {path : FunctionPath} (hlo : lo < 2 ^ 31) (hhi : hi < 2 ^ 31)
    (hat : AtFrame s root v w)
    (h : if (lo : Int) ≤ v.toInt ∧ v.toInt ≤ hi then Does d (.function path) (some root) w Q
      else Q w) : Does d (s.guardedCall lo hi path) (some root) w Q := by
  refine Does.ifOwn hat.living hat.objective hat.score ?_
  rw [ScoreRange.contains_between hlo hhi]
  by_cases hin : (lo : Int) ≤ v.toInt ∧ v.toInt ≤ hi
  · rw [if_pos hin] at h
    rw [if_pos (decide_eq_true hin)]
    exact Does.execute_nil h
  · rw [if_neg hin] at h
    rw [if_neg (by simpa using hin)]
    exact h

/-- Of two calls under questions about ranges that lie apart, at most one is made. -/
theorem guardedPair {lo hi lo' hi' : Nat} {path path' : FunctionPath} (hlo : lo < 2 ^ 31)
    (hapart : hi < lo') (hlo' : lo' < 2 ^ 31) (hhi' : hi' < 2 ^ 31) (hv : v.toInt = tick)
    (hat : AtFrame s root v w) (hQ : ∀ w', Q w' → AtFrame s root v w')
    (hfirst : lo ≤ tick ∧ tick ≤ hi → Does d (s.guardedCall lo hi path) (some root) w Q)
    (hsecond : lo' ≤ tick ∧ tick ≤ hi' → Does d (s.guardedCall lo' hi' path') (some root) w Q)
    (hneither : ¬(lo ≤ tick ∧ tick ≤ hi) → ¬(lo' ≤ tick ∧ tick ≤ hi') → Q w) :
    DoesAll d [s.guardedCall lo hi path, s.guardedCall lo' hi' path'] (some root) w Q := by
  refine DoesAll.cons ?_
  by_cases hin : lo ≤ tick ∧ tick ≤ hi
  · refine Does.imp (hfirst hin) ?_
    intro w' hw'
    -- the first call left the score alone, so the second question gets the same answer as before
    refine DoesAll.cons (guardedCall hlo' hhi' (hQ w' hw') ?_)
    rw [if_neg (by omega)]
    exact DoesAll.nil hw'
  · refine guardedCall hlo (Nat.lt_trans hapart hlo') hat ?_
    rw [if_neg (by omega)]
    refine DoesAll.cons ?_
    by_cases hin' : lo' ≤ tick ∧ tick ≤ hi'
    · exact Does.imp (hsecond hin') fun _ => DoesAll.nil
    · refine guardedCall hlo' hhi' hat ?_
      rw [if_neg (by omega)]
      exact DoesAll.nil (hneither hin hin')

/-- A node of the exact tree runs the frame of exactly the score. -/
theorem exactCall (hn : n.Ordered) (hhi : n.hi < 2 ^ 31)
    (hf : w.Installs (s.exactFunctions paths n)) (hv : v.toInt = tick) (hat : AtFrame s root v w)
    (hQ : ∀ w', Q w' → AtFrame s root v w')
    (h : DoesFound d paths root (n.findFrame? tick) w Q) :
    Does (d + n.depth) (s.exactCall paths n) (some root) w Q := by
  have hle := hn.lo_le_hi
  induction n generalizing d w Q with
  | leaf frame =>
    refine guardedCall (Nat.lt_of_le_of_lt hle hhi) hhi hat ?_
    simp only [DispatchNode.findFrame?] at h
    by_cases ht : frame.tick = tick
    · rw [if_pos ht] at h
      rw [if_pos ⟨by simp only [DispatchNode.lo]; omega, by simp only [DispatchNode.hi]; omega⟩]
      exact Does.deeper (Nat.le_add_right d _) h
    · rw [if_neg ht] at h
      rw [if_neg (by simp only [DispatchNode.lo, DispatchNode.hi]; omega)]
      exact h
  | branch lo hi left right ihl ihr =>
    obtain ⟨hlo, hhi', hlt, hl, hr⟩ := hn
    have hlr := hl.lo_le_hi
    have hrr := hr.lo_le_hi
    have hrlt : right.hi < 2 ^ 31 := hhi' ▸ hhi
    have hil : w.Installs (s.exactFunctions paths left) := fun f hmem =>
      hf f (List.mem_cons_of_mem _ (List.mem_append_left _ hmem))
    have hir : w.Installs (s.exactFunctions paths right) := fun f hmem =>
      hf f (List.mem_cons_of_mem _ (List.mem_append_right _ hmem))
    refine guardedCall (Nat.lt_of_le_of_lt hle hhi) hhi hat ?_
    simp only [DispatchNode.findFrame?] at h
    split
    · -- within the branch: both children are asked, one after the other
      have hdepth : d + (DispatchNode.branch lo hi left right).depth =
          d + max left.depth right.depth + 1 := by
        simp only [DispatchNode.depth]
        omega
      rw [hdepth]
      refine Does.call hf List.mem_cons_self (guardedPair (by omega) hlt (by omega) hrlt hv hat hQ
        ?_ ?_ ?_)
      · intro hin
        rw [if_pos hin] at h
        exact Does.deeper (by omega) (ihl hl (by omega) hil hat hQ h hlr)
      · intro hin
        rw [if_neg (by omega), if_pos hin] at h
        exact Does.deeper (by omega) (ihr hr hrlt hir hat hQ h hrr)
      · intro hleft hright
        rwa [if_neg hleft, if_neg hright] at h
    · -- outside the branch, so outside both children
      rename_i hout
      simp only [DispatchNode.lo, DispatchNode.hi] at hout
      rw [if_neg (by omega), if_neg (by omega)] at h
      exact h

/-- A node of the seeking tree that serves the ticks up to `upper` runs the latest frame up to the
score. -/
theorem seekCall (hn : n.Ordered) (hhi : n.hi < 2 ^ 31) (hupper : upper < 2 ^ 31)
    (hf : w.Installs (s.seekFunctions paths upper n)) (hv : v.toInt = tick)
    (hat : AtFrame s root v w) (hQ : ∀ w', Q w' → AtFrame s root v w')
    (h : DoesFound d paths root (if tick ≤ upper then n.routeFrame? tick else none) w Q) :
    Does (d + n.depth) (s.guardedCall n.lo upper (Stage.seekTarget paths n)) (some root) w Q := by
  have hle := hn.lo_le_hi
  induction n generalizing d w Q upper with
  | leaf frame =>
    refine guardedCall (Nat.lt_of_le_of_lt hle hhi) hupper hat ?_
    simp only [DispatchNode.routeFrame?] at h
    split <;> rename_i hin <;> simp only [DispatchNode.lo] at hin
    · rw [if_pos (by omega), if_pos (by omega)] at h
      exact Does.deeper (Nat.le_add_right d _) h
    · split at h
      · rw [if_neg (by omega)] at h
        exact h
      · exact h
  | branch lo hi left right ihl ihr =>
    obtain ⟨hlo, hhi', hlt, hl, hr⟩ := hn
    have hlr := hl.lo_le_hi
    have hrr := hr.lo_le_hi
    have hrlt : right.hi < 2 ^ 31 := hhi' ▸ hhi
    have hfl : w.Installs (s.seekFunctions paths (right.lo - 1) left) := fun f hmem =>
      hf f (List.mem_cons_of_mem _ (List.mem_append_left _ hmem))
    have hfr : w.Installs (s.seekFunctions paths upper right) := fun f hmem =>
      hf f (List.mem_cons_of_mem _ (List.mem_append_right _ hmem))
    refine guardedCall (Nat.lt_of_le_of_lt hle hhi) hupper hat ?_
    simp only [DispatchNode.routeFrame?] at h
    split <;> rename_i hin <;> simp only [DispatchNode.lo] at hin
    · -- within the branch: both children are asked, one after the other
      rw [if_pos (by omega)] at h
      have hdepth : d + (DispatchNode.branch lo hi left right).depth =
          d + max left.depth right.depth + 1 := by
        simp only [DispatchNode.depth]
        omega
      rw [hdepth]
      refine Does.call hf List.mem_cons_self (guardedPair (by omega) (by omega) (by omega) hupper hv
        hat hQ ?_ ?_ ?_)
      · intro hleft
        rw [if_neg (by omega), if_pos (by omega)] at h
        refine Does.deeper (by omega)
          (ihl (d := d) (Q := Q) hl (by omega) (by omega) hfl hat hQ ?_ hlr)
        rw [if_pos (by omega)]
        exact h
      · intro hright
        rw [if_pos (by omega)] at h
        refine Does.deeper (by omega) (ihr (d := d) hr hrlt hupper hfr hat hQ ?_ hrr)
        rw [if_pos (by omega)]
        exact h
      · omega
    · -- before the first tick or after the last one that the branch serves
      split at h
      · rw [if_neg (by omega), if_neg (by omega)] at h
        exact h
      · exact h

variable {tree : DispatchTree}

/-- A whole tree runs the frame of exactly the score. -/
theorem dispatch (ht : tree.IsSound)
    (hf : w.Installs (s.dispatchFunctions paths tree)) (hv : v.toInt = tick)
    (hat : AtFrame s root v w) (hQ : ∀ w', Q w' → AtFrame s root v w')
    (h : DoesFound d paths root (tree.findFrame? tick) w Q) :
    Does (d + tree.depth + 1) (.function paths.dispatch) (some root) w Q := by
  unfold Stage.dispatchFunctions at hf
  unfold DispatchTree.findFrame? at h
  cases hroot : tree.root with
  | none =>
    rw [hroot] at hf h
    dsimp only at hf
    exact Does.call hf List.mem_cons_self (DoesAll.cons (Does.comment (DoesAll.nil h)))
  | some n =>
    rw [hroot] at hf h
    dsimp only at hf
    have hord := ht.ordered n hroot
    have hhi := ht.hi_lt n hroot
    have hduration := ht.duration_le
    have hdepth : tree.depth = n.depth := by simp [DispatchTree.depth, hroot]
    rw [hdepth]
    refine Does.call hf List.mem_cons_self (DoesAll.cons ?_)
    exact Does.imp (exactCall hord (by omega) hf.left.left.right hv hat hQ h) fun _ => DoesAll.nil

/-- A whole tree runs the latest frame up to the score. -/
theorem seek (ht : tree.IsSound) (hf : w.Installs (s.dispatchFunctions paths tree))
    (hv : v.toInt = tick) (hat : AtFrame s root v w) (hQ : ∀ w', Q w' → AtFrame s root v w')
    (h : DoesFound d paths root (tree.routeFrame? tick) w Q) :
    Does (d + tree.depth + 1) (.function paths.seek) (some root) w Q := by
  unfold Stage.dispatchFunctions at hf
  unfold DispatchTree.routeFrame? at h
  cases hroot : tree.root with
  | none =>
    rw [hroot] at hf h
    dsimp only at hf
    rw [Option.bind_none, ite_self] at h
    exact Does.call hf (List.mem_cons_of_mem _ List.mem_cons_self)
      (DoesAll.cons (Does.comment (DoesAll.nil h)))
  | some n =>
    rw [hroot] at hf h
    dsimp only at hf
    have hord := ht.ordered n hroot
    have hhi := ht.hi_lt n hroot
    have hduration := ht.duration_le
    have hdepth : tree.depth = n.depth := by simp [DispatchTree.depth, hroot]
    rw [hdepth]
    refine Does.call hf.left.right List.mem_cons_self (DoesAll.cons ?_)
    refine Does.imp (seekCall hord (by omega) (by omega) hf.right hv hat hQ ?_) fun _ => DoesAll.nil
    split at h
    · rw [if_neg (by omega)]
      exact h
    · rw [if_pos (by omega)]
      exact h

/-- A call under a question about the frame score, where the score is missing or too small. -/
theorem guardedCall_skip {lo hi : Nat} {path : FunctionPath} (hlo : lo < 2 ^ 31) (hhi : hi < 2 ^ 31)
    (hl : w.IsLiving root) (ho : w.hasObjective s.names.frame = true)
    (hv : ∀ v, w.score? root s.names.frame = some v → v.toInt < 0) (h : Q w) :
    Does d (s.guardedCall lo hi path) (some root) w Q := by
  cases hscore : w.score? root s.names.frame with
  | none =>
    refine Does.execute_score ho ?_
    rw [firstScore?_this hl, hscore]
    exact h
  | some v =>
    have hneg := hv v hscore
    refine guardedCall hlo hhi ⟨hl, ho, hscore⟩ ?_
    rw [if_neg (by omega)]
    exact h

/-- A score that is missing or negative lies before every tick, so the exact tree does nothing. -/
theorem dispatch_skip (ht : tree.IsSound)
    (hf : w.Installs (s.dispatchFunctions paths tree)) (hl : w.IsLiving root)
    (ho : w.hasObjective s.names.frame = true)
    (hv : ∀ v, w.score? root s.names.frame = some v → v.toInt < 0) (h : Q w) :
    Does (d + tree.depth + 1) (.function paths.dispatch) (some root) w Q := by
  unfold Stage.dispatchFunctions at hf
  cases hroot : tree.root with
  | none =>
    rw [hroot] at hf
    dsimp only at hf
    exact Does.call hf List.mem_cons_self (DoesAll.cons (Does.comment (DoesAll.nil h)))
  | some n =>
    rw [hroot] at hf
    dsimp only at hf
    have hle := (ht.ordered n hroot).lo_le_hi
    have hhi := ht.hi_lt n hroot
    have hduration := ht.duration_le
    refine Does.call hf List.mem_cons_self (DoesAll.cons ?_)
    exact guardedCall_skip (by omega) (by omega) hl ho hv (DoesAll.nil h)

/-- Neither does the seeking tree. -/
theorem seek_skip (ht : tree.IsSound) (hf : w.Installs (s.dispatchFunctions paths tree))
    (hl : w.IsLiving root) (ho : w.hasObjective s.names.frame = true)
    (hv : ∀ v, w.score? root s.names.frame = some v → v.toInt < 0) (h : Q w) :
    Does (d + tree.depth + 1) (.function paths.seek) (some root) w Q := by
  unfold Stage.dispatchFunctions at hf
  cases hroot : tree.root with
  | none =>
    rw [hroot] at hf
    dsimp only at hf
    exact Does.call hf (List.mem_cons_of_mem _ List.mem_cons_self)
      (DoesAll.cons (Does.comment (DoesAll.nil h)))
  | some n =>
    rw [hroot] at hf
    dsimp only at hf
    have hle := (ht.ordered n hroot).lo_le_hi
    have hhi := ht.hi_lt n hroot
    have hduration := ht.duration_le
    refine Does.call hf.left.right List.mem_cons_self (DoesAll.cons ?_)
    exact guardedCall_skip (by omega) (by omega) hl ho hv (DoesAll.nil h)

end Does

end World

end Marionette
