import Mathlib.Algebra.Group.Nat.Defs
import Marionette.Functions.Dispatch
import Marionette.Proofs.World.Looks

/-!
# Running generated functions

- `World.Installs`: the world has functions, with the commands that were generated for them.
- `Does.call`: a call of a function that the world has.
- `ScoreRange.contains_between` and its like: what the ranges of scores contain.
- `ofNat_lastTick`: the last tick of an animation as a score.
- `Does.ifOwn`: a test of a score of the executing entity.
-/

namespace Marionette

namespace ScoreRange

variable {v : Int32} {lo hi : Nat}

theorem contains_between (hlo : lo < 2 ^ 31) (hhi : hi < 2 ^ 31) :
    (between (Int32.ofNat lo) (Int32.ofNat hi)).contains v =
      decide ((lo : Int) ≤ v.toInt ∧ v.toInt ≤ hi) := by
  have h₁ : Int32.ofNat lo ≤ v ↔ (lo : Int) ≤ v.toInt := by
    rw [Int32.le_iff_toInt_le, Int32.toInt_ofNat_of_lt hlo]
  have h₂ : v ≤ Int32.ofNat hi ↔ v.toInt ≤ (hi : Int) := by
    rw [Int32.le_iff_toInt_le, Int32.toInt_ofNat_of_lt hhi]
  simp only [between, contains, Option.all_some, Bool.decide_and, h₁, h₂]

theorem contains_atLeast (hlo : lo < 2 ^ 31) :
    (atLeast (Int32.ofNat lo)).contains v = decide ((lo : Int) ≤ v.toInt) := by
  have h : Int32.ofNat lo ≤ v ↔ (lo : Int) ≤ v.toInt := by
    rw [Int32.le_iff_toInt_le, Int32.toInt_ofNat_of_lt hlo]
  simp only [atLeast, contains, Option.all_some, Option.all_none, Bool.and_true, h]

theorem contains_exact (m : Int32) : (exact m).contains v = decide (v = m) := by
  have h : (m ≤ v ∧ v ≤ m) ↔ v = m := by
    rw [Int32.le_iff_toInt_le, Int32.le_iff_toInt_le, ← Int32.toInt_inj]
    omega
  simp only [exact, contains, Option.all_some, ← Bool.decide_and, h]

end ScoreRange

/-- The last tick of an animation, which has at least one. -/
theorem ofNat_lastTick {duration : Nat} (h : duration < 2 ^ 31) :
    (if Int32.ofNat duration < 1 then 1 else Int32.ofNat duration) - 1 =
      Int32.ofNat (max duration 1 - 1) := by
  cases duration with
  | zero => decide
  | succ n =>
    have hone : ¬Int32.ofNat (n + 1) < 1 := by
      rw [Int32.lt_iff_toInt_lt, Int32.toInt_ofNat_of_lt (by omega)]
      show ¬((n + 1 : Nat) : Int) < 1
      omega
    rw [if_neg hone, show max (n + 1) 1 - 1 = n by omega, Int32.ofNat_add]
    exact Int32.add_sub_cancel _ _

namespace World

/-- The world has these functions with these commands. -/
def Installs (w : World) (functions : List GeneratedFunction) : Prop :=
  ∀ f ∈ functions, w.functions[f.1]? = some f.2

namespace Installs

variable {w w' : World} {fs gs : List GeneratedFunction}

theorem congr (h : w.Installs fs) (hw : w'.functions = w.functions) : w'.Installs fs := by
  unfold Installs
  rw [hw]
  exact h

theorem left (h : w.Installs (fs ++ gs)) : w.Installs fs :=
  fun f hf => h f (List.mem_append_left _ hf)

theorem right (h : w.Installs (fs ++ gs)) : w.Installs gs :=
  fun g hg => h g (List.mem_append_right _ hg)

end Installs

variable {d : Nat} {w : World} {id : Nat} {c : Command} {rest : List Clause} {Q : World → Prop}

namespace Does

/-- A call of a function that the world has. -/
theorem call {fs : List GeneratedFunction} {path : FunctionPath} {body : List Command}
    {executor : Option Nat} (hi : w.Installs fs) (hmem : (path, body) ∈ fs)
    (h : DoesAll d body executor w Q) : Does (d + 1) (.function path) executor w Q :=
  Does.function (hi _ hmem) h

/-- A test of a score of the executing entity. -/
theorem ifOwn {objective : String} {range : ScoreRange} {v : Int32} (hl : w.IsLiving id)
    (ho : w.hasObjective objective = true) (hv : w.score? id objective = some v)
    (h : if range.contains v then Does d (.execute rest c) (some id) w Q else Q w) :
    Does d (.execute (Marionette.ifOwn objective range :: rest) c) (some id) w Q := by
  refine Does.execute_score ho ?_
  rw [firstScore?_this hl, hv]
  simpa using h

/-- A test of a tag of the executing entity. -/
theorem ifTagged {tag : String} (hl : w.IsLiving id)
    (h : if w.hasTag id tag then Does d (.execute rest c) (some id) w Q else Q w) :
    Does d (.execute (.ifEntity (Selector.this.tagged tag) :: rest) c) (some id) w Q := by
  refine Does.execute_entity ?_
  rw [select_this_tagged hl]
  cases ht : w.hasTag id tag <;> simpa [ht] using h

/-- A test for the absence of a tag of the executing entity. -/
theorem unlessTagged {tag : String} (hl : w.IsLiving id)
    (h : if w.hasTag id tag then Q w else Does d (.execute rest c) (some id) w Q) :
    Does d (.execute (.unlessEntity (Selector.this.tagged tag) :: rest) c) (some id) w Q := by
  refine Does.execute_entity ?_
  rw [select_this_tagged hl]
  cases ht : w.hasTag id tag <;> simpa [ht] using h

end Does

end World

end Marionette
