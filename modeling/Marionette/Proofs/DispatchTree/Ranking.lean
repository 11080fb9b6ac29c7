import Mathlib
import Marionette.Frame

/-!
# The order that picks between entries and effects

Where frames share a tick, the entry or the effect that sorts last wins.

- Orders of the effects: total, and equal only on equal effects.
- `NodeEntry.ranked`: what of an entry takes part in the order.
- `NodeEntry.compare_eq_iff`: two entries tie just when that part is the same.
- `SortsLast`: a value wins among those of a set; `SortsLast.compare_eq`: two winners tie.
-/

namespace Marionette

/-! ### Effects -/

instance : Std.TransOrd Uuid :=
  inferInstanceAs (Std.TransCmp (compareOn fun u : Uuid => u.bits.toNat))

instance : Std.LawfulEqOrd Uuid where
  eq_of_compare {a b} h := by
    have hbits : a.bits.toNat = b.bits.toNat := Std.LawfulEqOrd.eq_of_compare h
    cases a
    cases b
    exact congrArg Uuid.mk (BitVec.eq_of_toNat_eq hbits)

/-- Effects of variants are ordered by the variants, then by the condition. -/
theorem compare_variantEffect :
    (compare : VariantEffect → VariantEffect → Ordering) =
      compareLex (compareOn VariantEffect.variants) (compareOn VariantEffect.condition) := by
  funext a b
  cases a
  cases b
  simp [compare, compareLex, compareOn, instOrdVariantEffect.ord]

instance : Std.TransOrd VariantEffect := by
  rw [Std.TransOrd, compare_variantEffect]
  infer_instance

instance : Std.LawfulEqOrd VariantEffect where
  eq_of_compare {a b} h := by
    cases a
    cases b
    simpa [compare_variantEffect, compareLex, compareOn, Ordering.then_eq_eq] using h

/-- Effects of the root are ordered by the commands, then by the condition. -/
theorem compare_commandEffect :
    (compare : CommandEffect → CommandEffect → Ordering) =
      compareLex (compareOn CommandEffect.commands) (compareOn CommandEffect.condition) := by
  funext a b
  cases a
  cases b
  simp [compare, compareLex, compareOn, instOrdCommandEffect.ord]

instance : Std.TransOrd CommandEffect := by
  rw [Std.TransOrd, compare_commandEffect]
  infer_instance

instance : Std.LawfulEqOrd CommandEffect where
  eq_of_compare {a b} h := by
    cases a
    cases b
    simpa [compare_commandEffect, compareLex, compareOn, Ordering.then_eq_eq] using h

/-- Effects of locators are ordered by the commands, the condition and the two sides of
repetition. -/
theorem compare_locatorEffect :
    (compare : LocatorEffect → LocatorEffect → Ordering) =
      compareLex (compareOn LocatorEffect.commands) (compareLex (compareOn LocatorEffect.condition)
        (compareLex (compareOn LocatorEffect.repeats)
          (compareOn LocatorEffect.repeatFrequency))) := by
  funext a b
  cases a
  cases b
  simp [compare, compareLex, compareOn, instOrdLocatorEffect.ord]

instance : Std.TransOrd LocatorEffect := by
  rw [Std.TransOrd, compare_locatorEffect]
  infer_instance

instance : Std.LawfulEqOrd LocatorEffect where
  eq_of_compare {a b} h := by
    cases a
    cases b
    simpa [compare_locatorEffect, compareLex, compareOn, Ordering.then_eq_eq] using h

instance : Std.TransOrd Marker :=
  inferInstanceAs (Std.TransCmp (compareOn Marker.ctorIdx))

instance : Std.LawfulEqOrd Marker where
  eq_of_compare {a b} h := by
    cases a <;> cases b <;> first | rfl | cases h

/-! ### Entries of nodes -/

theorem totalKey_inj {x y : Float} (h : totalKey x = totalKey y) : x = y := by
  have hx := x.toBits.toNat_lt
  have hy := y.toBits.toNat_lt
  have hbits : x.toBits.toNat = y.toBits.toNat := by
    simp only [totalKey] at h
    split at h <;> split at h <;> omega
  exact Float.toBits_inj.1 (UInt64.toNat_inj.1 hbits)

theorem compareDoubles_eq_iff {a b : List Float} : compareDoubles a b = .eq ↔ a = b := by
  rw [compareDoubles, Std.LawfulEqOrd.compare_eq_iff_eq]
  exact ⟨fun h => List.map_injective_iff.2 (fun _ _ => totalKey_inj) h, congrArg _⟩

namespace NodeEntry

/-- The part of an entry that takes part in the order: all but offset, rotation and scale. -/
def ranked (e : NodeEntry) : NodeEntry :=
  { e with pose := { e.pose with offset := .zero, rotation := .one, scale := .one } }

/-- Two entries tie just when they agree in all but offset, rotation and scale. -/
theorem compare_eq_iff {a b : NodeEntry} : a.compare b = .eq ↔ a.ranked = b.ranked := by
  obtain ⟨⟨matrix, offset, rotation, scale, pitch, yaw, marker⟩, effect⟩ := a
  obtain ⟨⟨matrix', offset', rotation', scale', pitch', yaw', marker'⟩, effect'⟩ := b
  simp only [NodeEntry.compare, Ordering.then_eq_eq, compareDoubles_eq_iff,
    Std.LawfulEqOrd.compare_eq_iff_eq, ranked, NodeEntry.mk.injEq, Pose.mk.injEq, Vector.toList_inj,
    List.cons.injEq, and_true, true_and, and_assoc]

instance : Std.TransCmp NodeEntry.compare :=
  inferInstanceAs (Std.TransCmp (compareLex
    (compareOn fun e : NodeEntry => e.pose.matrix.toList.map totalKey)
    (compareLex (compareOn fun e : NodeEntry => [e.pose.pitch, e.pose.yaw].map totalKey)
      (compareLex (compareOn fun e : NodeEntry => e.pose.marker)
        (compareOn fun e : NodeEntry => e.effect)))))

end NodeEntry

/-! ### Winners -/

/-- A value of a set that no value of the set sorts after. -/
structure SortsLast {α : Type} (cmp : α → α → Ordering) (S : α → Prop) (x : α) : Prop where
  mem : S x
  isLE : ∀ y, S y → (cmp y x).isLE

namespace SortsLast

variable {α : Type} {cmp : α → α → Ordering} {S : α → Prop} {x y : α}

theorem single [Std.ReflCmp cmp] : SortsLast cmp (· = x) x where
  mem := rfl
  isLE := by
    rintro y rfl
    exact Std.ReflCmp.isLE_rfl

theorem congr {S' : α → Prop} (h : SortsLast cmp S x) (hS : ∀ y, S y ↔ S' y) :
    SortsLast cmp S' x where
  mem := (hS x).1 h.mem
  isLE := fun y hy => h.isLE y ((hS y).2 hy)

/-- Two winners tie. -/
theorem compare_eq [Std.OrientedCmp cmp] (hx : SortsLast cmp S x) (hy : SortsLast cmp S y) :
    cmp x y = .eq :=
  Std.OrientedCmp.isLE_antisymm (hy.isLE x hx.mem) (hx.isLE y hy.mem)

/-- With one more value, the winner is that value or the winner before. -/
theorem pick [Std.TransCmp cmp] (hx : SortsLast cmp S x) (y : α) :
    SortsLast cmp (fun z => S z ∨ z = y) (if cmp y x = .gt then y else x) := by
  split
  · rename_i hgt
    have hle : (cmp x y).isLE := by
      rw [show cmp x y = (cmp y x).swap from Std.OrientedCmp.eq_swap, hgt]
      rfl
    refine ⟨.inr rfl, ?_⟩
    rintro z (hz | rfl)
    · exact Std.TransCmp.isLE_trans (hx.isLE z hz) hle
    · exact Std.ReflCmp.isLE_rfl
  · rename_i hle
    refine ⟨.inl hx.mem, ?_⟩
    rintro z (hz | rfl)
    · exact hx.isLE z hz
    · exact Ordering.ne_gt_iff_isLE.1 hle

/-- The later of two effects wins. -/
theorem later [Ord α] [Std.TransOrd α] [Std.LawfulEqOrd α] {S : Option α → Prop} {x : Option α}
    (hx : SortsLast compare S x) (y : Option α) :
    SortsLast compare (fun z => S z ∨ z = y) (Frame.later x y) := by
  have heq : Frame.later x y = if compare y x = .gt then y else x := by
    unfold Frame.later
    cases hcmp : compare y x with
    | lt | gt => rfl
    | eq => exact Std.LawfulEqOrd.eq_of_compare hcmp
  exact heq ▸ hx.pick y

end SortsLast

end Marionette
