import Mathlib.Data.List.Forall2
import Marionette.Functions.Rig

/-!
# Results of steps that may fail

- `exists_of_bind_ok`: where two steps in order succeed, each of them does; `bind_cases`: where the
  first fails, they fail; `unit_bind_eq_ok`: the first one is a check.
- `exists_ok_of_any`: a step succeeds if a test of its result does.
- `forall₂_of_mapM_ok`: where a step succeeds for all elements of a list, the results stand beside
  the elements.
- `forall_of_forM_ok`: where a check passes for a list, it passes for each element.
- `forall_of_forIn_ok`, `exists_of_forIn_error`: the same of loops, and of loops that fail.
- `exists_of_mem_right`, `map_eq_map_of_forall₂`: lists whose elements stand side by side.
- `mapError_eq_ok`, `orFail_eq_ok`, `orUnwritable_eq_ok`: naming the failure keeps success.
- `Ensures`: a property of the result, for steps that have one.
- `FailsOnly`: a property of the reason, for steps that fail; `FailsOnly.bind`, `FailsOnly.mapM` and
  `FailsOnly.forM` follow the steps.
-/

namespace Marionette

variable {ε α β : Type}

/-- Where two steps in order succeed, the first does, and the second does with its result. -/
theorem exists_of_bind_ok {x : Except ε α} {f : α → Except ε β} {b : β} (h : x >>= f = .ok b) :
    ∃ a, x = .ok a ∧ f a = .ok b := by
  cases x with
  | error e => cases h
  | ok a => exact ⟨a, rfl, h⟩

/-- Of two steps in order the first fails, or the second is made with its result. -/
theorem bind_cases {x : Except ε α} {f : α → Except ε β} {y : Except ε β} (h : x >>= f = y) :
    (∃ e, x = .error e ∧ y = .error e) ∨ ∃ a, x = .ok a ∧ f a = y := by
  cases x with
  | error e => exact .inl ⟨e, rfl, h.symm⟩
  | ok a => exact .inr ⟨a, rfl, h⟩

/-- A check in front of a step has to pass, and nothing else comes of it. -/
theorem unit_bind_eq_ok {x : Except ε Unit} {y : Except ε β} {b : β} :
    (x >>= fun _ => y) = .ok b ↔ x = .ok () ∧ y = .ok b := by
  cases x with
  | error e => exact ⟨(nomatch ·), fun h => nomatch h.1⟩
  | ok => exact ⟨fun h => ⟨rfl, h⟩, fun h => h.2⟩

/-- Where a result is used further, there is one. -/
theorem exists_of_map_ok {x : Except ε α} {f : α → β} {b : β} (h : x.map f = .ok b) :
    ∃ a, x = .ok a ∧ f a = b := by
  cases x with
  | error e => cases h
  | ok a => exact ⟨a, rfl, Except.ok.inj h⟩

/-- Where a step succeeds for all elements of a list, the results stand beside the elements. -/
theorem forall₂_of_mapM_ok {f : α → Except ε β} {xs : List α} {ys : List β}
    (h : xs.mapM f = .ok ys) : List.Forall₂ (fun x y => f x = .ok y) xs ys := by
  induction xs generalizing ys with
  | nil =>
    cases h
    exact .nil
  | cons x xs ih =>
    rw [List.mapM_cons] at h
    obtain ⟨y, hy, h⟩ := exists_of_bind_ok h
    obtain ⟨ys, hys, h⟩ := exists_of_bind_ok h
    cases h
    exact .cons hy (ih hys)

/-- Where a step succeeds for each element of a list, it succeeds for the list. -/
theorem exists_mapM_ok {f : α → Except ε β} {xs : List α} (h : ∀ x ∈ xs, ∃ y, f x = .ok y) :
    ∃ ys, xs.mapM f = .ok ys := by
  induction xs with
  | nil => exact ⟨[], rfl⟩
  | cons x xs ih =>
    obtain ⟨hx, hxs⟩ := List.forall_mem_cons.1 h
    obtain ⟨y, hy⟩ := hx
    obtain ⟨ys, hys⟩ := ih hxs
    refine ⟨y :: ys, ?_⟩
    rw [List.mapM_cons, hy, hys]
    rfl

/-- What stands on the right stands beside something on the left. -/
theorem exists_of_mem_right {R : α → β → Prop} {xs : List α} {ys : List β} {y : β}
    (h : List.Forall₂ R xs ys) (hy : y ∈ ys) : ∃ x ∈ xs, R x y := by
  obtain ⟨⟨place, hplace⟩, rfl⟩ := List.mem_iff_get.1 hy
  have hplace' : place < xs.length := h.length_eq ▸ hplace
  exact ⟨xs.get ⟨place, hplace'⟩, List.get_mem _ _, h.get hplace' hplace⟩

/-- What stands on the left stands beside something on the right. -/
theorem exists_of_mem_left {R : α → β → Prop} {xs : List α} {ys : List β} {x : α}
    (h : List.Forall₂ R xs ys) (hx : x ∈ xs) : ∃ y ∈ ys, R x y :=
  exists_of_mem_right (List.Forall₂.flip h) hx

/-- Lists of which elements side by side agree have the same images. -/
theorem map_eq_map_of_forall₂ {γ : Type} {f : α → γ} {g : β → γ} {xs : List α} {ys : List β}
    (h : List.Forall₂ (fun x y => f x = g y) xs ys) : xs.map f = ys.map g := by
  rw [← List.forall₂_eq_eq_eq]
  exact List.forall₂_map_left_iff.2 (List.forall₂_map_right_iff.2 h)

/-- Where a check passes for a list, it passes for each element. -/
theorem forall_of_forM_ok {f : α → Except ε Unit} {xs : List α} (h : xs.forM f = .ok ()) :
    ∀ x ∈ xs, f x = .ok () := by
  induction xs with
  | nil => exact fun x hx => nomatch hx
  | cons x xs ih =>
    obtain ⟨_, hx, hxs⟩ := exists_of_bind_ok h
    exact List.forall_mem_cons.2 ⟨hx, ih hxs⟩

section Loop

variable {f : α → Unit → Except ε (ForInStep Unit)} {xs : List α}

/-- Where a loop that does not stop early succeeds, it succeeds for each element. -/
theorem forall_of_forIn_ok (hf : ∀ x, f x () ≠ .ok (.done ())) (h : forIn xs () f = .ok ()) :
    ∀ x ∈ xs, f x () = .ok (.yield ()) := by
  induction xs with
  | nil => exact fun x hx => nomatch hx
  | cons x xs ih =>
    rw [List.forIn_cons] at h
    obtain ⟨step, hx, h⟩ := exists_of_bind_ok h
    cases step with
    | done => exact absurd hx (hf x)
    | yield => exact List.forall_mem_cons.2 ⟨hx, ih h⟩

/-- Where a loop fails, it fails for one of the elements. -/
theorem exists_of_forIn_error {e : ε} (h : forIn xs () f = .error e) :
    ∃ x ∈ xs, f x () = .error e := by
  induction xs with
  | nil => nomatch h
  | cons x xs ih =>
    rw [List.forIn_cons] at h
    rcases bind_cases h with ⟨e', hx, he⟩ | ⟨step, -, h⟩
    · cases he
      exact ⟨x, List.mem_cons_self, hx⟩
    · cases step with
      | done => cases h
      | yield =>
        obtain ⟨y, hy, hfail⟩ := ih h
        exact ⟨y, List.mem_cons_of_mem _ hy, hfail⟩

end Loop

/-- A step succeeds if a test of its result does. -/
theorem exists_ok_of_any {x : Except ε α} {test : α → Bool} (h : x.toOption.any test = true) :
    ∃ a, x = .ok a ∧ test a = true := by
  cases x with
  | error e => cases h
  | ok a => exact ⟨a, rfl, h⟩

/-- Naming a failure anew keeps success as it is. -/
theorem mapError_eq_ok {ε' : Type} {g : ε → ε'} {x : Except ε α} {a : α} :
    x.mapError g = .ok a ↔ x = .ok a := by
  cases x with
  | error e => exact ⟨(nomatch ·), (nomatch ·)⟩
  | ok b =>
    show Except.ok b = Except.ok a ↔ _
    rw [Except.ok.injEq, Except.ok.injEq]

/-- A step of the baker succeeds as part of the whole if it does by itself. -/
theorem orFail_eq_ok {x : Except BakeError α} {a : α} : orFail x = .ok a ↔ x = .ok a :=
  mapError_eq_ok

/-- So does the writing of a datum. -/
theorem orUnwritable_eq_ok {x : Except Datum.Fault α} {a : α} :
    orUnwritable x = .ok a ↔ x = .ok a :=
  mapError_eq_ok

/-- The result has a property if there is one; a step that fails promises nothing. -/
def Ensures (x : Except ε α) (p : α → Prop) : Prop :=
  match x with
  | .ok a => p a
  | .error _ => True

theorem Ensures.intro {x : Except ε α} {p : α → Prop} (h : ∀ a, x = .ok a → p a) : Ensures x p := by
  cases x with
  | error e => trivial
  | ok a => exact h a rfl

theorem Ensures.apply {x : Except ε α} {p : α → Prop} (h : Ensures x p) {a : α} (hx : x = .ok a) :
    p a := by
  rwa [hx] at h

/-! ### Reasons to fail -/

/-- A step fails only for reasons of a kind. -/
def FailsOnly (p : ε → Prop) (x : Except ε α) : Prop :=
  match x with
  | .ok _ => True
  | .error e => p e

namespace FailsOnly

variable {p q : ε → Prop} {x : Except ε α}

/-- Success fails for no reason. -/
theorem ok (a : α) : FailsOnly p (.ok a : Except ε α) := trivial

theorem of_eq_ok {a : α} (h : x = .ok a) : FailsOnly p x := h ▸ trivial

/-- The reason for a failure. -/
theorem apply (h : FailsOnly p x) {e : ε} (hx : x = .error e) : p e := by
  rwa [hx] at h

/-- Reasons may be given more generally. -/
theorem imp (h : FailsOnly p x) (hpq : ∀ e, p e → q e) : FailsOnly q x := by
  cases x with
  | ok a => trivial
  | error e => exact hpq e h

/-- Steps in order fail only for reasons of a kind if each of them does. -/
theorem bind {f : α → Except ε β} (h : FailsOnly p x) (hf : ∀ a, x = .ok a → FailsOnly p (f a)) :
    FailsOnly p (x >>= f) := by
  cases x with
  | ok a => exact hf a rfl
  | error e => exact h

/-- Working on the result adds no failure. -/
theorem map {f : α → β} (h : FailsOnly p x) : FailsOnly p (x.map f) := by
  cases x with
  | ok a => trivial
  | error e => exact h

/-- Whichever way is taken. -/
theorem branch {c : Prop} [Decidable c] {y : Except ε α} (hx : FailsOnly p x)
    (hy : FailsOnly p y) : FailsOnly p (if c then x else y) := by
  by_cases hc : c
  · rwa [if_pos hc]
  · rwa [if_neg hc]

/-- For a list, the reasons are those of the elements. -/
theorem mapM {f : α → Except ε β} {xs : List α} (h : ∀ a ∈ xs, FailsOnly p (f a)) :
    FailsOnly p (xs.mapM f) := by
  induction xs with
  | nil => exact ok []
  | cons a xs ih =>
    rw [List.mapM_cons]
    refine (h a List.mem_cons_self).bind fun b _ => ?_
    exact (ih fun a ha => h a (List.mem_cons_of_mem _ ha)).bind fun bs _ => ok _

/-- And likewise where only the effects matter. -/
theorem forM {f : α → Except ε PUnit} {xs : List α} (h : ∀ a ∈ xs, FailsOnly p (f a)) :
    FailsOnly p (xs.forM f) := by
  induction xs with
  | nil => exact ok _
  | cons a xs ih =>
    show FailsOnly p (f a >>= fun _ => xs.forM f)
    exact (h a List.mem_cons_self).bind fun _ _ =>
      ih fun a ha => h a (List.mem_cons_of_mem _ ha)

end FailsOnly

end Marionette
