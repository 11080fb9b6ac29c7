import Marionette.Config
import Marionette.Proofs.Names
import Marionette.Proofs.Results

/-!
# Settings that pass their check

- `Config.check_eq_ok_iff`: settings pass if each of them does.
- `Config.checkNamespace_eq`: a name space passes if it is a safe name.
- `Config.check_withNamespace_iff`, `Config.check_withNamespace_eq_error`: which name spaces
  settings may have, and why others are refused.
- `isRetraction_safe`: the safe names of this library, and the name spaces that settings may have.
-/

namespace Marionette

namespace Config

variable {c : Config}

/-- Settings pass if each of them does. -/
theorem check_eq_ok_iff : c.check = .ok () ↔ c.checkJumpOffset = .ok () ∧
    ¬(c.precision < 1 ∨ 8 < c.precision) ∧ c.tweenDuration ≠ 0 ∧ c.checkNamespace = .ok () ∧
    c.checkManifestName = .ok () := by
  unfold check
  rw [unit_bind_eq_ok]
  refine and_congr_right fun _ => ?_
  by_cases hprecision : c.precision < 1 ∨ 8 < c.precision
  · rw [if_pos hprecision]
    exact ⟨(nomatch ·), fun h => absurd hprecision h.1⟩
  by_cases htween : c.tweenDuration = 0
  · rw [if_neg hprecision, if_pos htween]
    exact ⟨(nomatch ·), fun h => absurd htween h.2.1⟩
  · rw [if_neg hprecision, if_neg htween]
    simp only [hprecision, htween, not_false_eq_true, ne_eq, true_and]
    exact unit_bind_eq_ok

/-- A name space is refused if it is no safe name, with a text that shows it. -/
theorem checkNamespace_eq (c : Config) : c.checkNamespace =
    match c.namespaceName with
    | none => .ok ()
    | some name =>
      if IsStorageName name then .ok ()
      else .error (.invalidConfig s!"namespace '{name}' must match [a-z0-9_]+") := by
  unfold checkNamespace
  cases c.namespaceName with
  | none => rfl
  | some name =>
    dsimp only
    by_cases hsafe : IsStorageName name
    · have hpasses : ¬(name.isEmpty || storageSafe name != name) = true := by
        simp [hsafe.ne_empty, Lowering.basic.storageSafe_eq hsafe, ← Lowering.storageSafe_basic]
      rw [if_neg hpasses, if_pos hsafe]
    · have hrefused : (name.isEmpty || storageSafe name != name) = true := by
        rw [Bool.or_eq_true, bne_iff_ne]
        exact .inr fun heq => hsafe (heq ▸ isStorageName_storageSafe name)
      rw [if_pos hrefused, if_neg hsafe]

/-! ### Name spaces -/

/-- Settings with another name space. -/
def withNamespace (c : Config) (name : Option String) : Config :=
  { c with namespaceName := name }

/-- A name space is accepted if the other settings are, and if it is a safe name. -/
theorem check_withNamespace_iff (c : Config) (name : String) :
    (c.withNamespace (some name)).check = .ok () ↔
      (c.withNamespace none).check = .ok () ∧ IsStorageName name := by
  have hsafe : (c.withNamespace (some name)).checkNamespace = .ok () ↔ IsStorageName name := by
    rw [checkNamespace_eq]
    by_cases h : IsStorageName name
    · simp [withNamespace, h]
    · simp [withNamespace, h]
  have hnone : (c.withNamespace none).checkNamespace = .ok () := rfl
  rw [check_eq_ok_iff, check_eq_ok_iff, hsafe, hnone]
  constructor
  · rintro ⟨hoffset, hprecision, htween, hname, hmanifest⟩
    exact ⟨⟨hoffset, hprecision, htween, rfl, hmanifest⟩, hname⟩
  · rintro ⟨⟨hoffset, hprecision, htween, -, hmanifest⟩, hname⟩
    exact ⟨hoffset, hprecision, htween, hname, hmanifest⟩

/-- Where the other settings are accepted and the name space is not, the reason is about it. -/
theorem check_withNamespace_eq_error {c : Config} {name : String}
    (h : (c.withNamespace none).check = .ok ()) (hname : ¬IsStorageName name) :
    (c.withNamespace (some name)).check =
      .error (.invalidConfig s!"namespace '{name}' must match [a-z0-9_]+") := by
  obtain ⟨hoffset, hprecision, htween, -, -⟩ := check_eq_ok_iff.1 h
  have hoffset' : (c.withNamespace (some name)).checkJumpOffset = .ok () := hoffset
  have hprecision' :
      ¬((c.withNamespace (some name)).precision < 1 ∨
        8 < (c.withNamespace (some name)).precision) :=
    hprecision
  have htween' : (c.withNamespace (some name)).tweenDuration ≠ 0 := htween
  have hrefused : (c.withNamespace (some name)).checkNamespace =
      .error (.invalidConfig s!"namespace '{name}' must match [a-z0-9_]+") := by
    rw [checkNamespace_eq]
    exact if_neg hname
  rw [check, hoffset', if_neg hprecision', if_neg htween', hrefused]
  rfl

end Config

/-- Under any lower-casing, safe names for objectives and tags are the texts over `[a-z0-9_]` that
are not empty, and safe names for paths those over `[a-z0-9_.-]` that do not begin with a dot
either.  The safe names of this library are such, and settings accept just the former as a name
space. -/
theorem isRetraction_safe :
    (∀ l : Lowering,
      IsRetraction l.storageSafe IsStorageName ∧ IsRetraction l.pathSafe IsPathSegment) ∧
    IsRetraction storageSafe IsStorageName ∧ IsRetraction pathSafe IsPathSegment ∧
    ∀ (c : Config) (name : String),
      ((c.withNamespace (some name)).check = .ok () ↔
        (c.withNamespace none).check = .ok () ∧ IsStorageName name) ∧
      ((c.withNamespace none).check = .ok () → ¬IsStorageName name →
        (c.withNamespace (some name)).check =
          .error (.invalidConfig s!"namespace '{name}' must match [a-z0-9_]+")) := by
  refine ⟨fun l => ⟨l.isRetraction_storageSafe, l.isRetraction_pathSafe⟩, ?_, ?_,
    fun c name => ⟨?_, ?_⟩⟩
  · rw [← Lowering.storageSafe_basic]
    exact Lowering.basic.isRetraction_storageSafe
  · rw [← Lowering.pathSafe_basic]
    exact Lowering.basic.isRetraction_pathSafe
  · exact c.check_withNamespace_iff name
  · exact Config.check_withNamespace_eq_error

end Marionette
