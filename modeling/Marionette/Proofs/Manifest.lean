import Mathlib.Data.String.Basic
import Mathlib.Order.Basic
import Marionette.Emission
import Marionette.Proofs.Bisection
import Marionette.Proofs.Json.Texts
import Marionette.Proofs.Results

/-!
# The list of written files

- `Manifest.contains_iff`: searching an ordered list finds the paths that it holds and no others.
- `Manifest.ofText_text`: a list with a file is read back as it was written.
- `mem_manifestOf`, `pairwise_manifestOf`: the list of a pack holds its paths and that of the list
  itself, in order.
-/

namespace Marionette

namespace Manifest

/-- Searching an ordered list finds the paths that it holds and no others. -/
theorem contains_iff {m : Manifest} (hm : m.files.Pairwise (· < ·)) (path : String) :
    m.contains path = true ↔ path ∈ m.files := by
  unfold contains
  dsimp only
  rw [beq_iff_eq, List.size_toArray]
  constructor
  · intro h
    rw [List.getElem?_toArray] at h
    exact List.mem_of_getElem? h
  · intro h
    obtain ⟨last, hlast, rfl⟩ := List.mem_iff_getElem.1 h
    have hfound : Bisection.narrow
        (fun i => (m.files.toArray[i]?).any fun f => !decide (m.files[last] < f)) m.files.length 0 =
          last := by
      refine Bisection.narrow_getElem (κ := String) hm hlast fun i hi => ?_
      have hentry : m.files.toArray[i]? = some m.files[i] := by
        rw [List.getElem?_toArray, List.getElem?_eq_getElem hi]
      rw [hentry, Option.any_some, Bool.not_eq_true', decide_eq_false_iff_not, not_lt]
    rw [hfound, List.getElem?_toArray, List.getElem?_eq_getElem hlast]

/-- A list with a file is read back as it was written. -/
theorem ofText_text {m : Manifest} (h : m.files ≠ []) : ofText m.text = .ok m := by
  obtain ⟨files⟩ := m
  obtain ⟨x, xs, rfl⟩ := List.exists_cons_of_ne_nil h
  have htexts : (Decoder.list Decoder.text) (.arr ((x :: xs).map .str)) = .ok (x :: xs) := by
    have hall (ys : List String) : (ys.map Json.str).mapM Decoder.text = .ok ys := by
      induction ys with
      | nil => rfl
      | cons y ys ih =>
        rw [List.map_cons, List.mapM_cons, ih]
        rfl
    exact hall (x :: xs)
  have hread := Json.readRecord?_pretty "files" x xs
  unfold ofText text Json.ofTexts
  rw [Decoder.ofRecordText, hread]
  show (Json.field (.obj [("files", .arr ((x :: xs).map .str))]) "files"
    (Decoder.list Decoder.text)).map mk = _
  have hfield (v : Json) : Json.field (.obj [("files", v)]) "files" (Decoder.list Decoder.text) =
      Decoder.list Decoder.text v := rfl
  rw [hfield, htexts]
  rfl

end Manifest

/-- The list of a pack holds its paths and that of the list itself. -/
theorem mem_manifestOf {pack : Datapack} {config : Config} {path : String} :
    path ∈ (manifestOf pack config).files ↔ path = config.manifestName ∨ path ∈ pack.paths := by
  unfold manifestOf
  simp only [List.mem_append, List.mem_filter, List.mem_singleton, decide_eq_true_eq]
  constructor
  · rintro ((⟨h, -⟩ | h) | ⟨h, -⟩)
    · exact .inr h
    · exact .inl h
    · exact .inr h
  · rintro (h | h)
    · exact .inl (.inr h)
    · rcases lt_trichotomy path config.manifestName with hlt | heq | hgt
      · exact .inl (.inl ⟨h, hlt⟩)
      · exact .inl (.inr heq)
      · exact .inr ⟨h, hgt⟩

/-- The list of a pack is in order. -/
theorem pairwise_manifestOf (pack : Datapack) (config : Config) :
    (manifestOf pack config).files.Pairwise (· < ·) := by
  have hpaths : pack.paths.Pairwise (· < ·) :=
    (Std.TreeMap.ordered_keys (t := pack.files)).imp fun h => compareOfLessAndEq_eq_lt.1 h
  unfold manifestOf
  rw [List.pairwise_append, List.pairwise_append]
  refine ⟨⟨hpaths.filter _, List.pairwise_singleton _ _, ?_⟩, hpaths.filter _, ?_⟩
  · intro a ha b hb
    rw [List.mem_singleton.1 hb]
    exact of_decide_eq_true (List.mem_filter.1 ha).2
  · intro a ha b hb
    have hb : config.manifestName < b := of_decide_eq_true (List.mem_filter.1 hb).2
    rcases List.mem_append.1 ha with ha | ha
    · exact lt_trans (of_decide_eq_true (List.mem_filter.1 ha).2) hb
    · rw [List.mem_singleton.1 ha]
      exact hb

end Marionette
