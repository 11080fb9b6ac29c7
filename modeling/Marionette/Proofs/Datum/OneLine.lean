import Marionette.Proofs.Lines.Texts

/-!
# Where compact data ends a line

The compact form has no layout of its own, and line feeds within texts and keys are escaped.
Carriage returns are not: each of them stands in the compact form as it is.

- `Datum.breaksAtReturns_render`: the compact form holds no line feed, and it stays on one line if
  and only if no text or key holds a carriage return.
- `Datum.not_isLine_return`: a text of three characters whose compact form has two lines.
-/

namespace Marionette

namespace Datum

/-- Something has a text, which holds no line feed and stays on one line if and only if none of the
given texts holds a carriage return. -/
def BreaksAtReturns (texts : List String) (result : Except Fault String) : Prop :=
  ∃ t, result = .ok t ∧ '\n' ∉ t.toList ∧ (IsLine t ↔ ∀ s ∈ texts, Marionette.HasNoReturn s)

theorem breaksAtReturns_of_isFinite {d : Datum} (hd : d.IsFinite) :
    BreaksAtReturns d.texts (d.render .compact) := by
  obtain ⟨t, ht⟩ := exists_renderAt .compact 0 d hd
  have hends := lineEnds_renderAt 0 d ht
  refine ⟨t, ht, fun hmem => ?_, ?_⟩
  · -- a line feed would be among the line ends, and these are carriage returns
    have hfeed : '\n' ∈ lineEnds t.toList := List.mem_filter.2 ⟨hmem, by decide⟩
    rw [hends, List.mem_flatMap] at hfeed
    obtain ⟨s, -, hs⟩ := hfeed
    exact absurd (List.mem_filter.1 hs).2 (by decide)
  · calc IsLine t ↔ lineEnds t.toList = [] := lineEnds_eq_nil_iff.symm
      _ ↔ ∀ s ∈ d.texts, returns s = [] := by rw [hends, List.flatMap_eq_nil_iff]
      _ ↔ ∀ s ∈ d.texts, Marionette.HasNoReturn s := by simp only [returns_eq_nil_iff]

/-- Values, compounds and lists whose floats are finite have compact forms without line feeds, in
which a line can end only at a carriage return of a text or key. -/
theorem breaksAtReturns_render {d : Datum} {entries : Compound} {items : List Datum}
    (hd : d.IsFinite) (hentries : ∀ e ∈ entries, e.2.IsFinite)
    (hitems : ∀ item ∈ items, item.IsFinite) :
    BreaksAtReturns d.texts (d.render .compact) ∧
      BreaksAtReturns (entryTexts entries) (Compound.render .compact entries) ∧
      BreaksAtReturns (itemTexts items) ((list items).render .compact) := by
  refine ⟨breaksAtReturns_of_isFinite hd, ?_, ?_⟩
  · have hcompound : (compound entries).IsFinite := by
      rw [IsFinite, entriesFinite_iff]
      exact hentries
    have h := breaksAtReturns_of_isFinite hcompound
    rwa [texts] at h
  · have hlist : (list items).IsFinite := by
      rw [IsFinite, allFinite_iff]
      exact hitems
    have h := breaksAtReturns_of_isFinite hlist
    rwa [texts] at h

/-- Line feeds in a text and in a key, and a carriage return below the key. -/
theorem breaksAtReturns_render_letter :
    BreaksAtReturns ["dear\n", "\nall", "yours\r"]
        ((compound [("dear\n", compound [("\nall", string "yours\r")])]).render .compact) ∧
      BreaksAtReturns ["x"] (Compound.render .compact [("x", double 0.5)]) ∧
      BreaksAtReturns ["a", "b\n"] ((list [string "a", string "b\n"]).render .compact) := by
  have hletter : (compound [("dear\n", compound [("\nall", string "yours\r")])]).IsFinite := by
    simp [IsFinite, EntriesFinite]
  have hentries : ∀ e ∈ [("x", double 0.5)], e.2.IsFinite := by
    simp only [List.forall_mem_cons, IsFinite]
    exact ⟨by decide, List.forall_mem_nil _⟩
  have hitems : ∀ item ∈ [string "a", string "b\n"], item.IsFinite := by simp [IsFinite]
  exact breaksAtReturns_render hletter hentries hitems

/-- A carriage return in a text ends a line of the compact form. -/
theorem not_isLine_return :
    (string "a\rb").IsFinite ∧ (string "a\rb").render .compact = .ok "\"a\rb\"" ∧
      ¬IsLine "\"a\rb\"" :=
  ⟨trivial, rfl, by decide⟩

end Datum

end Marionette
