import Marionette.Proofs.Isolation.Roots
import Marionette.Proofs.World.Twins

/-!
# Other households

What a caller runs as one root leaves the other roots alone, with all that rides them: their looks,
their tags and their scores.

- `World.Houses`: an entity is a root or one of its passengers.
- `World.SameHousehold`: nothing has happened to a root and to its passengers.
- `KeepsTo.sameHousehold`: what keeps to one household leaves the others alone.
- `Removes`: a household of which some entities have been removed; `RunsOnly.remove`: removing an
  instance does no more than that.
- `RunsOnly.run_sameHousehold`: every function but three leaves the other households alone.
-/

namespace Marionette

namespace World

/-- The entity belongs to a household: it is the root, or it rides the root. -/
def Houses (w : World) (root i : Nat) : Prop :=
  i = root ∨ w.Carries root i

/-- A root and its passengers are as they were, and so are all of their scores. -/
structure SameHousehold (root : Nat) (w w' : World) : Prop where
  entity? : ∀ i, w.Houses root i → w'.entity? i = w.entity? i
  score? : ∀ i, w.Houses root i → ∀ objective, w'.score? i objective = w.score? i objective

/-- The entity rides nothing. -/
def IsFree (w : World) (id : Nat) : Prop :=
  ∀ e, w.entity? id = some e → e.vehicle = none

theorem IsRoot.isFree {w : World} {v : RuntimeNames} {config : Config} {root : Nat}
    (h : w.IsRoot v config root) (hw : w.Unmounted v.rootTag) : w.IsFree root := by
  obtain ⟨e, he, -, -, htag⟩ := h
  intro e' he'
  obtain rfl := Option.some.inj (he.symm.trans he')
  exact hw root e he htag

variable {w w' u : World} {root other : Nat}

/-- What belongs to a household rides its root or nothing. -/
theorem Houses.vehicle_eq {i : Nat} {e : Entity} (h : w.Houses root i) (ht : Tied [] w.entities)
    (hfree : w.IsFree root) (he : w.entity? i = some e) :
    e.vehicle = none ∨ e.vehicle = some root := by
  rcases h with rfl | hcarries
  · exact .inl (hfree e he)
  · obtain ⟨q, hq, hvehicle, -⟩ := hcarries.vehicle_eq ht
    obtain rfl := Option.some.inj (he.symm.trans hq)
    exact .inr hvehicle

theorem not_carries_of_isFree {i : Nat} (ht : Tied [] w.entities) (hfree : w.IsFree i) :
    ¬w.Carries root i := by
  intro hcarries
  obtain ⟨q, hq, hvehicle, -⟩ := hcarries.vehicle_eq ht
  rw [hfree q hq] at hvehicle
  cases hvehicle

/-- Two households have nothing in common. -/
theorem Houses.ne {i p : Nat} (hi : w.Houses other i) (hp : w.Houses root p) (hne : root ≠ other)
    (ht : Tied [] w.entities) (hroot : w.IsFree root) (hother : w.IsFree other) : i ≠ p := by
  rintro rfl
  rcases hi with rfl | hi <;> rcases hp with rfl | hp
  · exact hne rfl
  · exact not_carries_of_isFree ht hother hp
  · exact not_carries_of_isFree ht hroot hi
  · exact hne (hi.unique hp ht)

/-- What keeps to one household leaves the others alone. -/
theorem KeepsTo.sameHousehold (h : KeepsTo root w w') (hne : root ≠ other)
    (ht : Tied [] w.entities) (hroot : w.IsFree root) (hother : w.IsFree other) :
    SameHousehold other w w' := by
  have hapart : ∀ {i p}, w.Houses other i → w.Houses root p → i ≠ p := fun hi hp =>
    hi.ne hp hne ht hroot hother
  refine ⟨fun i hi => ?_, fun i hi objective => ?_⟩
  · exact h.entity? i (hapart hi (.inl rfl)) fun hcarries => hapart hi (.inr hcarries) rfl
  · exact h.score _ objective (fun heq => hapart hi (.inl rfl) (Owner.entity.inj heq)) nofun

/-! ### Removing a household -/

/-- From one world to another, only entities of one household have been removed, and another one is
as it was. -/
structure Removes (root other : Nat) (w u : World) : Prop where
  tied : Tied [] u.entities
  same : SameHousehold other w u
  vehicle : ∀ p e, w.Houses root p → u.entity? p = some e → e.vehicle = none ∨ e.vehicle = some root

/-- Another entity of the household is removed. -/
theorem Removes.kill (h : Removes root other w u) (hne : root ≠ other) (ht : Tied [] w.entities)
    (hroot : w.IsFree root) (hother : w.IsFree other) {p : Nat} (hp : w.Houses root p) :
    Removes root other w (u.kill p) := by
  by_cases hgone : ∃ gone, u.entity? p = some gone ∧ gone.alive = true
  · obtain ⟨gone, hgone, halive⟩ := hgone
    have hapart : ∀ {i p}, w.Houses other i → w.Houses root p → i ≠ p := fun hi hp =>
      hi.ne hp hne ht hroot hother
    refine ⟨(Change.remove p).tied h.tied, ⟨fun i hi => ?_, fun i hi objective => ?_⟩,
      fun q e hq he => ?_⟩
    · have hself : i ≠ p := hapart hi hp
      -- the entity rides nothing in this household, and nothing in this household rides it
      have hrides : i ∉ gone.passengers := by
        intro hmem
        obtain ⟨e, he, hvehicle, -⟩ := Carries.vehicle_eq ⟨gone, hgone, hmem⟩ h.tied
        rw [h.same.entity? i hi] at he
        rcases hi.vehicle_eq ht hother he with hnone | hsome
        · rw [hnone] at hvehicle
          cases hvehicle
        · rw [hsome] at hvehicle
          exact hapart (.inl rfl) hp (Option.some.inj hvehicle)
      have hridden : gone.vehicle ≠ some i := by
        intro hvehicle
        rcases h.vehicle p gone hp hgone with hnone | hsome
        · rw [hnone] at hvehicle
          cases hvehicle
        · rw [hsome] at hvehicle
          exact hapart hi (.inl rfl) (Option.some.inj hvehicle).symm
      have hleft : ∀ e, leftOf p gone i e = e := by
        intro e
        have halive : (e.alive && i != p) = e.alive := by rw [bne_iff_ne.2 hself, Bool.and_true]
        unfold leftOf
        rw [halive, if_neg (not_or.2 ⟨hself, hrides⟩), if_neg hself, if_neg hridden]
      rw [entity?_kill hgone halive, ← h.same.entity? i hi]
      exact (congrArg (fun f => (u.entity? i).map f) (funext hleft)).trans Option.map_id_apply
    · rw [score?_kill hgone halive, if_neg (hapart hi hp)]
      exact h.same.score? i hi objective
    · rw [entity?_kill hgone halive] at he
      obtain ⟨e₀, he₀, rfl⟩ := Option.map_eq_some_iff.1 he
      show (if q = p ∨ q ∈ gone.passengers then none else e₀.vehicle) = none ∨
        (if q = p ∨ q ∈ gone.passengers then none else e₀.vehicle) = some root
      split
      · exact .inl rfl
      · exact h.vehicle q e₀ hq he₀
  · rwa [kill_of_not_living hgone]

/-- An entity removes itself. -/
theorem Does.kill_this {d id : Nat} {Q : World → Prop} (hw : w.IsNumbered) (h : Q (w.kill id)) :
    Does d (.kill .this) (some id) w Q := by
  refine Leads.bind_on (Run.on_get w) ?_
  rw [select_own hw (s := .this) rfl]
  cases hlive : (w.entity? id).any (·.matches .this) with
  | true => exact Leads.of_on rfl h
  | false =>
    have hdead : ¬∃ gone, w.entity? id = some gone ∧ gone.alive = true := by
      rintro ⟨gone, hgone, halive⟩
      rw [hgone, Option.any_some] at hlive
      simp [Entity.matches, Selector.this, halive] at hlive
    rw [kill_of_not_living hdead] at h
    exact Leads.of_on rfl h

end World

namespace Stage

open World (Does DoesAll KeepsTo Removes SameHousehold)

variable {s : Stage} {clips : List CompiledClip} {w : World} {root other : Nat}

/-- Removing an instance leaves the others alone. -/
theorem RunsOnly.remove (h : s.RunsOnly clips w) (hne : root ≠ other) (hroot : w.IsFree root)
    (hother : w.IsFree other) :
    ∃ w', Run.on (World.run (s.function "remove") (some root)) w = (.ok (), w') ∧
      SameHousehold other w w' := by
  have hmem : (s.function "remove", [.execute [.onPassengers] (.kill .this), .kill .this]) ∈
      s.functions clips :=
    mem_functions_of_instance (List.mem_append_left _ (.tail _ <| .tail _ <| .head _))
  -- while the passengers are removed, those that are left still belong to the household
  let Inv (ids : List Nat) (u : World) : Prop :=
    Removes root other w u ∧ ∀ p ∈ ids, w.Houses root p
  have hkill : ∀ p ids u, Inv (p :: ids) u → Does 0 (.kill .this) (some p) u (Inv ids) := by
    rintro p ids u ⟨hu, hids⟩
    obtain ⟨hp, hrest⟩ := List.forall_mem_cons.1 hids
    exact Does.kill_this hu.tied.numbered ⟨hu.kill hne h.tied hroot hother hp, hrest⟩
  have hstart : Inv ((w.passengers root).map (·.id)) w := by
    refine ⟨⟨h.tied, ⟨fun _ _ => rfl, fun _ _ _ => rfl⟩, fun p e hp he => ?_⟩, fun p hp => ?_⟩
    · exact hp.vehicle_eq h.tied hroot he
    · exact .inr (World.carries_of_mem_passengers h.tied.numbered hp)
  -- the passengers go first, then the root
  have hcall : Does 1 (.function (s.function "remove")) (some root) w (Removes root other w) := by
    refine Does.call h.hosts.installs hmem (DoesAll.cons ?_)
    refine Does.imp (Does.execute_onPassengers hkill hstart) fun u hu => DoesAll.cons ?_
    exact Does.imp (hkill root [] u ⟨hu.1, fun p hp => .inl (List.mem_singleton.1 hp)⟩)
      fun u' hu' => DoesAll.nil hu'.1
  have hdepth : 1 ≤ w.maxDepth := by
    rw [h.hosts.maxDepth]
    decide
  obtain ⟨-, w', hrun, hremoves⟩ := World.Leads.run_on hcall hdepth
  exact ⟨w', hrun, hremoves.same⟩

/-- Every function but three ends without an error and leaves the other instances alone. -/
theorem RunsOnly.run_sameHousehold (h : s.RunsOnly clips w) (hne : root ≠ other)
    (hw : w.Unmounted s.names.rootTag) (hroot : w.IsRoot s.names s.config root)
    (hother : w.IsRoot s.names s.config other) {path : FunctionPath} {body : List Command}
    (hmem : (path, body) ∈ s.functions clips)
    (hpath : path ∉ ["load", "tick", "summon"].map s.function) :
    ∃ w', Run.on (World.run path (some root)) w = (.ok (), w') ∧ SameHousehold other w w' := by
  have hfree := hroot.isFree hw
  have hfree' := hother.isFree hw
  by_cases hremove : path = s.function "remove"
  · rw [hremove]
    exact h.remove hne hfree hfree'
  · have hnarrow : ¬s.IsWide path := by
      intro hwide
      have hwide : path ∈ (["load", "tick", "summon"] ++ ["remove"]).map s.function := hwide
      rw [List.map_append, List.mem_append] at hwide
      exact hwide.elim hpath fun hlast => hremove (List.mem_singleton.1 hlast)
    have hdepth : 43 ≤ w.maxDepth := by
      rw [h.hosts.maxDepth]
      decide
    obtain ⟨-, w', hrun, -, hkeeps⟩ := World.Leads.run_on (h.narrow hmem hnarrow hroot.knows) hdepth
    exact ⟨w', hrun, hkeeps.sameHousehold hne h.tied hfree hfree'⟩

end Stage

end Marionette
