import Marionette.Proofs.Isolation.Households

/-!
# Removing an instance

The passengers of a root remove themselves one after the other, which shortens the list that is gone
over, and then the root does.  Nothing else changes, if nothing rides the passengers.

- `World.entity?_kill_of_bare`: removing what carries nothing changes nothing but its vehicle.
- `World.Losing`: a root that has lost some of its passengers; `Losing.kill`: it loses the next one.
- `World.Loses`: the household of a root has been removed, and nothing else has changed.
- `RunsOnly.loses`: this is what the function does.
-/

namespace Marionette

namespace World

variable {w u : World} {root id : Nat} {ids : List Nat}

/-- Removing an entity touches nothing but entities and scores. -/
theorem kill_same (w : World) (id : Nat) :
    (w.kill id).setting = w.setting ∧ (w.kill id).output = w.output ∧
      (w.kill id).gameTime = w.gameTime := by
  unfold kill
  split
  · exact ⟨rfl, rfl, rfl⟩
  · split <;> exact ⟨rfl, rfl, rfl⟩

/-- Removing what carries nothing changes nothing but its vehicle. -/
theorem entity?_kill_of_bare {gone : Entity} (hgone : w.entity? id = some gone)
    (halive : gone.alive = true) (hbare : gone.passengers = []) {i : Nat} (hi : i ≠ id)
    (hvehicle : gone.vehicle ≠ some i) : (w.kill id).entity? i = w.entity? i := by
  have hleft : ∀ e, leftOf id gone i e = e := by
    intro e
    have hnot : ¬(i = id ∨ i ∈ gone.passengers) := by simp [hi, hbare]
    unfold leftOf
    rw [if_neg hnot, if_neg hi, if_neg hvehicle, bne_iff_ne.2 hi, Bool.and_true]
  rw [entity?_kill hgone halive]
  exact (congrArg (fun f => (w.entity? i).map f) (funext hleft)).trans Option.map_id_apply

/-- What was removed stays removed, and what is removed is. -/
theorem isRemoved_kill {gone : Entity} (hgone : w.entity? id = some gone)
    (halive : gone.alive = true) {i : Nat} (hi : i = id ∨ w.IsRemoved i) :
    (w.kill id).IsRemoved i := by
  unfold IsRemoved
  rw [entity?_kill hgone halive]
  rcases hi with rfl | ⟨e, he, hdead⟩
  · refine ⟨_, by rw [hgone]; rfl, ?_⟩
    show (gone.alive && i != i) = false
    rw [bne_self_eq_false, Bool.and_false]
  · refine ⟨_, by rw [he]; rfl, ?_⟩
    show (e.alive && i != id) = false
    rw [hdead, Bool.false_and]

/-- A root and its passengers have been removed with their scores, and nothing else has changed. -/
structure Loses (root : Nat) (w w' : World) : Prop where
  setting : w'.setting = w.setting
  output : w'.output = w.output
  gameTime : w'.gameTime = w.gameTime
  removed : ∀ i, w.Houses root i → w'.IsRemoved i
  dropped : ∀ i, w.Houses root i → ∀ objective, w'.score? i objective = none
  entity? : ∀ i, ¬w.Houses root i → w'.entity? i = w.entity? i
  score : ∀ owner, (∀ i, w.Houses root i → owner ≠ .entity i) → ∀ objective,
    w'.ownerScore? owner objective = w.ownerScore? owner objective

/-- A root has lost all passengers but some, which are as they were. -/
structure Losing (root : Nat) (w : World) (ids : List Nat) (u : World) : Prop where
  setting : u.setting = w.setting
  output : u.output = w.output
  gameTime : u.gameTime = w.gameTime
  carrier : ∃ e, u.entity? root = some e ∧ e.alive = true ∧ e.vehicle = none ∧ e.passengers = ids
  removed : ∀ i, w.Carries root i → i ∉ ids → u.IsRemoved i ∧ ∀ objective,
    u.score? i objective = none
  entity? : ∀ i, i ≠ root → i ∈ ids ∨ ¬w.Carries root i → u.entity? i = w.entity? i
  score : ∀ owner, (∀ i, w.Carries root i → i ∉ ids → owner ≠ .entity i) → ∀ objective,
    u.ownerScore? owner objective = w.ownerScore? owner objective

namespace Losing

/-- The next passenger is removed. -/
theorem kill {p : Nat} (h : Losing root w (p :: ids) u) (hnodup : (p :: ids).Nodup)
    (hself : p ≠ root) (hcarried : w.Carries root p) {rider : Entity}
    (hrider : w.entity? p = some rider) (halive : rider.alive = true)
    (hvehicle : rider.vehicle = some root) (hbare : rider.passengers = []) :
    Losing root w ids (u.kill p) := by
  obtain ⟨hp, -⟩ := List.nodup_cons.1 hnodup
  have hnow : u.entity? p = some rider := (h.entity? p hself (.inl List.mem_cons_self)).trans hrider
  obtain ⟨hsetting, houtput, htime⟩ := kill_same u p
  obtain ⟨e, he, hlives, hfree, hlist⟩ := h.carrier
  constructor
  case setting => exact hsetting.trans h.setting
  case output => exact houtput.trans h.output
  case gameTime => exact htime.trans h.gameTime
  case carrier =>
    refine ⟨leftOf p rider root e, by rw [entity?_kill hnow halive, he]; rfl, ?_, ?_, ?_⟩
    -- the carrier still lives, rides nobody, and has lost just this passenger
    · show (e.alive && root != p) = true
      rw [hlives, bne_iff_ne.2 hself.symm]
      rfl
    · show (if root = p ∨ root ∈ rider.passengers then none else e.vehicle) = none
      rw [hfree, ite_self]
    · show (if root = p then [] else if rider.vehicle = some root then
        e.passengers.filter (· != p) else e.passengers) = ids
      rw [if_neg hself.symm, if_pos hvehicle, hlist, List.filter_cons_of_neg (by simp)]
      exact List.filter_eq_self.2 fun i hi => bne_iff_ne.2 fun heq => hp (heq ▸ hi)
  case removed =>
    intro i hi hout
    -- the passenger that was killed is removed now; the others were removed before
    by_cases hip : i = p
    · exact ⟨isRemoved_kill hnow halive (.inl hip), fun objective => by
        rw [score?_kill hnow halive, if_pos hip]⟩
    · obtain ⟨hremoved, hnone⟩ := h.removed i hi (List.not_mem_cons_of_ne_of_not_mem hip hout)
      exact ⟨isRemoved_kill hnow halive (.inr hremoved), fun objective => by
        rw [score?_kill hnow halive, if_neg hip, hnone]⟩
  case entity? =>
    intro i hi hstays
    -- who stays is not the one that was killed, and did not carry it
    have hip : i ≠ p := by
      rintro rfl
      exact hstays.elim hp fun hnot => hnot hcarried
    rw [entity?_kill_of_bare hnow halive hbare hip fun heq => hi
      (Option.some.inj (hvehicle.symm.trans heq)).symm]
    exact h.entity? i hi (hstays.imp_left (List.mem_cons_of_mem p))
  case score =>
    intro owner howner objective
    rw [ownerScore?_kill hnow halive, if_neg (howner p hcarried hp)]
    exact h.score owner (fun i hi hout => howner i hi fun hin =>
      hout (List.mem_cons_of_mem p hin)) objective

/-- Without passengers, the root is removed last. -/
theorem loses (h : Losing root w [] u) : Loses root w (u.kill root) := by
  obtain ⟨hsetting, houtput, htime⟩ := kill_same u root
  obtain ⟨e, he, halive, hfree, hlist⟩ := h.carrier
  constructor
  case setting => exact hsetting.trans h.setting
  case output => exact houtput.trans h.output
  case gameTime => exact htime.trans h.gameTime
  case removed =>
    intro i hi
    refine isRemoved_kill he halive (hi.imp_right fun hcarried => ?_)
    exact (h.removed i hcarried List.not_mem_nil).1
  case dropped =>
    intro i hi objective
    rw [score?_kill he halive]
    split
    · rfl
    · next hne => exact (h.removed i (hi.resolve_left hne) List.not_mem_nil).2 objective
  case entity? =>
    intro i hi
    obtain ⟨hne, hcarried⟩ := not_or.1 hi
    rw [entity?_kill_of_bare he halive hlist hne (by rw [hfree]; nofun)]
    exact h.entity? i hne (.inr hcarried)
  case score =>
    intro owner howner objective
    rw [ownerScore?_kill he halive, if_neg (howner root (.inl rfl))]
    exact h.score owner (fun i hi _ => howner i (.inr hi)) objective

end Losing

/-- Whoever is a root afterwards was one before, and does not belong to what was removed. -/
theorem Loses.isRoot {w' : World} {v : RuntimeNames} {config : Config}
    (h : Loses root w w') {i : Nat} (hi : w'.IsRoot v config i) :
    ¬w.Houses root i ∧ w.IsRoot v config i := by
  have hout : ¬w.Houses root i := by
    intro hhouse
    obtain ⟨e, he, hdead⟩ := h.removed i hhouse
    obtain ⟨e', he', halive, -⟩ := hi
    obtain rfl := Option.some.inj (he.symm.trans he')
    rw [hdead] at halive
    cases halive
  obtain ⟨e, he, hrest⟩ := hi
  exact ⟨hout, e, (h.entity? i hout).symm.trans he, hrest⟩

end World

namespace Stage

open World (Does DoesAll Losing Loses)

variable {s : Stage} {clips : List CompiledClip} {w : World} {root : Nat}

/-- Removing an instance removes its root and its passengers with their scores, and changes nothing
else, if nothing rides the passengers. -/
theorem RunsOnly.loses (h : s.RunsOnly clips w) (hroot : w.IsLiving root) (hfree : w.IsFree root)
    (hbare : ∀ p, w.Carries root p → ∀ i, ¬w.Carries p i) :
    ∃ w', Run.on (World.run (s.function "remove") (some root)) w = (.ok (), w') ∧
    Loses root w w' := by
  have hmem : (s.function "remove", [.execute [.onPassengers] (.kill .this), .kill .this]) ∈
      s.functions clips :=
    mem_functions_of_instance (List.mem_append_left _ (.tail _ <| .tail _ <| .head _))
  obtain ⟨e, he, -, halive⟩ := hroot
  have hcarries : ∀ {p}, p ∈ e.passengers → w.Carries root p := fun hp => ⟨e, he, hp⟩
  -- the passengers that are left are on the list
  let Inv (ids : List Nat) (u : World) : Prop :=
    Tied [] u.entities ∧ ids.Nodup ∧ (∀ p ∈ ids, p ∈ e.passengers) ∧ Losing root w ids u
  have hkill : ∀ p ids u, Inv (p :: ids) u → Does 0 (.kill .this) (some p) u (Inv ids) := by
    rintro p ids u ⟨htied, hnodup, hlisted, hu⟩
    obtain ⟨hp, hrest⟩ := List.forall_mem_cons.1 hlisted
    have hself : p ≠ root := by
      rintro rfl
      exact World.not_carries_of_isFree h.tied hfree (hcarries hp)
    obtain ⟨rider, hrider, hvehicle, hlives⟩ := (hcarries hp).vehicle_eq h.tied
    have hnobody : rider.passengers = [] :=
      List.eq_nil_iff_forall_not_mem.2 fun i hi => hbare p (hcarries hp) i ⟨rider, hrider, hi⟩
    exact World.Does.kill_this htied.numbered ⟨(World.Change.remove p).tied htied,
      (List.nodup_cons.1 hnodup).2, hrest,
      hu.kill hnodup hself (hcarries hp) hrider hlives hvehicle hnobody⟩
  have hpassengers := World.passengers_eq h.tied he
  have hstart : Inv ((w.passengers root).map (·.id)) w := by
    rw [hpassengers]
    refine ⟨h.tied, World.nodup_passengers h.tied he, fun _ hp => hp, rfl, rfl, rfl,
      ⟨e, he, halive, hfree e he, rfl⟩, ?_, fun _ _ _ => rfl, fun _ _ _ => rfl⟩
    rintro i ⟨e', he', hi⟩ hout
    obtain rfl := Option.some.inj (he.symm.trans he')
    exact absurd hi hout
  have hcall : Does 1 (.function (s.function "remove")) (some root) w (Loses root w) := by
    refine Does.call h.hosts.installs hmem (DoesAll.cons ?_)
    refine Does.imp (World.Does.execute_onPassengers hkill hstart) fun u hu => DoesAll.cons ?_
    exact Does.imp (World.Does.kill_this hu.1.numbered hu.2.2.2.loses) fun _ hu' => DoesAll.nil hu'
  have hdepth : 1 ≤ w.maxDepth := by
    rw [h.hosts.maxDepth]
    decide
  obtain ⟨-, w', hrun, hloses⟩ := World.Leads.run_on hcall hdepth
  exact ⟨w', hrun, hloses⟩

end Stage

end Marionette
