import Marionette.Proofs.Ride.Ticks
import Marionette.Proofs.World.Badges

/-!
# Roots ride nothing

Only summoning makes a root, and what it makes rides nothing.  No function gives the tag of roots to
another entity, whoever runs it, so in every world that callers can reach a root is nobody's
passenger.

- `Stage.gives_functions`: what the functions of a rig can give and create.
- `RunsOnly.givesAmong`: all of them but the one that summons create nothing.
- `RunsOnly.unmounted_of_reaches`: in every world that callers can reach, roots ride nothing.
-/

namespace Marionette

/-- A command that stays home gives tags of its kind only, and creates nothing. -/
theorem Command.StaysHome.gives {calls : FunctionPath → Prop} {tags : String → Prop} {rides : Bool}
    {plans : EntityPlan → Prop} {c : Command} (h : c.StaysHome calls tags rides) :
    c.Gives tags plans := by
  induction h with
  | @quiet rides c note => cases c <;> trivial
  | @own c own => cases c <;> trivial
  | tag given => exact given
  | @look c look => cases c <;> trivial
  | function known => trivial
  | run _ ih => exact ih
  | test _ _ ih => exact ih
  | onPassengers _ ih => exact ih

/-- It calls only the functions that it may. -/
theorem Command.StaysHome.callsOnly {calls calls' : FunctionPath → Prop} {tags : String → Prop}
    {rides : Bool} {c : Command} (h : c.StaysHome calls tags rides)
    (hcalls : ∀ path, calls path → calls' path) :
    c.CallsOnly calls' := by
  induction h with
  | @quiet rides c note => cases c <;> trivial
  | @own c own => cases c <;> trivial
  | tag given => trivial
  | @look c look => cases c <;> trivial
  | function known => exact hcalls _ known
  | run _ ih => exact ih
  | test _ _ ih => exact ih
  | onPassengers _ ih => exact ih

namespace Stage

open World (KeepsUnmounted Reaches)

variable {s : Stage} {clips : List CompiledClip} {w w' : World} {o : Output}

/-- The entities of the nodes do not carry the tag of roots, and nothing rides them. -/
theorem hasBareRiders_summonPayload (s : Stage) (entityType : String) :
    (EntityPlan.ofData entityType s.summonPayload).HasBareRiders s.names.rootTag := by
  rw [ofData_summonPayload]
  intro plan hplan
  refine ⟨s.isSingle_bodyPlan plan hplan, fun id v => ?_⟩
  obtain ⟨b, -, rfl⟩ := List.mem_map.1 hplan
  obtain ⟨hany, hnode⟩ := RuntimeNames.tag_ne_nodeTag (v := s.names) (k := .root) (.inl rfl)
  show decide (s.names.tag .root ∈ tagsOf (s.bodyData b)) = false
  rw [decide_eq_false_iff_not, mem_tagsOf_bodyData]
  rintro (heq | heq)
  · exact hnode _ heq
  · exact hany heq

/-- All functions but the one that summons give the tags of roots to nothing and create nothing, and
they do not call that one. -/
theorem gives_functions_cases {plans : EntityPlan → Prop} {f : GeneratedFunction}
    (hf : f ∈ s.functions clips) : f = (s.function "summon", s.summonBody) ∨
      ∀ c ∈ f.2, c.Gives s.IsOrdinary plans ∧ c.CallsOnly (· ≠ s.function "summon") := by
  have hsummon : s.IsWide (s.function "summon") := List.mem_map_of_mem (by decide)
  rcases functions_cases hf with hwide | rfl | hstays
  · simp only [wideFunctions, List.mem_cons, List.not_mem_nil, or_false] at hwide
    rcases hwide with rfl | rfl | rfl | rfl
    · -- at the start
      refine .inr fun c hc => ?_
      rcases loadBody_declares hc with ⟨name, rfl⟩ | ⟨text, rfl⟩ <;> exact ⟨trivial, trivial⟩
    · -- a tick
      refine .inr fun c hc => ?_
      rw [List.mem_singleton.1 hc]
      exact ⟨trivial, fun heq => not_isWide_function (by decide) (heq ▸ hsummon)⟩
    · exact .inl rfl
    · -- removing
      refine .inr fun c hc => ?_
      rcases List.mem_cons.1 hc with rfl | hc
      · exact ⟨trivial, trivial⟩
      · rw [List.mem_singleton.1 hc]
        exact ⟨trivial, trivial⟩
  · refine .inr fun c hc => ?_
    rcases List.mem_cons.1 hc with rfl | hc
    · exact ⟨trivial, trivial⟩
    · rw [List.mem_singleton.1 hc]
      exact ⟨trivial, trivial⟩
  -- every other function stays home and so does not call that one
  · refine .inr fun c hc => ⟨(hstays c hc).gives, (hstays c hc).callsOnly ?_⟩
    rintro path hpath rfl
    exact hpath hsummon

/-- The functions of a rig give the tags of roots to nothing, except to what they summon without a
vehicle. -/
theorem gives_functions {f : GeneratedFunction} (hf : f ∈ s.functions clips) :
    ∀ c ∈ f.2, c.Gives s.IsOrdinary (EntityPlan.HasBareRiders s.names.rootTag) := by
  intro c hc
  rcases gives_functions_cases hf with rfl | hgives
  · rcases List.mem_cons.1 hc with rfl | hc
    · exact s.hasBareRiders_summonPayload _
    · rw [List.mem_singleton.1 hc]
      trivial
  · exact (hgives c hc).1

namespace RunsOnly

/-- All functions of a pack give ordinary tags, and what they create has bare riders. -/
theorem givesOnly (h : s.RunsOnly clips w) :
    w.GivesOnly s.IsOrdinary (EntityPlan.HasBareRiders s.names.rootTag) :=
  fun path body hbody => gives_functions (h.only path body hbody)

/-- All functions but the one that summons create nothing. -/
theorem givesAmong (h : s.RunsOnly clips w) :
    w.GivesAmong (· ≠ s.function "summon") s.IsOrdinary fun _ => False := by
  intro path body hpath hbody
  refine (gives_functions_cases (h.only path body hbody)).resolve_left fun heq => hpath ?_
  exact congrArg Prod.fst heq

/-- A tick lets no root ride. -/
theorem unmounted_tick (h : s.RunsOnly clips w) (hw : w.Unmounted s.names.rootTag) :
    (Run.on World.tick w).2.Unmounted s.names.rootTag :=
  ((KeepsUnmounted.tolerates s.not_isOrdinary_rootTag).tick h.givesOnly).unmounted hw

/-- Whatever callers do, roots ride nothing afterwards if they did not before. -/
theorem unmounted_act (h : s.RunsOnly clips w) {d : Deed} (hd : o.Offers w d)
    (hw : w.Unmounted s.names.rootTag) : (Run.on d.act w).2.Unmounted s.names.rootTag := by
  have htolerates := KeepsUnmounted.tolerates s.not_isOrdinary_rootTag
  cases d with
  | load => exact (htolerates.load h.givesOnly).unmounted hw
  | tick => exact h.unmounted_tick hw
  | run path executor => exact (htolerates.run path h.givesOnly).unmounted hw
  | summon namespaceName =>
    have hsummon := (htolerates.summon namespaceName h.givesOnly).andThen
      fun (_ : Nat) _ => .nothing (R := KeepsUnmounted s.names.rootTag) ()
    exact hsummon.unmounted hw
  | setScore id objective value =>
    have hset : Run.on (World.setScore id objective value) w = (.ok (), _) :=
      Run.on_bind_ok (World.on_requireObjective hd)
    rw [show Run.on (Deed.setScore id objective value).act w = _ from hset]
    exact hw

/-- In every world that callers can reach, roots ride nothing. -/
theorem unmounted_of_reaches (h : s.RunsOnly clips w)
    (hns : s.names.namespaceName = o.namespaceName)
    (hfunctions : ∀ f ∈ o.pack.functions, f ∈ s.functions clips) (hempty : w.entities = #[])
    (hw : Reaches o.Offers w w') : w'.Unmounted s.names.rootTag := by
  induction hw with
  | refl =>
    intro i e he
    rw [World.entity?, hempty] at he
    cases he
  | tail hbefore hstep ih =>
    obtain ⟨d, hd, rfl⟩ | ⟨answers, rfl⟩ := hstep
    · exact (h.reaches hns hfunctions hbefore).unmounted_act hd ih
    · exact ih

end RunsOnly

/-- So in a world of what is compiled only the functions of the rig run, and roots ride nothing,
whatever callers do. -/
theorem Compiles.runsOnly_of_reaches (h : s.Compiles o) (hrig : s.rig.IsBuilt) {w₀ w₁ : World}
    (hw₀ : World.ofPack o.pack = .ok w₀) (hload : Run.on World.load w₀ = (.ok (), w₁))
    (hw : Reaches o.Offers w₁ w) : s.RunsOnly o.clips w ∧ w.Unmounted s.names.rootTag := by
  obtain ⟨w₀', w₁', hw₀', hload', hruns⟩ := h.exists_runsOnly hrig
  obtain rfl := eq_of_load hw₀ hload hw₀' hload'
  have hfunctions := mem_functions_of_pack h.pack
  exact ⟨hruns.reaches h.namespaceName hfunctions hw,
    hruns.unmounted_of_reaches h.namespaceName hfunctions
    (h.empty_of_load hw₀ hload).1 hw⟩

end Stage

end Marionette
