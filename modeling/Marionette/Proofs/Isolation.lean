import Marionette.Proofs.Isolation.Summoning
import Marionette.Proofs.Seeking

/-!
# Instances do not interfere

Several instances of a rig live in one world, run the same functions, and share the name that
carries a score from a root to its passengers.  Still nothing that is done to one of them can be
noticed on another.

- `Twins.exists_pairing`: two instances in the same state, entity by entity.
- `instances_of_compile`: what is run as one root leaves all other instances alone; and ticks do to
  an instance what they do to one in the same state that is alone in its world.
- `instances_of_dolly`: so it is with two instances that were summoned one after the other.
-/

namespace Marionette

namespace World

variable {w w' : World} {root : Nat × Nat} {riders : List (Nat × Nat)}

/-- A root and its passengers are different entities. -/
theorem nodup_household {root : Nat} {ps : List Nat} (ht : Tied [] w.entities)
    (hfree : w.IsFree root) (hps : (w.entity? root).map Entity.passengers = some ps) :
    (root :: ps).Nodup := by
  obtain ⟨e, he, rfl⟩ := Option.map_eq_some_iff.1 hps
  refine List.nodup_cons.2 ⟨fun hmem => ?_, nodup_passengers ht he⟩
  exact not_carries_of_isFree ht hfree ⟨e, he, hmem⟩

/-- The entities of two instances in the same state correspond to each other. -/
theorem Twins.exists_pairing (h : Twins root riders w w') (ht : Tied [] w.entities)
    (ht' : Tied [] w'.entities) (hfree : w.IsFree root.1) (hfree' : w'.IsFree root.2) :
    ∃ P : Pairing, P.root = root ∧ P.riders = riders := by
  have hfirst : ((root :: riders).map Prod.fst).Nodup := nodup_household ht hfree h.passengers
  have hsecond : ((root :: riders).map Prod.snd).Nodup := nodup_household ht' hfree' h.passengers'
  refine ⟨⟨root, riders, fun m hm n hn => ⟨fun heq => ?_, fun heq => ?_⟩⟩, rfl, rfl⟩
  · rw [List.inj_on_of_nodup_map hfirst hn hm heq]
  · rw [List.inj_on_of_nodup_map hsecond hn hm heq]

end World

namespace Stage

variable {s : Stage} {clips : List CompiledClip} {w w' : World} {root : Nat × Nat}
  {riders : List (Nat × Nat)}

/-- Ticks keep an instance in the same state as another one that is alone in its world. -/
theorem RunsOnly.twins_ticks (h : s.RunsOnly clips w) (h' : s.RunsOnly clips w')
    (hfunctions : w'.functions = w.functions) (hw : w.Unmounted s.names.rootTag)
    (hw' : w'.Unmounted s.names.rootTag)
    (hanswers : ∀ text, w'.conditions.getD text true = w.conditions.getD text true)
    (hroot : w.IsRoot s.names s.config root.1)
    (halone : ∀ i, w'.IsRoot s.names s.config i ↔ i = root.2)
    (htwins : World.Twins root riders w w') (count : Nat) :
    ∃ u u', Run.on (World.ticks count) w = (.ok (), u) ∧
    Run.on (World.ticks count) w' = (.ok (), u') ∧
      World.Twins root riders u u' := by
  have hfree := hroot.isFree hw
  have hfree' := ((halone root.2).2 rfl).isFree hw'
  obtain ⟨P, rfl, rfl⟩ := htwins.exists_pairing h.tied h'.tied hfree hfree'
  have hmirrors : P.Mirrors w.functions w w' :=
    ⟨htwins, ⟨h.tied.numbered, rfl⟩, ⟨h'.tied.numbered, hfunctions⟩, hroot.isLiving h.tied.numbered,
      hanswers⟩
  have hbeside : s.SideBySide clips P w.functions w w' :=
    ⟨h, h', hmirrors, hw, hfree, fun i hi => (halone i).1 hi⟩
  obtain ⟨u, u', hticks, hticks', hend⟩ := hbeside.ticks count
  exact ⟨u, u', hticks, hticks', hend.mirrors.toTwins⟩

end Stage

/-- Instances of a rig do not interfere, in any world that callers can reach.  What is run as one
root, except for the functions that make the start, a tick or a new instance, leaves every other
root with its passengers and all of their scores as it was.  And where the author gets the same
answers, any number of ticks brings an instance among others to the same state as one in the same
state that is alone. -/
theorem instances_of_compile (name : String) (nodes : List RigNode) (variants : List Variant)
    (animations : List Animation) (config : Config) :
    Ensures (Rig.build name nodes variants) fun rig =>
      Ensures (compile rig animations config) fun o =>
        ∃ w₀ w₁, World.ofPack o.pack = .ok w₀ ∧ Run.on World.load w₀ = (.ok (), w₁) ∧
          ∀ w, World.Reaches o.Offers w₁ w →
            (∀ root other, w.IsRoot ⟨o.namespaceName⟩ config root →
              w.IsRoot ⟨o.namespaceName⟩ config other → root ≠ other →
              ∀ path body, (path, body) ∈ o.pack.functions →
                path ∉ ["load", "tick", "summon"].map (FunctionPath.mk o.namespaceName) →
                ∃ w', Run.on (World.run path (some root)) w = (.ok (), w') ∧
                  World.SameHousehold other w w') ∧
            ∀ w', World.Reaches o.Offers w₁ w' →
              (∀ text, w'.conditions.getD text true = w.conditions.getD text true) →
              ∀ root riders, w.IsRoot ⟨o.namespaceName⟩ config root.1 →
                (∀ i, w'.IsRoot ⟨o.namespaceName⟩ config i ↔ i = root.2) →
                World.Twins root riders w w' → ∀ count,
                  ∃ u u', Run.on (World.ticks count) w = (.ok (), u) ∧
                    Run.on (World.ticks count) w' = (.ok (), u') ∧
                    World.Twins root riders u u' := by
  refine Ensures.intro fun rig hbuild => Ensures.intro fun o hcompile => ?_
  have hrig : rig.IsBuilt := ⟨name, nodes, variants, hbuild⟩
  obtain ⟨s, rfl, rfl, hcompiles⟩ := Stage.exists_compiles hrig hcompile
  obtain ⟨w₀, w₁, hw₀, hload, hruns⟩ := hcompiles.exists_runsOnly hrig
  have hfunctions := Stage.mem_functions_of_pack hcompiles.pack
  have hnames : s.names = ⟨o.namespaceName⟩ := by rw [← hcompiles.namespaceName]
  have hpaths : s.function = FunctionPath.mk o.namespaceName := by
    rw [← hcompiles.namespaceName]
    rfl
  have hreaches : ∀ {w}, World.Reaches o.Offers w₁ w → s.RunsOnly o.clips w := fun hw =>
    hruns.reaches hcompiles.namespaceName hfunctions hw
  have hunmounted : ∀ {w}, World.Reaches o.Offers w₁ w → w.Unmounted s.names.rootTag := fun hw =>
    hruns.unmounted_of_reaches hcompiles.namespaceName hfunctions
      (hcompiles.empty_of_load hw₀ hload).1 hw
  refine ⟨w₀, w₁, hw₀, hload, fun w hw => ⟨?_, ?_⟩⟩
  -- on one world: a function run by one root leaves the household of the other one alone
  · intro root other hroot hother hne path body hmem hpath
    rw [← hnames] at hroot hother
    rw [← hpaths] at hpath
    exact (hreaches hw).run_sameHousehold hne (hunmounted hw) hroot hother (hfunctions _ hmem) hpath
  -- on two worlds: twins see the same answers, and stay twins
  · intro w' hw' hanswers root riders hroot halone htwins count
    rw [← hnames] at hroot halone
    have hsame : w'.functions = w.functions :=
      (Stage.functions_reaches hw').trans (Stage.functions_reaches hw).symm
    exact (hreaches hw).twins_ticks (hreaches hw') hsame (hunmounted hw) (hunmounted hw')
      hanswers hroot
      halone htwins count

/-- A rig with a camera is summoned twice.  What is run as the second root leaves the first instance
alone; and ticks bring the second instance to the same states as they bring the first one to while
it is alone. -/
theorem instances_of_dolly : ∃ (o : Output) (w₀ w₁ w w' : World) (other : Nat) (root : Nat × Nat)
    (riders : List (Nat × Nat)),
    Rig.build "dolly" [⟨⟨1⟩, "camera", none, .camera, {}⟩] [] = .ok dolly ∧
    compile dolly [pan, tilt] {} = .ok o ∧ World.ofPack o.pack = .ok w₀ ∧
    Run.on World.load w₀ = (.ok (), w₁) ∧ World.Reaches o.Offers w₁ w ∧
    World.Reaches o.Offers w₁ w' ∧ w.IsRoot ⟨o.namespaceName⟩ {} root.1 ∧
    w.IsRoot ⟨o.namespaceName⟩ {} other ∧ root.1 ≠ other ∧
    (∀ i, w'.IsRoot ⟨o.namespaceName⟩ {} i ↔ i = root.2) ∧ riders ≠ [] ∧
    World.Twins root riders w w' ∧
    (∀ path body, (path, body) ∈ o.pack.functions →
      path ∉ ["load", "tick", "summon"].map (FunctionPath.mk o.namespaceName) →
      ∃ v, Run.on (World.run path (some root.1)) w = (.ok (), v) ∧ World.SameHousehold other w v) ∧
    ∀ count, ∃ u u', Run.on (World.ticks count) w = (.ok (), u) ∧
      Run.on (World.ticks count) w' = (.ok (), u') ∧ World.Twins root riders u u' := by
  obtain ⟨p, t, -, -, hpan, htilt, -⟩ := exists_sample_dolly
  obtain ⟨o, hcompile, -⟩ := exists_compile_dolly hpan htilt
  -- under names of their own, nothing of the rig and the animations is computed
  obtain ⟨nodes, hnodes⟩ : ∃ nodes : List RigNode, nodes = [⟨⟨1⟩, "camera", none, .camera, {}⟩] :=
    ⟨_, rfl⟩
  obtain ⟨animations, hanimations⟩ : ∃ animations, animations = [pan, tilt] := ⟨_, rfl⟩
  obtain ⟨rig, hrig⟩ : ∃ rig, rig = dolly := ⟨_, rfl⟩
  have hbuild : Rig.build "dolly" [⟨⟨1⟩, "camera", none, .camera, {}⟩] [] = .ok dolly := rfl
  rw [← hnodes, ← hrig] at hbuild
  rw [← hanimations, ← hrig] at hcompile
  have hbuilt : rig.IsBuilt := hrig ▸ isBuilt_dolly
  obtain ⟨w₀, w₁, hw₀, hload, hinstances⟩ :=
    ((instances_of_compile "dolly" nodes [] animations {}).apply hbuild).apply hcompile
  obtain ⟨s, rfl, hconfig, hcompiles⟩ := Stage.exists_compiles hbuilt hcompile
  have hnames : s.names = ⟨o.namespaceName⟩ := by rw [← hcompiles.namespaceName]
  obtain ⟨w₀', w₁', hw₀', hload', hruns⟩ := hcompiles.exists_runsOnly hbuilt
  obtain rfl := Except.ok.inj (hw₀.symm.trans hw₀')
  obtain rfl : w₁ = w₁' := congrArg Prod.snd (hload.symm.trans hload')
  obtain ⟨w', w, hreaches', hreaches, hlt, halone, hroots, hconditions, htwins⟩ :=
    hcompiles.exists_second hw₀ hload hruns
  rw [hnames, hconfig] at halone hroots
  have hfirst := (hroots _).2 (.inl rfl)
  have hsecond := (hroots _).2 (.inr rfl)
  have hriders : s.births w' w₁ ≠ [] := by
    have hslot : (⟨⟨⟨1⟩, "camera", none, .camera, {}⟩, "camera", none⟩ : Slot) ∈
        s.rig.slots.toList := by
      rw [hrig]
      exact List.mem_singleton_self _
    obtain ⟨b, hb, -⟩ := hcompiles.exists_body hslot rfl
    intro hnil
    have hnone : List.range s.bodies.length = [] := List.map_eq_nil_iff.1 hnil
    rw [List.range_eq_nil, List.length_eq_zero_iff] at hnone
    rw [hnone] at hb
    cases hb
  have hisolated := hinstances w hreaches
  refine ⟨o, w₀, w₁, w, w', w₁.entities.size, _, _, hnodes ▸ hrig ▸ hbuild, ?_, hw₀,
    hload, hreaches, hreaches', hsecond, hfirst, hlt.ne', halone, hriders, htwins, ?_, ?_⟩
  · exact hanimations ▸ hrig ▸ hcompile
  · exact hisolated.1 _ _ hsecond hfirst hlt.ne'
  · exact hisolated.2 w' hreaches' (fun text => by rw [hconditions]) _ _ hsecond halone htwins

end Marionette
