import Marionette.Proofs.Compile
import Marionette.Proofs.Functions.Calls
import Marionette.Proofs.World.Deeds

/-!
# Packs that are compiled never fail

Once a pack is loaded, nothing that a caller does with it ends in an error: whatever a function
calls is there, whatever it asks for was created at the start, and its calls never go too deep.

- `Output.Offers`: what a caller can do with the pack of an output.
- `Stage.Ready`: a world in which all functions of a rig can run.
- `Ready.evolves`: it stays so, whatever a caller does.
- `Ready.act`: and whatever a caller does ends without an error.
- `runs_of_compile`: the same for everything that is compiled.
-/

namespace Marionette

/-- What a caller can do with the pack of an output: it runs functions of the pack as entities that
were created, summons instances of the rig, and sets scores of objectives that were created. -/
def Output.Offers (o : Output) (w : World) : Deed → Prop
  | .run path executor => (∃ body, (path, body) ∈ o.pack.functions) ∧ w.Knows executor
  | .summon namespaceName => namespaceName = o.namespaceName
  | .setScore _ objective _ => w.hasObjective objective = true
  | .load | .tick => True

namespace World

variable {w w' : World}

/-- What rides nothing keeps its place and mounts nothing. -/
theorem Changes.exists_free (h : Changes w w') (ht : Tied [] w.entities) {i : Nat} {e : Entity}
    (he : w.entity? i = some e) (hfree : e.vehicle = none) :
    ∃ e', w'.entity? i = some e' ∧ e'.vehicle = none := by
  induction h with
  | refl => exact ⟨e, he, hfree⟩
  | tail hbefore hc ih =>
    obtain ⟨e', he', hfree'⟩ := ih
    obtain ⟨e'', he'', -, hkept⟩ := hc.entity? (Changes.tied hbefore ht) he'
    exact ⟨e'', he'', hkept hfree'⟩

end World

namespace Stage

open World (Changes Evolves Serves)

variable {s : Stage} {clips : List CompiledClip} {w w' : World} {o : Output}

/-- A world in which all functions of a rig can run: it has them with the default depth of calls, it
runs the right ones at its events, and all objectives have been created. -/
structure Ready (s : Stage) (clips : List CompiledClip) (w : World) : Prop where
  hosts : s.Hosts clips w
  tickFunctions : w.tickFunctions = [s.function "tick"]
  loadFunctions : w.loadFunctions = [s.function "load"]
  serves : Serves w.functions (s.Declares clips) w
  depth_le : ∀ c ∈ clips, c.tree.depth ≤ 32

namespace Ready

theorem changes (h : s.Ready clips w) (hc : Changes w w') : s.Ready clips w' := by
  have halike := hc.runsAlike
  refine ⟨⟨h.hosts.installs.congr halike.functions, halike.maxDepth.trans h.hosts.maxDepth⟩,
    halike.tickFunctions.trans h.tickFunctions, halike.loadFunctions.trans h.loadFunctions, ?_,
    h.depth_le⟩
  rw [halike.functions]
  exact h.serves.changes hc

/-- A function of the rig ends without an error. -/
theorem run (h : s.Ready clips w) {path : FunctionPath} {body : List Command}
    {executor : Option Nat} (hmem : (path, body) ∈ s.functions clips) (hx : w.Knows executor) :
    ∃ w', Run.on (World.run path executor) w = (.ok (), w') ∧ Changes w w' := by
  have hsure := h.hosts.sure_functions h.depth_le _ hmem
  have hdepth : 43 ≤ w.maxDepth := by
    rw [h.hosts.maxDepth]
    decide
  obtain ⟨-, w', hrun, hchanges⟩ := World.Leads.run_on (hsure.does h.serves hx) hdepth
  exact ⟨w', hrun, hchanges⟩

theorem load (h : s.Ready clips w) : ∃ w', Run.on World.load w = (.ok (), w') ∧ Changes w w' := by
  obtain ⟨w', hrun, hchanges⟩ := h.run (mem_functions_of_tick (.head _))
    (fun id hid => nomatch hid : w.Knows none)
  refine ⟨w', ?_, hchanges⟩
  show Run.on (Bind.bind (get : Run World) _) w = _
  rw [Run.on_bind_ok (Run.on_get w), h.loadFunctions]
  exact Run.on_bind_ok hrun

theorem tick (h : s.Ready clips w) : ∃ w', Run.on World.tick w = (.ok (), w') ∧ Changes w w' := by
  let next : World := { w with gameTime := w.gameTime + 1 }
  have hclock : World.Change w next := .clock
  have hnext : s.Ready clips next := h.changes hclock.once
  obtain ⟨w', hrun, hchanges⟩ := hnext.run (mem_functions_of_tick (.tail _ (.head _)))
    (fun id hid => nomatch hid : next.Knows none)
  exact ⟨w', World.on_tick h.tickFunctions hrun, hclock.once.trans hchanges⟩

/-- Summoning leaves a root behind: the first new entity rides nothing, and nothing that the rest of
the function does can change that. -/
theorem summon (h : s.Ready clips w) :
    ∃ root w', Run.on (World.summon s.names.namespaceName) w = (.ok root, w') ∧ Changes w w' := by
  let plan := EntityPlan.ofData s.config.rootEntity s.summonPayload
  let born : World := { w with entities := (World.spawn w.entities none plan).1 }
  have hborn : World.Change w born := .create plan
  obtain ⟨-, -, -, own, hown, hfree, -⟩ := World.tied_spawn plan h.serves.tied
    (fun p hp => nomatch hp) (v := none) (fun u hu => nomatch hu)
  have hready : s.Ready clips born := h.changes hborn.once
  have hmem : (s.function "summon", s.summonBody) ∈ s.functions clips :=
    mem_functions_of_instance (List.mem_append_left _ (.head _))
  have hbody := World.Sure.of_function (h.hosts.sure_functions h.depth_le _ hmem)
    (h.hosts.installs _ hmem)
  have hcall : World.Does 43 (.function (s.function "summon")) none w (Changes born) := by
    refine World.Does.function (h.hosts.installs _ hmem)
      (World.DoesAll.cons (World.Leads.of_on rfl (World.DoesAll.cons ?_)))
    -- the rest of the function sets the scores of the new root
    have hrest := hbody _ (.tail _ (.head _))
    rw [← h.changes hborn.once |>.serves.functions] at hrest
    exact World.Does.imp (hrest.does hready.serves fun id hid => nomatch hid) fun _ =>
      World.DoesAll.nil
  have hdepth : 43 ≤ w.maxDepth := by
    rw [h.hosts.maxDepth]
    decide
  obtain ⟨-, w', hrun, hchanges⟩ := World.Leads.run_on hcall hdepth
  -- the new root is still there, and it rides nothing
  obtain ⟨root, hroot, hfree'⟩ := hchanges.exists_free hready.serves.tied hown hfree
  have hfound :
      (w'.entities.toList.drop w.entities.size).find? (fun e => e.vehicle.isNone) ≠ none := by
    intro hnone
    have hmem : root ∈ w'.entities.toList.drop w.entities.size := by
      refine List.mem_of_getElem? (i := 0) ?_
      rw [List.getElem?_drop, Nat.add_zero, Array.getElem?_toList]
      exact hroot
    have := List.find?_eq_none.1 hnone root hmem
    simp [hfree'] at this
  obtain ⟨e, he⟩ := Option.ne_none_iff_exists'.1 hfound
  refine ⟨e.id, w', ?_, hborn.once.trans hchanges⟩
  show Run.on (Bind.bind (get : Run World) _) w = _
  rw [Run.on_bind_ok (Run.on_get w)]
  refine (Run.on_bind_ok hrun).trans ((Run.on_bind_ok (Run.on_get w')).trans ?_)
  rw [he]
  rfl

/-- Setting a score changes no entity and no function. -/
theorem setScore (h : s.Ready clips w) {id : Nat} {objective : String} {value : Int32}
    (ho : w.hasObjective objective = true) :
    ∃ w', Run.on (World.setScore id objective value) w = (.ok (), w') ∧ s.Ready clips w' :=
  ⟨w.setOwnerScore (.entity id) objective value, Run.on_bind_ok (World.on_requireObjective ho),
    ⟨h.hosts.installs, h.hosts.maxDepth⟩, h.tickFunctions, h.loadFunctions,
    ⟨h.serves.functions, h.serves.objectives, h.serves.tied⟩, h.depth_le⟩

/-- Whatever a caller does ends without an error, and after it everything can still run. -/
theorem act (h : s.Ready clips w) (hns : s.names.namespaceName = o.namespaceName)
    (hfunctions : ∀ f ∈ o.pack.functions, f ∈ s.functions clips) {d : Deed} (hd : o.Offers w d) :
    ∃ w', Run.on d.act w = (.ok (), w') ∧ s.Ready clips w' := by
  cases d with
  | load =>
    obtain ⟨w', hrun, hchanges⟩ := h.load
    exact ⟨w', hrun, h.changes hchanges⟩
  | tick =>
    obtain ⟨w', hrun, hchanges⟩ := h.tick
    exact ⟨w', hrun, h.changes hchanges⟩
  | run path executor =>
    obtain ⟨⟨body, hbody⟩, hx⟩ := hd
    obtain ⟨w', hrun, hchanges⟩ := h.run (hfunctions _ hbody) hx
    exact ⟨w', hrun, h.changes hchanges⟩
  | summon namespaceName =>
    obtain rfl : namespaceName = s.names.namespaceName := hd.trans hns.symm
    obtain ⟨root, w', hrun, hchanges⟩ := h.summon
    exact ⟨w', Run.on_bind_ok hrun, h.changes hchanges⟩
  | setScore id objective value => exact h.setScore hd

theorem evolves (h : s.Ready clips w) (hns : s.names.namespaceName = o.namespaceName)
    (hfunctions : ∀ f ∈ o.pack.functions, f ∈ s.functions clips)
    (hw : Evolves o.Offers w w') : s.Ready clips w' := by
  induction hw with
  | refl => exact h
  | tail _ hd ih =>
    obtain ⟨d, hallowed, rfl⟩ := hd
    obtain ⟨w'', hrun, hready⟩ := ih.act hns hfunctions hallowed
    rwa [hrun]

end Ready

/-- Every function of a pack is one that was generated. -/
theorem mem_functions_of_pack {p : Datapack} (h : s.pack clips = .ok p) :
    ∀ f ∈ p.functions, f ∈ s.functions clips := by
  intro f hf
  obtain ⟨key, hkey⟩ := Datapack.mem_functions.1 hf
  exact (mem_functions_of_get? h hkey).1

/-- The pack of an output can be loaded, and then all its functions can run. -/
theorem Compiles.exists_ready (h : s.Compiles o) (hrig : s.rig.IsBuilt) :
    ∃ w₀ w₁, World.ofPack o.pack = .ok w₀ ∧ Run.on World.load w₀ = (.ok (), w₁) ∧
      s.Ready o.clips w₁ := by
  have hns : IsStorageName s.names.namespaceName := h.namespaceName ▸ h.isStorageName
  obtain ⟨p, w₀, hp, hw₀⟩ := exists_pack hns hrig.nodup_variantNames h.areCompiled
    (isFiniteAtRest_of_pack h.pack)
  obtain rfl : p = o.pack := Except.ok.inj (hp.symm.trans h.pack)
  have hevents := events_ofPack hns hp hw₀
  have hhosts : s.Hosts o.clips w₀ := hosts_ofPack hp hw₀ rfl rfl
  obtain ⟨objectives, hload, hloaded⟩ := hhosts.load (congrArg World.loadFunctions hevents)
  refine ⟨w₀, _, hw₀, hload, ⟨hosts_ofPack hp hw₀ rfl rfl,
    congrArg World.tickFunctions hevents, congrArg World.loadFunctions hevents, ⟨rfl, ?_, ?_⟩, ?_⟩⟩
  · rintro _ ⟨k, hk, rfl⟩
    exact hloaded k hk
  · exact (World.consistent_ofPack hw₀).tied
  · intro c hc
    have hbuilt : c.tree = .build c.clip.frames c.clip.duration := h.areCompiled.built c hc
    rw [hbuilt]
    exact (DispatchTree.isSound_build _ (h.duration_le c hc)).depth_le

end Stage

/-- The pack of everything that is compiled makes a world that can be loaded, and nothing that a
caller then does, in any order and as often as it likes, ends with an error. -/
theorem runs_of_compile (name : String) (nodes : List RigNode) (variants : List Variant)
    (animations : List Animation) (config : Config) :
    Ensures (Rig.build name nodes variants) fun rig =>
      Ensures (compile rig animations config) fun o =>
        ∃ w₀ w₁, World.ofPack o.pack = .ok w₀ ∧ Run.on World.load w₀ = (.ok (), w₁) ∧
          ∀ w, World.Evolves o.Offers w₁ w → ∀ d, o.Offers w d →
            ∃ w', Run.on d.act w = (.ok (), w') := by
  refine Ensures.intro fun rig hbuild => Ensures.intro fun o hcompile => ?_
  have hrig : rig.IsBuilt := ⟨name, nodes, variants, hbuild⟩
  obtain ⟨s, rfl, -, hcompiles⟩ := Stage.exists_compiles hrig hcompile
  obtain ⟨w₀, w₁, hw₀, hload, hready⟩ := hcompiles.exists_ready hrig
  have hfunctions := Stage.mem_functions_of_pack hcompiles.pack
  refine ⟨w₀, w₁, hw₀, hload, fun w hw d hd => ?_⟩
  obtain ⟨w', hrun, -⟩ := (hready.evolves hcompiles.namespaceName hfunctions hw).act
    hcompiles.namespaceName hfunctions hd
  exact ⟨w', hrun⟩

end Marionette
