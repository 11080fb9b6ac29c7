import Marionette.Proofs.Isolation.Ticks

/-!
# New instances

A new instance does not depend on the world in which it is summoned, and summoning it leaves all
other entities alone.

- `World.HasNoHeirs`: no score waits for an entity that is still to be created.
- `RunsOnly.exists_summons`: what summoning leads to: the entities are created, and then the new
  root sets its own scores.
- `RunsOnly.twins_of_summons`: two instances that were just summoned are in the same state.
- `Compiles.isSettled_of_reaches`: in every world that callers can reach, nothing is left that was
  just summoned.
- `Compiles.exists_second`: two instances can be summoned one after the other.
-/

namespace Marionette

/-- No score waits for an entity that is still to be created. -/
def World.HasNoHeirs (w : World) : Prop :=
  ∀ i, w.entities.size ≤ i → ∀ objective, w.score? i objective = none

namespace Stage

open World (Changes CreatesNone Does DoesAll GivesNo KeepsTo Reaches Twins)

variable {s : Stage} {clips : List CompiledClip} {w w' u u' : World}

/-- None of the entities was just summoned. -/
def IsSettled (s : Stage) (w : World) : Prop :=
  ∀ i e, w.entity? i = some e → e.matches s.newborns = false

/-- A world becomes another one by summoning: the entities are created, and then the new root sets
its own scores. -/
structure SummonsTo (s : Stage) (w u : World) : Prop where
  run : Run.on (World.summon s.names.namespaceName) w = (.ok w.entities.size, u)
  turn : Does 43 (.function (s.function "init_instance")) (some w.entities.size)
    (s.summoned w) (· = u)
  keeps : KeepsTo w.entities.size (s.summoned w) u
  isRoot : u.IsRoot s.names s.config w.entities.size
  settled : s.IsSettled u

/-- The function that summons does so for whoever runs it. -/
theorem RunsOnly.summon_call (h : s.RunsOnly clips w) (hsettled : s.IsSettled w)
    {executor : Option Nat}
    (hinit : Does 43 (.function (s.function "init_instance")) (some w.entities.size) (s.summoned w)
      (· = u)) :
    Does 44 (.function (s.function "summon")) executor w (· = u) := by
  refine Does.call h.hosts.installs_instance (.head _) (DoesAll.cons ?_)
  refine World.Leads.of_on rfl (DoesAll.cons ?_)
  exact Does.imp (Does.execute_asEach_single (select_newborns h.hosts hsettled) hinit.execute_nil)
    fun _ hv => DoesAll.nil hv

/-- Where everyone is settled a new instance can be summoned. -/
theorem RunsOnly.exists_summons (h : s.RunsOnly clips w) (hsettled : s.IsSettled w) :
    ∃ u, s.SummonsTo w u := by
  have hruns : s.RunsOnly clips (s.summoned w) := h.changes (World.Change.create _).once
  have hselect := select_newborns h.hosts hsettled
  have hmem : (s.function "init_instance", s.initBody (clips.map (·.clip))) ∈ s.functions clips :=
    mem_functions_of_instance (List.mem_append_left _ (by simp))
  have hknown : (s.summoned w).Knows (some w.entities.size) := by
    intro id hid
    obtain rfl := Option.some.inj hid
    exact hruns.serves.lt_of_mem_select (hselect ▸ List.mem_singleton_self _)
  obtain ⟨o, u, hturn, -, hkeeps⟩ :=
    hruns.narrow hmem (not_isWide_function (by decide)) hknown
  have hinit : Does 43 (.function (s.function "init_instance")) (some w.entities.size)
    (s.summoned w)
      (· = u) := ⟨o, u, hturn, rfl⟩
  have hbody : Does 44 (.function (s.function "summon")) none w (· = u) :=
    h.summon_call hsettled hinit
  have hdepth : 44 ≤ w.maxDepth := by
    rw [h.hosts.maxDepth]
    decide
  obtain ⟨-, v, hrun, rfl⟩ := World.Leads.run_on hbody hdepth
  -- finding the new root changes nothing
  obtain ⟨w', hsummon, hshows, -⟩ := h.hosts.summon (fun k hk => h.hasObjective hk) hsettled
  have hsame : (Run.on (World.summon s.names.namespaceName) w).2 = v := by
    show (Run.on (Bind.bind (get : Run World) _) w).2 = v
    rw [Run.on_bind_ok (Run.on_get w)]
    show (Run.on (Bind.bind (World.run (s.function "summon") none) _) w).2 = v
    rw [Run.on_bind_ok hrun, Run.on_bind_ok (Run.on_get v)]
    split <;> rfl
  rw [hsummon] at hsame
  obtain rfl : w' = v := hsame
  have hroot : w'.IsRoot s.names s.config w.entities.size := by
    obtain ⟨e, he, hroot⟩ := hshows.root
    exact ⟨e, he, hroot.alive, hroot.entityType,
      (hroot.hasTag .root).trans (startScene_tagged h.hosts .root)⟩
  refine ⟨w', hsummon, hinit, hkeeps, hroot, fun i e he => Bool.eq_false_iff.2 fun hmatch => ?_⟩
  by_cases hi : i = w.entities.size
  · -- the root has lost the tag with which it was summoned
    have htag : w'.hasTag w.entities.size s.names.newTag = false :=
      (hshows.hasTag .new).trans (by simp [Instance.initiated])
    rw [World.hasTag, ← hi, he, Option.any_some] at htag
    rw [newborns, Entity.matches_ofType_tagged, htag, Bool.and_false] at hmatch
    cases hmatch
  · -- and nothing else had it
    have hbare := hkeeps.bare i hi
    rw [he] at hbare
    obtain ⟨e₀, he₀, hsame⟩ := Option.map_eq_some_iff.1 hbare.symm
    have hmatch₀ : e₀.matches s.newborns = true :=
      (congrArg (fun e => Entity.matches e s.newborns) hsame :).trans hmatch
    have hpicked : i ∈ (s.summoned w).select s.newborns none :=
      List.mem_map.2
        ⟨e₀, List.mem_filter.2 ⟨Array.mem_toList_iff.2 (Array.mem_of_getElem? he₀), hmatch₀⟩,
        hruns.tied.numbered i e₀ he₀⟩
    rw [hselect] at hpicked
    exact hi (List.mem_singleton.1 hpicked)

namespace SummonsTo

variable (hu : s.SummonsTo w u)
include hu

/-- The entities that were there before are as they were. -/
theorem entity?_of_lt {i : Nat} (hi : i < w.entities.size) : u.entity? i = w.entity? i := by
  have hsummoned : (s.summoned w).entity? i = w.entity? i := by rw [entity?_summoned, if_pos hi]
  refine (hu.keeps.entity? i (by omega) ?_).trans hsummoned
  rintro ⟨e, he, hmem⟩
  rw [entity?_summoned, if_neg (by omega), if_pos rfl] at he
  obtain rfl := Option.some.inj he
  obtain ⟨hlt, -⟩ := List.mem_range'_1.1 hmem
  omega

/-- Only the new root has new scores. -/
theorem score?_of_ne {i : Nat} (hi : i ≠ w.entities.size) (objective : String) :
    u.score? i objective = w.score? i objective :=
  hu.keeps.score (.entity i) objective (fun heq => hi (Owner.entity.inj heq)) nofun

/-- The new root is the only one that is new. -/
theorem isRoot_iff (hw : w.Unmounted s.names.rootTag) {i : Nat} :
    u.IsRoot s.names s.config i ↔ w.IsRoot s.names s.config i ∨ i = w.entities.size := by
  constructor
  · intro hroot
    by_cases hi : i = w.entities.size
    · exact .inr hi
    · obtain ⟨e, he, hrest⟩ := hu.keeps.isRoot hi hroot
      by_cases hlt : i < w.entities.size
      · rw [entity?_summoned, if_pos hlt] at he
        exact .inl ⟨e, he, hrest⟩
      · -- the other new entities ride the root
        have hfree :=
          (World.KeepsUnmounted.create (s.hasBareRiders_summonPayload _)).unmounted hw i e he
          hrest.2.2
        rw [entity?_summoned, if_neg hlt, if_neg hi] at he
        obtain ⟨b, -, rfl⟩ := Option.map_eq_some_iff.1 he
        cases hfree
  · rintro (⟨e, he, hrest⟩ | rfl)
    · exact ⟨e, (hu.entity?_of_lt (Array.getElem?_eq_some_iff.1 he).1).trans he, hrest⟩
    · exact hu.isRoot

/-- No score waits for what comes after the new entities. -/
theorem hasNoHeirs (hw : w.HasNoHeirs) : u.HasNoHeirs := by
  intro i hi objective
  obtain ⟨e, he, -⟩ := hu.isRoot
  have hlt := (Array.getElem?_eq_some_iff.1 he).1
  rw [hu.score?_of_ne (by omega)]
  exact hw i (by omega) objective

/-- The answers to the author stay as they were. -/
theorem conditions : u.conditions = w.conditions :=
  World.conditions_eq_of_setting hu.keeps.setting

/-- Callers can summon. -/
theorem reaches {o : Output} (hns : s.names.namespaceName = o.namespaceName) :
    Reaches o.Offers w u := by
  have hdone : Run.on (Deed.summon s.names.namespaceName).act w = (.ok (), u) :=
    Run.on_bind_ok hu.run
  exact .single (.inl ⟨.summon s.names.namespaceName, hns, congrArg Prod.snd hdone.symm⟩)

end SummonsTo

/-! ### Settled worlds -/

/-- Where no one has the tag of new roots everyone is settled. -/
theorem isSettled_of_lacks (h : w.Lacks s.names.newTag) : s.IsSettled w := by
  intro i e he
  have htag := h i
  rw [World.hasTag, he, Option.any_some] at htag
  rw [newborns, Entity.matches_ofType_tagged, htag, Bool.and_false]

/-- The new root loses the tag with which it was summoned, and the entities of the nodes never had
it. -/
theorem SummonsTo.lacks (hu : s.SummonsTo w u) (hw : w.Lacks s.names.newTag) :
    u.Lacks s.names.newTag := by
  intro i
  by_cases hi : i = w.entities.size
  -- the new root: everyone has settled, so it has lost the tag
  · subst hi
    obtain ⟨e, he, halive, htype, -⟩ := hu.isRoot
    have hmatch := hu.settled _ e he
    rw [newborns, Entity.matches_ofType_tagged, halive, htype] at hmatch
    rw [World.hasTag, he, Option.any_some]
    simpa using hmatch
  -- everyone else has the tags that it had when the entities were created
  · have hsame := congrArg (Option.map Entity.tags) (hu.keeps.bare i hi)
    rw [Option.map_map, Option.map_map] at hsame
    have htag : u.hasTag i s.names.newTag = (s.summoned w).hasTag i s.names.newTag := by
      have hany := congrArg (Option.any fun tags => decide (s.names.newTag ∈ tags)) hsame
      rwa [Option.any_map, Option.any_map] at hany
    rw [htag]
    by_cases hlt : i < w.entities.size
    · rw [World.hasTag, entity?_summoned, if_pos hlt]
      exact hw i
    · by_cases hrider : i ∈ List.range' (w.entities.size + 1) s.bodies.length
      · exact s.hasTag_summoned_of_ne w (t := .new) (.inr rfl) hrider
      · have hafter : s.bodies.length ≤ i - (w.entities.size + 1) := by
          rw [List.mem_range'_1] at hrider
          omega
        rw [World.hasTag, entity?_summoned, if_neg hlt, if_neg hi, List.getElem?_eq_none hafter]
        rfl

/-- Whatever callers do, nothing is left that was just summoned. -/
theorem RunsOnly.lacks_act {o : Output} (h : s.RunsOnly clips w)
    (hns : s.names.namespaceName = o.namespaceName) (hw : w.Lacks s.names.newTag) {d : Deed}
    (hd : o.Offers w d) : (Run.on d.act w).2.Lacks s.names.newTag := by
  have hgives : World.Tolerates s.IsOrdinary (EntityPlan.HasBareRiders s.names.rootTag)
      (GivesNo s.names.newTag) := GivesNo.tolerates s.not_isOrdinary_newTag
  have hcreates := CreatesNone.tolerates s.IsOrdinary
  -- at its events, a world does not summon
  have hevent : ∀ name ∈ ["load", "tick"], ∀ path ∈ [s.function name],
      path ≠ s.function "summon" := by
    rintro name hname path hpath heq
    rw [List.mem_singleton.1 hpath] at heq
    obtain rfl : name = "summon" := congrArg FunctionPath.path heq
    revert hname
    decide
  obtain ⟨u, hu⟩ := h.exists_summons (isSettled_of_lacks hw)
  cases d with
  | load =>
    have hload : ∀ path ∈ w.loadFunctions, path ≠ s.function "summon" := by
      rw [h.loadFunctions]
      exact hevent "load" (by decide)
    exact hw.keep (hgives.load h.givesOnly) (hcreates.load_of_calls hload h.givesAmong)
  | tick =>
    have htick : ∀ path ∈ w.tickFunctions, path ≠ s.function "summon" := by
      rw [h.tickFunctions]
      exact hevent "tick" (by decide)
    exact hw.keep (hgives.tick h.givesOnly) (hcreates.tick_of_calls htick h.givesAmong)
  | run path executor =>
    by_cases hpath : path = s.function "summon"
    · have hdepth : 44 ≤ w.maxDepth := by
        rw [h.hosts.maxDepth]
        decide
      have hsummons : Does 44 (.function (s.function "summon")) executor w (· = u) :=
        h.summon_call (isSettled_of_lacks hw) hu.turn
      obtain ⟨-, v, hrun, rfl⟩ := World.Leads.run_on hsummons hdepth
      rw [hpath, show Run.on (Deed.run (s.function "summon") executor).act w = _ from hrun]
      exact hu.lacks hw
    · exact hw.keep (hgives.run path h.givesOnly) (hcreates.run_of_calls hpath h.givesAmong)
  | summon namespaceName =>
    obtain rfl : namespaceName = s.names.namespaceName := hd.trans hns.symm
    rw [show Run.on (Deed.summon s.names.namespaceName).act w = (.ok (), u) from
      Run.on_bind_ok hu.run]
    exact hu.lacks hw
  | setScore id objective value =>
    have hset : Run.on (World.setScore id objective value) w = (.ok (), _) :=
      Run.on_bind_ok (World.on_requireObjective hd)
    rw [show Run.on (Deed.setScore id objective value).act w = _ from hset]
    exact hw

/-- In every world that callers can reach, nothing is left that was just summoned. -/
theorem Compiles.isSettled_of_reaches {o : Output} (h : s.Compiles o) (hrig : s.rig.IsBuilt)
    {w₀ w₁ : World} (hw₀ : World.ofPack o.pack = .ok w₀)
    (hload : Run.on World.load w₀ = (.ok (), w₁)) (hw : Reaches o.Offers w₁ w) : s.IsSettled w := by
  refine isSettled_of_lacks ?_
  induction hw with
  | refl =>
    intro i
    rw [World.hasTag, World.entity?, (h.empty_of_load hw₀ hload).1]
    rfl
  | tail hbefore hstep ih =>
    obtain ⟨d, hd, rfl⟩ | ⟨answers, rfl⟩ := hstep
    · exact (h.runsOnly_of_reaches hrig hw₀ hload hbefore).1.lacks_act h.namespaceName ih hd
    · exact ih

/-! ### Two instances -/

/-- Entities of two worlds that were created by summoning, in order. -/
def births (s : Stage) (w w' : World) : List (Nat × Nat) :=
  (List.range s.bodies.length).map fun j => (w.entities.size + 1 + j, w'.entities.size + 1 + j)

/-- Two instances that were just summoned are in the same state. -/
theorem RunsOnly.twins_of_summons (h : s.RunsOnly clips w) (hfunctions : w'.functions = w.functions)
    (h' : s.RunsOnly clips w')
    (hanswers : ∀ text, w'.conditions.getD text true = w.conditions.getD text true)
    (hheirs : w.HasNoHeirs) (hheirs' : w'.HasNoHeirs) (hu : s.SummonsTo w u)
    (hu' : s.SummonsTo w' u') :
    Twins (w.entities.size, w'.entities.size) (s.births w w') u u' := by
  -- entities of one number after the first new one correspond
  have hmem : ∀ m ∈ (w.entities.size, w'.entities.size) :: s.births w w', ∃ j,
      m = (w.entities.size + j, w'.entities.size + j) := by
    intro m hm
    rcases List.mem_cons.1 hm with rfl | hm
    · exact ⟨0, rfl⟩
    · obtain ⟨j, -, rfl⟩ := List.mem_map.1 hm
      exact ⟨1 + j, by rw [Nat.add_assoc, Nat.add_assoc]⟩
  -- two instances that were born alike
  let P : Pairing := ⟨(w.entities.size, w'.entities.size), s.births w w', by
    intro m hm n hn
    obtain ⟨j, rfl⟩ := hmem m hm
    obtain ⟨k, rfl⟩ := hmem n hn
    simp only [Nat.add_left_cancel_iff]⟩
  have hriders : P.riders = (List.range s.bodies.length).map fun j =>
      (w.entities.size + 1 + j, w'.entities.size + 1 + j) := rfl
  have hruns : s.RunsOnly clips (s.summoned w) := h.changes (World.Change.create _).once
  have hruns' : s.RunsOnly clips (s.summoned w') := h'.changes (World.Change.create _).once
  have hroot : ∀ w : World, (s.summoned w).entity? w.entities.size = some
      { id := w.entities.size, entityType := s.config.rootEntity, tags := tagsOf s.summonPayload,
        data := ownData s.summonPayload,
        passengers := List.range' (w.entities.size + 1) s.bodies.length } := by
    intro w
    rw [entity?_summoned, if_neg (Nat.lt_irrefl _), if_pos rfl]
  -- right after the entities were created both look alike, and nobody has a score
  have hm : P.Mirrors w.functions (s.summoned w) (s.summoned w') := by
    refine ⟨⟨?_, ?_, fun m hm => ⟨?_, fun objective => ?_⟩⟩, ⟨hruns.tied.numbered, rfl⟩,
      ⟨hruns'.tied.numbered, hfunctions⟩, ⟨_, hroot w, rfl, rfl⟩, hanswers⟩
    · rw [hroot w, Option.map_some, hriders, List.map_map, List.range'_eq_map_range]
      rfl
    · rw [hroot w', Option.map_some, hriders, List.map_map, List.range'_eq_map_range]
      rfl
    · rcases List.mem_cons.1 hm with rfl | hrider
      · rw [hroot w, hroot w']
        rfl
      · obtain ⟨j, hj, rfl⟩ := List.mem_map.1 hrider
        have hb := List.getElem?_eq_getElem (List.mem_range.1 hj)
        rw [s.entity?_summoned_rider w hb, s.entity?_summoned_rider w' hb]
        rfl
    · obtain ⟨j, rfl⟩ := hmem m hm
      exact (hheirs' _ (Nat.le_add_right _ _) objective).trans
        (hheirs _ (Nat.le_add_right _ _) objective).symm
  have hinit : (s.function "init_instance", s.initBody (clips.map (·.clip))) ∈ s.functions clips :=
    mem_functions_of_instance (List.mem_append_left _ (by simp))
  -- the start of both instances is one function, run for each of them
  obtain ⟨-, v, -, rfl, hv⟩ := hu.turn.and
    (hruns.turn hm hinit (not_isWide_function (by decide)) hu'.turn)
  exact hv.toTwins

/-- Where a pack was loaded and nothing else has happened, a root can be summoned and then another
one; the second instance is in the state in which the first one was when it was alone. -/
theorem Compiles.exists_second {o : Output} (h : s.Compiles o) {w₀ w₁ : World}
    (hw₀ : World.ofPack o.pack = .ok w₀) (hload : Run.on World.load w₀ = (.ok (), w₁))
    (hruns : s.RunsOnly o.clips w₁) :
    ∃ w' w, Reaches o.Offers w₁ w' ∧ Reaches o.Offers w₁ w ∧
      w₁.entities.size < w'.entities.size ∧
      (∀ i, w'.IsRoot s.names s.config i ↔ i = w₁.entities.size) ∧
      (∀ i, w.IsRoot s.names s.config i ↔ i = w₁.entities.size ∨ i = w'.entities.size) ∧
      w'.conditions = w.conditions ∧
      Twins (w'.entities.size, w₁.entities.size) (s.births w' w₁) w w' := by
  -- at first there are no entities at all
  obtain ⟨hentities, hscores⟩ := h.empty_of_load hw₀ hload
  have hnone : ∀ i, w₁.entity? i = none := by
    intro i
    rw [World.entity?, hentities]
    rfl
  have hfunctions := mem_functions_of_pack h.pack
  have hsettled : s.IsSettled w₁ := by
    intro i e he
    cases (hnone i).symm.trans he
  obtain ⟨w', hfirst⟩ := hruns.exists_summons hsettled
  have hreaches := hfirst.reaches h.namespaceName
  have hruns' := hruns.reaches h.namespaceName hfunctions hreaches
  obtain ⟨w, hsecond⟩ := hruns'.exists_summons hfirst.settled
  have hunmounted : ∀ {w}, Reaches o.Offers w₁ w → w.Unmounted s.names.rootTag := fun hw =>
    hruns.unmounted_of_reaches h.namespaceName hfunctions hentities hw
  -- no score waits for an entity with a number that is not given yet
  have hheirs : w₁.HasNoHeirs := by
    intro i hi objective
    show w₁.scores[(Owner.entity i, objective)]? = none
    rw [hscores, Std.HashMap.getElem?_empty]
  -- the first root stays the only one until the second is summoned
  have halone : ∀ i, w'.IsRoot s.names s.config i ↔ i = w₁.entities.size := by
    intro i
    rw [hfirst.isRoot_iff (hunmounted .refl)]
    refine or_iff_right ?_
    rintro ⟨e, he, -⟩
    cases (hnone i).symm.trans he
  refine ⟨w', w, hreaches, hreaches.trans (hsecond.reaches h.namespaceName), ?_, halone,
    fun i => ?_, hsecond.conditions.symm, ?_⟩
  · obtain ⟨e, he, -⟩ := hfirst.isRoot
    exact (Array.getElem?_eq_some_iff.1 he).1
  · rw [hsecond.isRoot_iff (hunmounted hreaches), halone]
  · refine hruns'.twins_of_summons (functions_reaches hreaches).symm hruns (fun text => ?_)
      (hfirst.hasNoHeirs hheirs) hheirs hsecond hfirst
    rw [hfirst.conditions]

end Stage

end Marionette
