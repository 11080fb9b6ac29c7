import Marionette.Proofs.World.Commands
import Marionette.Proofs.World.Consistency

/-!
# What callers do

A caller of a world can load it, let time pass, run functions, summon instances and set scores, in
any order and as often as it likes.

- `Deed`: what a caller can do; `Deed.act` does it.
- `World.Evolves`: what a world becomes by deeds that are allowed, also by those that stop with an
  error.
- `makes_act`: a deed is a sequence of changes.
- `World.consistent_of_evolves`: every world that comes from a pack is consistent.
-/

namespace Marionette

/-- What a caller can do to a world. -/
inductive Deed where
  /-- Runs the functions of the start. -/
  | load
  /-- Lets a tick pass. -/
  | tick
  /-- Runs a function as an entity, or as none. -/
  | run (path : FunctionPath) (executor : Option Nat)
  /-- Summons an instance of a rig. -/
  | summon (namespaceName : String)
  /-- Sets the score of an entity. -/
  | setScore (id : Nat) (objective : String) (value : Int32)

namespace Deed

/-- Does it. -/
def act : Deed → Run Unit
  | load => World.load
  | tick => World.tick
  | run path executor => World.run path executor
  | summon namespaceName => do let _ ← World.summon namespaceName
  | setScore id objective value => World.setScore id objective value

/-- Functions run as entities that were created, and only entities that are alive are given
scores. -/
def IsFair (w : World) : Deed → Prop
  | run _ executor => ∀ id, executor = some id → id < w.entities.size
  | setScore id _ _ => w.IsLiving id
  | _ => True

end Deed

namespace World

/-- What a world becomes by deeds that are allowed at their time, whether or not they end with
errors. -/
def Evolves (allowed : World → Deed → Prop) : World → World → Prop :=
  Relation.ReflTransGen fun w w' => ∃ d, allowed w d ∧ w' = (Run.on d.act w).2

variable {w w' : World} {objective : String}

open Run (Makes)

/-- A score is set for an owner that lives. -/
theorem makes_setScore {id : Nat} {value : Int32} (h : (Owner.entity id).Lives w) :
    Makes (setScore id objective value) w := by
  refine Run.Leaves.bind (R := Changes) leaves_requireObjective fun _ w' hrun => ?_
  obtain rfl := eq_of_requireObjective hrun
  exact (Change.score (.entity id) objective value h).once

/-- Who is alive may own scores. -/
theorem IsLiving.lives {id : Nat} (h : w.IsLiving id) : (Owner.entity id).Lives w := by
  obtain ⟨e, he, hid, halive⟩ := h
  exact ⟨e, Array.mem_of_getElem? he, hid, halive⟩

/-- A deed is a sequence of changes if the scores that it sets belong to entities that are alive. -/
theorem makes_act {d : Deed} (h : d.IsFair w) : Makes d.act w := by
  cases d with
  | load => exact makes_load
  | tick => exact makes_tick
  | run path executor => exact makes_run path
  | summon namespaceName => exact (makes_summon namespaceName).andThen fun _ _ => .nothing _
  | setScore id objective value => exact makes_setScore (IsLiving.lives h)

/-- Fair deeds only make changes of the known kinds. -/
theorem changes_of_evolves (h : Evolves Deed.IsFair w w') : Changes w w' := by
  induction h with
  | refl => exact .refl
  | tail _ hd ih =>
    obtain ⟨d, hfair, rfl⟩ := hd
    exact ih.trans (makes_act hfair)

/-- Every world that comes from a pack is consistent, and what was removed from it never comes
back. -/
theorem consistent_of_evolves {pack : Datapack} {w₀ : World} (h₀ : ofPack pack = .ok w₀)
    (h : Evolves Deed.IsFair w₀ w) (h' : Evolves Deed.IsFair w w') :
    w.Consistent ∧ ∀ i, w.IsRemoved i → w'.IsRemoved i := by
  have hconsistent : w.Consistent := (consistent_ofPack h₀).changes (changes_of_evolves h)
  exact ⟨hconsistent, fun i hi => hi.changes hconsistent.tied (changes_of_evolves h')⟩

/-- A boat is summoned with a pig in it and then removed: the pig is left behind, and the boat does
not come back when the same happens again. -/
theorem consistent_after_boat : ∃ (pack : Datapack) (w₀ w w' : World), ofPack pack = .ok w₀ ∧
    Evolves Deed.IsFair w₀ w ∧ Evolves Deed.IsFair w w' ∧ w.IsRemoved 0 ∧ w.IsLiving 1 ∧
    w.Consistent ∧ w'.IsRemoved 0 := by
  let path : FunctionPath := ⟨"sea", "trip"⟩
  let body : List Command :=
    [.summon "boat" [("Passengers", .list [.compound [("id", .string "pig")]])],
      .kill (Selector.entities.ofType "boat")]
  -- a pack with this function and no tags
  obtain ⟨pack, hadd⟩ : ∃ pack,
      ({} : Datapack).add path.filePath (.function path body) = .ok pack :=
    ⟨_, Datapack.add_eq _ (Datapack.get?_empty _)⟩
  have hholds : pack.Holds [(path.filePath, .function path body)] := Datapack.holds_empty.add hadd
  have hnamed : Datapack.IsNamed [(path.filePath, .function path body)] :=
    Datapack.isNamed_functionFiles [(path, body)]
  have hnotag : ∀ name, tagFile name ≠ path.filePath → readTag pack name = .ok [] := by
    intro name hname
    have hget : pack.get? (tagFile name) = none := by
      rw [Datapack.get?_add hadd, if_neg hname, Datapack.get?_empty]
    unfold readTag
    dsimp only
    rw [hget]
  obtain ⟨w₀, hw₀⟩ : ∃ w₀, ofPack pack = .ok w₀ := by
    unfold ofPack
    rw [hnotag "tick" (by decide), hnotag "load" (by decide)]
    exact ⟨_, rfl⟩
  have hbody : w₀.functions[path]? = some body :=
    functions_ofPack _ hholds hnamed hw₀ (List.mem_singleton_self _)
  obtain ⟨ticks, loads, -, -, hnew⟩ := ofPack_eq hw₀
  -- any number of trips may be made
  have hdeed : ∀ w : World, Evolves Deed.IsFair w (Run.on (Deed.act (.run path none)) w).2 :=
    fun w => .single ⟨.run path none, fun id hid => (nomatch hid), rfl⟩
  -- the boat has number zero and the pig number one
  have htrip : Does 1 (.function path) none w₀ fun w => w.IsRemoved 0 ∧ w.IsLiving 1 := by
    refine Does.function hbody (DoesAll.cons ?_)
    refine Leads.of_on rfl (DoesAll.cons ?_)
    refine Leads.bind_on (Run.on_get _) (Leads.of_on rfl (DoesAll.nil ?_))
    rw [hnew]
    exact ⟨⟨_, rfl, rfl⟩, _, rfl, rfl, rfl⟩
  have hdepth : w₀.maxDepth = defaultMaxDepth := by rw [hnew]
  obtain ⟨-, w, hrun, hremoved, hliving⟩ := Leads.run_on htrip (by rw [hdepth]; decide)
  have hw : Evolves Deed.IsFair w₀ w := by
    have hw := hdeed w₀
    rwa [show Run.on (Deed.act (.run path none)) w₀ = (.ok (), w) from hrun] at hw
  obtain ⟨hconsistent, hkept⟩ := consistent_of_evolves hw₀ hw (hdeed w)
  exact ⟨pack, w₀, w, _, hw₀, hw, hdeed w, hremoved, hliving, hconsistent, hkept 0 hremoved⟩

end World

end Marionette
