import Marionette.Proofs.Datum.Merging
import Marionette.Proofs.Lifecycle
import Marionette.Proofs.Silence

/-!
# The last variant wins

A variant gives every bone an item, also those bones of which it says nothing, and items are merged
into the data of entities.  Items have the same keys, so nothing of the item before is left.

- `Compound.merge_itemData`: the item that is merged in last is the one that stays.
- `Entity.dressed`: what items that are handed out by tag make of an entity; `Entity.dressed_eq`:
  only the last one counts.
- `Stage.outfit`: the items that a variant hands out; `Stage.map_fst_outfit`: all variants hand out
  to the same tags.
- `World.dressed`: a world in which the passengers of a root were given items.
- `RunsOnly.variantApply`: showing a variant leads there; `SummonsTo.dressed`: new instances are
  there for the default variant.
- `variants_of_compile`: so the last variant wins, for everything that is compiled.
-/

namespace Marionette

/-! ### Items in data -/

namespace Compound

variable {c : Compound}

/-- The keys of an item are set one after the other. -/
theorem merge_item (c : Compound) (id : String) :
    c.merge [("id", .string id), ("count", .int 1)] =
      (c.insert "id" (.string id)).insert "count" (.int 1) := by
  rw [merge, merge, merge, mergeValue, mergeValue] <;> simp

/-- Nothing of an item is left where another one is merged in. -/
theorem mergeValue_itemData (old : Option Datum) (first last : String) :
    mergeValue (some (mergeValue old (itemData first))) (itemData last) =
      mergeValue old (itemData last) := by
  unfold itemData
  rcases mergeValue_cases old with ⟨existing, rfl⟩ | hreplaced
  · have hkey : (get? (insert existing "id" (.string first)) "id").isSome = true := by
      rw [get?_insert, if_pos rfl]
      rfl
    simp only [mergeValue, merge_item]
    rw [insert_comm_of_contains (by simp) hkey, insert_insert, insert_insert]
  · rw [hreplaced, hreplaced, mergeValue, merge_item]
    rfl

/-- The item that is merged in last is the one that stays. -/
theorem merge_itemData (c : Compound) (first last : String) :
    (c.merge [("item", itemData first)]).merge [("item", itemData last)] =
      c.merge [("item", itemData last)] := by
  simp only [merge]
  rw [get?_insert, if_pos rfl, mergeValue_itemData, insert_insert]

/-- Merging in the item that is there changes nothing. -/
theorem merge_itemData_eq_self {id : String} (h : get? c "item" = some (itemData id)) :
    c.merge [("item", itemData id)] = c := by
  have hsame : mergeValue (some (itemData id)) (itemData id) = itemData id := by
    unfold itemData
    rw [mergeValue, merge_item]
    rfl
  rw [merge, merge, h, hsame, insert_eq_self h]

/-- An item that was merged in is there, one of its kind. -/
theorem get?_merge_itemData (c : Compound) (id : String) :
    ∃ item, get? (c.merge [("item", itemData id)]) "item" = some (.compound item) ∧
      get? item "id" = some (.string id) ∧ get? item "count" = some (.int 1) := by
  rw [merge, merge, get?_insert, if_pos rfl, itemData]
  rcases mergeValue_cases (get? c "item") with ⟨existing, hold⟩ | hreplaced
  · refine ⟨_, by rw [hold, mergeValue], ?_, ?_⟩ <;> rw [merge_item, get?_insert]
    · rw [if_neg (by simp), get?_insert, if_pos rfl]
    · rw [if_pos rfl]
  · exact ⟨_, congrArg some (hreplaced _), rfl, rfl⟩

end Compound

/-! ### Items on entities -/

/-- Gives an entity an item to show. -/
def Entity.wear (e : Entity) (model : String) : Entity :=
  { e with data := e.data.merge [("item", itemData model)] }

/-- Hands items out to those who carry a tag, one after the other. -/
def Entity.dressed (outfit : List (String × String)) (e : Entity) : Entity :=
  outfit.foldl (fun e item => if e.hasTag item.1 then e.wear item.2 else e) e

/-- The last item that an entity gets. -/
def Entity.lastItem? (outfit : List (String × String)) (e : Entity) : Option String :=
  (outfit.reverse.find? fun item => e.hasTag item.1).map (·.2)

namespace Entity

variable {e : Entity} {outfit outfit' : List (String × String)}

theorem wear_wear (e : Entity) (first last : String) : (e.wear first).wear last = e.wear last := by
  unfold wear
  rw [Compound.merge_itemData]

theorem wear_eq_self {model : String} (h : e.look.item = some (itemData model)) :
    e.wear model = e := by
  have hsame : e.data.merge [("item", itemData model)] = e.data := Compound.merge_itemData_eq_self h
  unfold wear
  rw [hsame]

/-- Of all items that are handed out, only the last one counts. -/
theorem dressed_eq (outfit : List (String × String)) (e : Entity) :
    e.dressed outfit = (e.lastItem? outfit).elim e e.wear := by
  induction outfit using List.reverseRecOn with
  | nil => rfl
  | append_singleton rest item ih =>
    -- the last item is put on if its tag fits, whatever was worn before
    have hstep : e.dressed (rest ++ [item]) =
        if (e.dressed rest).hasTag item.1 then (e.dressed rest).wear item.2
        else e.dressed rest := by
      rw [dressed, List.foldl_append]
      rfl
    have htag : (e.dressed rest).hasTag item.1 = e.hasTag item.1 := by
      rw [ih]
      cases e.lastItem? rest <;> rfl
    have hlast : e.lastItem? (rest ++ [item]) =
        if e.hasTag item.1 then some item.2 else e.lastItem? rest := by
      unfold lastItem?
      rw [List.reverse_append, List.reverse_singleton, List.singleton_append, List.find?_cons]
      cases e.hasTag item.1 <;> rfl
    rw [hstep, htag, hlast, ih]
    cases e.hasTag item.1 with
    | false => rfl
    | true =>
      cases e.lastItem? rest with
      | none => rfl
      | some model => exact e.wear_wear model item.2

theorem bare_dressed (outfit : List (String × String)) (e : Entity) :
    (e.dressed outfit).bare = e.bare := by
  rw [dressed_eq]
  cases e.lastItem? outfit <;> rfl

theorem hasTag_dressed (outfit : List (String × String)) (e : Entity) (tag : String) :
    (e.dressed outfit).hasTag tag = e.hasTag tag := by
  rw [dressed_eq]
  cases e.lastItem? outfit <;> rfl

/-- Who gets an item at all depends on the tags to which they are handed out only. -/
theorem isSome_lastItem? (outfit : List (String × String)) (e : Entity) :
    (e.lastItem? outfit).isSome = (outfit.map (·.1)).any e.hasTag := by
  rw [lastItem?, Option.isSome_map, List.isSome_find?, List.any_reverse, List.any_map]
  rfl

/-- Whoever gets an item has a tag to which it was handed out. -/
theorem exists_of_lastItem? {model : String} (h : e.lastItem? outfit = some model) :
    ∃ item ∈ outfit, e.hasTag item.1 = true ∧ item.2 = model := by
  obtain ⟨item, hitem, rfl⟩ := Option.map_eq_some_iff.1 h
  have htag := List.find?_some hitem
  exact ⟨item, List.mem_reverse.1 (List.mem_of_find?_eq_some hitem), htag, rfl⟩

/-- If all items for an entity are of one kind, it gets one of that kind. -/
theorem lastItem?_eq_some {item : String × String} (hitem : item ∈ outfit)
    (htag : e.hasTag item.1 = true)
    (hall : ∀ other ∈ outfit, e.hasTag other.1 = true → other.2 = item.2) :
    e.lastItem? outfit = some item.2 := by
  have hsome : (e.lastItem? outfit).isSome = true := by
    rw [isSome_lastItem?, List.any_map, List.any_eq_true]
    exact ⟨item, hitem, htag⟩
  obtain ⟨model, hmodel⟩ := Option.isSome_iff_exists.1 hsome
  obtain ⟨other, hother, hmarked, rfl⟩ := exists_of_lastItem? hmodel
  rw [hmodel, hall other hother hmarked]

/-- Handing out what an entity shows already changes nothing. -/
theorem dressed_eq_self
    (h : ∀ item ∈ outfit, e.hasTag item.1 = true → e.look.item = some (itemData item.2)) :
    e.dressed outfit = e := by
  rw [dressed_eq]
  cases hlast : e.lastItem? outfit with
  | none => rfl
  | some model =>
    obtain ⟨item, hitem, htag, rfl⟩ := exists_of_lastItem? hlast
    exact wear_eq_self (h item hitem htag)

/-- What was handed out to the same tags before does not matter. -/
theorem dressed_dressed (h : outfit.map (·.1) = outfit'.map (·.1)) (e : Entity) :
    (e.dressed outfit).dressed outfit' = e.dressed outfit' := by
  have htags : (e.dressed outfit).hasTag = e.hasTag := funext (e.hasTag_dressed outfit)
  have hlast : (e.dressed outfit).lastItem? outfit' = e.lastItem? outfit' := by
    rw [lastItem?, htags, lastItem?]
  have hsome : (e.lastItem? outfit).isSome = (e.lastItem? outfit').isSome := by
    rw [isSome_lastItem?, isSome_lastItem?, h]
  rw [dressed_eq outfit', hlast, dressed_eq outfit, dressed_eq outfit']
  cases hfirst : e.lastItem? outfit with
  | none =>
    have hnone : e.lastItem? outfit' = none := by simpa [hfirst] using hsome.symm
    rw [hnone]
    rfl
  | some first =>
    rw [hfirst] at hsome
    obtain ⟨last, hlast⟩ := Option.isSome_iff_exists.1 hsome.symm
    rw [hlast]
    exact e.wear_wear first last

end Entity

/-! ### Items on the passengers of a root -/

namespace World

variable {w : World} {root : Nat} {ids : List Nat} {f g : Entity → Entity}
  {outfit outfit' : List (String × String)}

/-- A world in which some entities have changed. -/
def altered (w : World) (ids : List Nat) (f : Entity → Entity) : World :=
  { w with entities := w.entities.mapIdx fun i e => if i ∈ ids then f e else e }

theorem entity?_altered (w : World) (ids : List Nat) (f : Entity → Entity) (i : Nat) :
    (w.altered ids f).entity? i = (w.entity? i).map fun e => if i ∈ ids then f e else e :=
  Array.getElem?_mapIdx

/-- Worlds that differ in their entities only are the same if all entities are. -/
theorem ext_entities {u u' : World} (hu : u = { w with entities := u.entities })
    (hu' : u' = { w with entities := u'.entities }) (h : ∀ i, u.entity? i = u'.entity? i) :
      u = u' := by
  have hsame : u.entities = u'.entities := Array.ext_getElem? h
  rw [hu, hu', hsame]

theorem altered_eq_self (h : ∀ i ∈ ids, ∀ e, w.entity? i = some e → f e = e) :
    w.altered ids f = w := by
  refine ext_entities (w := w) rfl rfl fun i => ?_
  rw [entity?_altered]
  cases he : w.entity? i with
  | none => rfl
  | some e =>
    rw [Option.map_some]
    split
    · next hi => exact congrArg some (h i hi e he)
    · rfl

/-- An entity that does not change makes no difference. -/
theorem altered_append_of_eq {id : Nat} (h : ∀ e, w.entity? id = some e → f e = e) :
    w.altered (ids ++ [id]) f = w.altered ids f := by
  refine ext_entities (w := w) rfl rfl fun i => ?_
  rw [entity?_altered, entity?_altered]
  cases he : w.entity? i with
  | none => rfl
  | some e =>
    by_cases hi : i = id
    · subst hi
      simp [h e he]
    · simp [hi]

theorem altered_altered (w : World) (ids : List Nat) (f g : Entity → Entity) :
    (w.altered ids f).altered ids g = w.altered ids fun e => g (f e) := by
  unfold altered
  rw [Array.mapIdx_mapIdx]
  congr 2
  funext i e
  show (if i ∈ ids then g (if i ∈ ids then f e else e) else if i ∈ ids then f e else e) = _
  split <;> rfl

/-- One more entity changes. -/
theorem modifyEntity_altered {id : Nat} (hid : id ∉ ids)
    (hfg : ∀ e, w.entity? id = some e → g e = f e) :
    (w.altered ids f).modifyEntity id g = w.altered (ids ++ [id]) f := by
  refine ext_entities (w := w) rfl rfl fun i => ?_
  rw [entity?_modifyEntity, entity?_altered, entity?_altered]
  cases he : w.entity? i with
  | none => split <;> rfl
  | some e =>
    by_cases hi : i = id
    · subst hi
      simp [hid, hfg e he]
    · simp [hi]

/-- A world in which items were handed out to the passengers of a root. -/
def dressed (w : World) (root : Nat) (outfit : List (String × String)) : World :=
  w.altered ((w.entity? root).elim [] (·.passengers)) (·.dressed outfit)

theorem dressed_eq {e : Entity} (he : w.entity? root = some e) (outfit : List (String × String)) :
    w.dressed root outfit = w.altered e.passengers (·.dressed outfit) := by
  rw [dressed, he]
  rfl

/-- Only looks change. -/
theorem onlyLooks_altered (hf : ∀ e, (f e).bare = e.bare) (ids : List Nat) :
    OnlyLooks w (w.altered ids f) := by
  refine ⟨rfl, rfl, rfl, Array.ext_getElem? fun i => ?_⟩
  show (Array.map _ (Array.mapIdx _ _))[i]? = _
  rw [Array.getElem?_map, Array.getElem?_mapIdx, Option.map_map, Array.getElem?_map]
  congr 1
  funext e
  show Entity.bare (if i ∈ ids then f e else e) = e.bare
  split
  · exact hf e
  · rfl

theorem onlyLooks_dressed (w : World) (root : Nat) (outfit : List (String × String)) :
    OnlyLooks w (w.dressed root outfit) :=
  onlyLooks_altered (Entity.bare_dressed outfit) _

theorem passengers_dressed (w : World) (root : Nat) (outfit : List (String × String)) (id : Nat) :
    ((w.dressed root outfit).entity? id).map (·.passengers) = (w.entity? id).map
    (·.passengers) := by
  have hbare := (w.onlyLooks_dressed root outfit).bare_entity? id
  have hsame := congrArg (Option.map Entity.passengers) hbare
  rwa [Option.map_map, Option.map_map] at hsame

/-- What was handed out to the same tags before does not matter. -/
theorem dressed_dressed (h : outfit.map (·.1) = outfit'.map (·.1)) (w : World) (root : Nat) :
    (w.dressed root outfit).dressed root outfit' = w.dressed root outfit' := by
  have hsame := w.passengers_dressed root outfit root
  cases he : w.entity? root with
  | none =>
    rw [he] at hsame
    have hnone := Option.map_eq_none_iff.1 hsame
    rw [dressed, hnone]
    unfold dressed
    rw [he, altered_altered]
    rfl
  | some e =>
    rw [he] at hsame
    obtain ⟨e', he', hpassengers⟩ := Option.map_eq_some_iff.1 hsame
    rw [dressed_eq he', hpassengers, dressed_eq he, dressed_eq he, altered_altered]
    exact congrArg _ (funext fun e => e.dressed_dressed h)

/-- Nobody mounts. -/
theorem carries_of_dressed {id : Nat} (h : (w.dressed root outfit).Carries root id) :
    ∃ e, w.entity? root = some e ∧ id ∈ e.passengers := by
  obtain ⟨e', he', hid⟩ := h
  have hsame := w.passengers_dressed root outfit root
  rw [he'] at hsame
  obtain ⟨e, he, hpassengers⟩ := Option.map_eq_some_iff.1 hsame.symm
  exact ⟨e, he, hpassengers ▸ hid⟩

/-- The entity shows one item of a kind. -/
def Wears (w : World) (id : Nat) (model : String) : Prop :=
  ∃ item, w.item? id = some (.compound item) ∧ Compound.get? item "id" = some (.string model) ∧
    Compound.get? item "count" = some (.int 1)

/-- An item is handed out to the passengers that carry a tag. -/
theorem Does.handOut {d : Nat} (ht : Tied [] w.entities) {e : Entity} (he : w.entity? root = some e)
    (tag model : String) :
    Does d (.execute [.onPassengers, .ifEntity (Selector.this.tagged tag)]
      (.dataMerge .this [("item", itemData model)])) (some root) w
        (· = w.dressed root [(tag, model)]) := by
  let given : Entity → Entity := (·.dressed [(tag, model)])
  -- those who had their turn have changed, and the others are still to come
  let Inv (ids : List Nat) (u : World) : Prop :=
    ∃ done, done ++ ids = e.passengers ∧ u = w.altered done given
  have hstep : ∀ p ids u, Inv (p :: ids) u → Does d (.execute [.ifEntity (Selector.this.tagged tag)]
      (.dataMerge .this [("item", itemData model)])) (some p) u (Inv ids) := by
    rintro p ids u ⟨done, hdone, rfl⟩
    have hcarried : w.Carries root p := ⟨e, he, hdone ▸ by simp⟩
    have hlooks : OnlyLooks w (w.altered done given) :=
      onlyLooks_altered (Entity.bare_dressed _) done
    have hp : p ∉ done := by
      have hnodup := nodup_passengers ht he
      rw [← hdone, List.nodup_append] at hnodup
      exact fun hin => hnodup.2.2 p hin p List.mem_cons_self rfl
    have hnext : done ++ [p] ++ ids = e.passengers := by rw [List.append_assoc, ← hdone]; rfl
    have hliving := hlooks.isLiving (hcarried.isLiving ht)
    refine Does.ifTagged hliving ?_
    rw [hlooks.hasTag]
    split
    · next htag =>
      have hgiven : ∀ q, w.entity? p = some q → q.wear model = given q := by
        intro q hq
        rw [World.hasTag, hq, Option.any_some] at htag
        show q.wear model = if q.hasTag tag then q.wear model else q
        rw [if_pos htag]
      exact Does.execute_nil
        (Does.dataMerge_this hliving ⟨_, hnext, modifyEntity_altered hp hgiven⟩)
    · next htag =>
      refine ⟨_, hnext, (altered_append_of_eq fun q hq => ?_).symm⟩
      rw [World.hasTag, hq, Option.any_some] at htag
      show (if q.hasTag tag then q.wear model else q) = q
      rw [if_neg htag]
  have hstart : Inv ((w.passengers root).map (·.id)) w := by
    rw [passengers_eq ht he]
    exact ⟨[], rfl, (altered_eq_self (by simp)).symm⟩
  refine Does.imp (Does.execute_onPassengers hstep hstart) ?_
  rintro u ⟨done, hdone, rfl⟩
  rw [List.append_nil] at hdone
  rw [hdone, dressed_eq he]

/-- Items are handed out one after the other. -/
theorem DoesAll.handOut {d : Nat} (ht : Tied [] w.entities) {e : Entity}
    (he : w.entity? root = some e) (outfit : List (String × String)) :
    DoesAll d (outfit.map fun item =>
      .execute [.onPassengers, .ifEntity (Selector.this.tagged item.1)]
      (.dataMerge .this [("item", itemData item.2)])) (some root) w
        (· = w.dressed root outfit) := by
  induction outfit generalizing w e with
  | nil => exact DoesAll.nil (altered_eq_self fun _ _ _ _ => rfl).symm
  | cons item rest ih =>
    have hfirst := Does.handOut (d := d) ht he item.1 item.2
    refine DoesAll.cons ((hfirst.and hfirst.changes).imp ?_)
    rintro u ⟨rfl, hchanges⟩
    have hsame := w.passengers_dressed root [item] root
    rw [he] at hsame
    obtain ⟨e', he', hpassengers⟩ := Option.map_eq_some_iff.1 hsame
    refine (ih (hchanges.tied ht) he').imp ?_
    rintro u rfl
    rw [dressed_eq he', hpassengers, dressed_eq he, altered_altered, dressed_eq he]
    rfl

end World

/-! ### Variants -/

namespace Stage

open World (Does DoesAll)

variable {s : Stage} {clips : List CompiledClip} {w u : World} {root : Nat} {slot : Slot}

/-- The items that a variant hands out: one for each bone, by the tag of its node. -/
def outfit (s : Stage) (variant : Variant) : List (String × String) :=
  s.rig.slots.toList.filterMap fun slot =>
    (boneItem? slot.node (some variant)).map fun model => (s.names.nodeTag slot.storageName, model)

theorem mem_outfit {variant : Variant} {item : String × String} :
    item ∈ s.outfit variant ↔ ∃ slot ∈ s.rig.slots.toList, ∃ model,
      boneItem? slot.node (some variant) = some model ∧
        (s.names.nodeTag slot.storageName, model) = item := by
  simp only [outfit, List.mem_filterMap, Option.map_eq_some_iff]

/-- All variants hand out to the same tags, those of the bones. -/
theorem map_fst_outfit (s : Stage) (variant variant' : Variant) :
    (s.outfit variant).map (·.1) = (s.outfit variant').map (·.1) := by
  have hsame : ∀ slot : Slot, ((boneItem? slot.node (some variant)).map fun model =>
      (s.names.nodeTag slot.storageName, model)).map (·.1) =
        ((boneItem? slot.node (some variant')).map fun model =>
          (s.names.nodeTag slot.storageName, model)).map (·.1) := by
    intro slot
    unfold boneItem?
    split <;> rfl
  rw [outfit, outfit, List.map_filterMap, List.map_filterMap, funext hsame]

/-- The commands of a variant hand out its items. -/
theorem handOut_variantBody {d : Nat} (ht : Tied [] w.entities) {e : Entity}
    (he : w.entity? root = some e) (variant : Variant) :
    DoesAll d (s.variantBody variant) (some root) w (· = w.dressed root (s.outfit variant)) := by
  -- the commands of a variant are one for each item of its outfit
  have hcommands : (s.rig.slots.toList.filterMap fun slot =>
      (boneItem? slot.node (some variant)).map fun model =>
        Command.execute (s.onNode slot.storageName) (.dataMerge .this [("item", itemData model)])) =
      (s.outfit variant).map fun item =>
        .execute [.onPassengers, .ifEntity (Selector.this.tagged item.1)]
        (.dataMerge .this [("item", itemData item.2)]) := by
    rw [outfit, List.map_filterMap]
    congr 1
    funext slot
    rw [Option.map_map]
    rfl
  have hall := DoesAll.handOut (d := d) ht he (s.outfit variant)
  rw [← hcommands] at hall
  unfold variantBody
  dsimp only
  -- a variant without items says so in a comment
  split
  · next hempty =>
    rw [List.isEmpty_iff.1 hempty] at hall
    exact DoesAll.cons (Does.comment hall)
  · exact hall

/-- Showing a variant hands out its items and changes nothing else. -/
theorem RunsOnly.variantApply (h : s.RunsOnly clips w) (hroot : w.Knows (some root))
    {v : Variant × String} (hv : v ∈ s.rig.variants) :
    Run.on (World.run (s.variantApply v.2) (some root)) w =
      (.ok (), w.dressed root (s.outfit v.1)) := by
  obtain ⟨e, he⟩ : ∃ e, w.entity? root = some e := ⟨_, Array.getElem?_eq_getElem (hroot root rfl)⟩
  have hcall : Does 1 (.function (s.variantApply v.2)) (some root) w
      (· = w.dressed root (s.outfit v.1)) :=
    Does.call h.hosts.installs (mem_functions_of_variant hv) (handOut_variantBody h.tied he v.1)
  have hdepth : 1 ≤ w.maxDepth := by
    rw [h.hosts.maxDepth]
    decide
  obtain ⟨-, u, hrun, rfl⟩ := World.Leads.run_on hcall hdepth
  exact hrun

/-- After another variant, this leads to the same world. -/
theorem RunsOnly.variantApply_dressed (h : s.RunsOnly clips w) (hroot : w.Knows (some root))
    {first last : Variant × String} (hfirst : first ∈ s.rig.variants)
    (hlast : last ∈ s.rig.variants) :
    Run.on (World.run (s.variantApply last.2) (some root)) (w.dressed root (s.outfit first.1)) =
      (.ok (), w.dressed root (s.outfit last.1)) := by
  have hchanges : World.Changes w (w.dressed root (s.outfit first.1)) :=
    Run.Leaves.of_on (World.makes_run (s.variantApply first.2)) (h.variantApply hroot hfirst)
  rw [(h.changes hchanges).variantApply (hroot.changes h.tied hchanges) hlast,
    World.dressed_dressed (s.map_fst_outfit first.1 last.1)]

/-! ### Bones -/

/-- A bone that is given an item shows it. -/
theorem wears_dressed (hnames : (s.rig.slots.toList.map (·.storageName)).Nodup)
    (hslot : slot ∈ s.rig.slots.toList) {variant : Variant} {model : String}
    (hmodel : boneItem? slot.node (some variant) = some model) {id : Nat}
    (hbody : (w.dressed root (s.outfit variant)).IsBody s.names s.rig root slot id) :
    (w.dressed root (s.outfit variant)).Wears id model := by
  have hlooks := w.onlyLooks_dressed root (s.outfit variant)
  have htags : ∀ other ∈ s.rig.slots.toList, w.hasTag id (s.names.nodeTag other.storageName) =
      decide (other.storageName = slot.storageName) := fun other hother =>
    (hlooks.hasTag id _).symm.trans (hbody.hasTag other hother)
  obtain ⟨e, he, hcarried⟩ := World.carries_of_dressed hbody.rides
  obtain ⟨q, hq⟩ : ∃ q, w.entity? id = some q := by
    have htag := htags slot hslot
    rw [World.hasTag, decide_eq_true rfl] at htag
    obtain ⟨q, hq, -⟩ := Option.any_eq_true _ _ |>.1 htag
    exact ⟨q, hq⟩
  -- of all items that the variant hands out, it gets this one only
  have hlast : q.lastItem? (s.outfit variant) = some model := by
    have hself : q.hasTag (s.names.nodeTag slot.storageName) = true := by
      have htag := htags slot hslot
      rwa [World.hasTag, hq, Option.any_some, decide_eq_true rfl] at htag
    have hitem : (s.names.nodeTag slot.storageName, model) ∈ s.outfit variant :=
      mem_outfit.2 ⟨slot, hslot, model, hmodel, rfl⟩
    refine Entity.lastItem?_eq_some hitem hself fun item hitem hmarked => ?_
    obtain ⟨other, hother, model', hmodel', rfl⟩ := mem_outfit.1 hitem
    have htag := htags other hother
    rw [World.hasTag, hq, Option.any_some, hmarked] at htag
    obtain rfl := List.inj_on_of_nodup_map hnames hother hslot (of_decide_eq_true htag.symm)
    exact Option.some.inj (hmodel'.symm.trans hmodel)
  have hnow : (w.dressed root (s.outfit variant)).entity? id = some (q.wear model) := by
    rw [World.dressed_eq he, World.entity?_altered, hq, Option.map_some, if_pos hcarried,
      Entity.dressed_eq, hlast]
    rfl
  obtain ⟨item, hitem, hid, hcount⟩ := Compound.get?_merge_itemData q.data model
  exact ⟨item, by rw [World.item?, hnow]; exact hitem, hid, hcount⟩

/-- A bone is summoned with the item of the default variant. -/
theorem get?_bodyData_item {b : Slot × Pose} {model : String}
    (h : boneItem? b.1.node s.defaultVariant? = some model) :
    Compound.get? (ownData (s.bodyData b)) "item" = some (itemData model) := by
  have hcontents : s.contents b.1.node = [("item", itemData model)] := by
    unfold contents
    split
    · rw [h]
      rfl
    · next hkind => simp [boneItem?, hkind] at h
    · next hkind => simp [boneItem?, hkind] at h
    · next hkind => simp [boneItem?, hkind] at h
    · next hkind => simp [boneItem?, hkind] at h
    · next hkind => simp [boneItem?, hkind] at h
  rw [ownData, Compound.get?_erase_of_ne _ (by simp), Compound.get?_erase_of_ne _ (by simp),
    Compound.get?_erase_of_ne _ (by simp), bodyData, hcontents]
  rfl

/-- So showing the default variant changes nothing on a new instance. -/
theorem SummonsTo.dressed (hu : s.SummonsTo w u) (h : s.RunsOnly clips w) (hsettled : s.IsSettled w)
    (hnames : (s.rig.slots.toList.map (·.storageName)).Nodup) {variant : Variant}
    (hdefault : s.defaultVariant? = some variant) :
    u.dressed w.entities.size (s.outfit variant) = u := by
  have hshows := hu.shows h hsettled
  obtain ⟨e, he, hroot⟩ := hshows.root
  refine (World.dressed_eq he _).trans ?_
  rw [hroot.passengers]
  refine World.altered_eq_self fun p hp q hq => Entity.dressed_eq_self fun item hitem htag => ?_
  obtain ⟨slot, hslot, model, hmodel, rfl⟩ := mem_outfit.1 hitem
  obtain ⟨j, b, hb, rfl⟩ := mem_riders_newInstance.1 hp
  obtain ⟨q', hq', hrider⟩ := hshows.riders _ hp
  obtain rfl := Option.some.inj (hq.symm.trans hq')
  -- the passenger carries the tag of no other node
  have hname : slot.storageName = b.1.storageName := by
    have hnode := (isNode_newInstance h.hosts hb slot.storageName).symm.trans (hrider.hasTag _).symm
    exact of_decide_eq_true (hnode.trans htag)
  have hown : b.1 ∈ s.rig.slots.toList :=
    (List.of_mem_zip (List.mem_filter.1 (List.mem_of_getElem? hb)).1).1
  obtain rfl := List.inj_on_of_nodup_map hnames hslot hown hname
  -- and setting the scores of the root has not changed what it looks like
  have hlook : q.look = (s.firstScene w).look (w.entities.size + 1 + j) :=
    hrider.look.trans (congrFun (Instance.settled_same Scene.look _ fun _ _ _ => rfl) _)
  rw [hlook]
  show (((s.summoned w).entity? (w.entities.size + 1 + j)).elim _ Entity.look).item = _
  rw [s.entity?_summoned_rider w hb]
  exact get?_bodyData_item (hdefault ▸ hmodel)

end Stage

/-- The last variant wins, for everything that is compiled.  In every world that callers can reach
and on every root, showing a variant gives all bones the items of that variant, and it leads to the
same world where another variant, or the same one, was shown just before.  And a new instance shows
the first default variant already. -/
theorem variants_of_compile (name : String) (nodes : List RigNode) (variants : List Variant)
    (animations : List Animation) (config : Config) :
    Ensures (Rig.build name nodes variants) fun rig =>
      Ensures (compile rig animations config) fun o =>
        ∃ w₀ w₁, World.ofPack o.pack = .ok w₀ ∧ Run.on World.load w₀ = (.ok (), w₁) ∧
          ∀ w, World.Reaches o.Offers w₁ w →
            (∀ root, w.IsRoot ⟨o.namespaceName⟩ config root → ∀ last ∈ rig.variants, ∃ u,
              Run.on (World.run ⟨o.namespaceName, s!"variants/{last.2}/apply"⟩ (some root)) w =
                (.ok (), u) ∧
              (∀ slot ∈ rig.slots.toList, ∀ model, Stage.boneItem? slot.node (some last.1) =
                some model →
                ∀ id, u.IsBody ⟨o.namespaceName⟩ rig root slot id → u.Wears id model) ∧
              Run.on (World.run ⟨o.namespaceName, s!"variants/{last.2}/apply"⟩ (some root)) u =
                (.ok (), u) ∧
              ∀ first ∈ rig.variants, ∃ u',
                Run.on (World.run ⟨o.namespaceName, s!"variants/{first.2}/apply"⟩ (some root)) w =
                  (.ok (), u') ∧
                Run.on (World.run ⟨o.namespaceName, s!"variants/{last.2}/apply"⟩ (some root)) u' =
                  (.ok (), u)) ∧
            ∃ root u, Run.on (World.summon o.namespaceName) w = (.ok root, u) ∧
              ∀ v, rig.variants.find? (·.1.isDefault) = some v →
                Run.on (World.run ⟨o.namespaceName, s!"variants/{v.2}/apply"⟩ (some root)) u =
                  (.ok (), u) := by
  refine Ensures.intro fun rig hbuild => Ensures.intro fun o hcompile => ?_
  have hrig : rig.IsBuilt := ⟨name, nodes, variants, hbuild⟩
  obtain ⟨s, rfl, rfl, hcompiles⟩ := Stage.exists_compiles hrig hcompile
  have hns := hcompiles.namespaceName
  have hnames : s.names = ⟨o.namespaceName⟩ := by rw [← hns]
  obtain ⟨w₀, w₁, hw₀, hload, -⟩ := hcompiles.exists_runsOnly hrig
  refine ⟨w₀, w₁, hw₀, hload, fun w hw => ?_⟩
  have hruns := (hcompiles.runsOnly_of_reaches hrig hw₀ hload hw).1
  refine ⟨fun root hroot last hlast => ?_, ?_⟩
  -- the worlds are computed: showing a variant is handing out its outfit
  · rw [← hnames] at hroot ⊢
    rw [← hns]
    exact ⟨_, hruns.variantApply hroot.knows hlast, fun slot hslot model hmodel id hbody =>
      Stage.wears_dressed hrig.nodup_storageNames hslot hmodel hbody,
      hruns.variantApply_dressed hroot.knows hlast hlast, fun first hfirst =>
      ⟨_, hruns.variantApply hroot.knows hfirst,
        hruns.variantApply_dressed hroot.knows hfirst hlast⟩⟩
  -- a new instance has been given the default outfit, so that showing it again changes nothing
  · have hsettled := hcompiles.isSettled_of_reaches hrig hw₀ hload hw
    obtain ⟨u, hu⟩ := hruns.exists_summons hsettled
    have hchanges : World.Changes w u :=
      Run.Leaves.of_on (World.makes_summon s.names.namespaceName) hu.run
    rw [← hns]
    refine ⟨_, u, hu.run, fun v hv => ?_⟩
    have hdefault : s.defaultVariant? = some v.1 := by
      rw [Stage.defaultVariant?, hv, Option.map_some]
    have hshow :=
      (hruns.changes hchanges).variantApply hu.isRoot.knows (List.mem_of_find?_eq_some hv)
    rwa [hu.dressed hruns hsettled hrig.nodup_storageNames hdefault] at hshow

end Marionette
