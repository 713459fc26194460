import Storyworld.Proofs.World.Step

/-! # Ids and references of a world

`Intact` collects what the loader checks: ids that name one entity each, and references that lead
somewhere. It is a statement about one entity at a time, so a write has to keep it for the entity
it revises only: `Intact.step`. Every run of calls keeps it, and so the player is always somewhere.
-/

namespace Storyworld

/-- The references of an entity lead somewhere, and the player is not nowhere. -/
def Entity.Intact (w : World) : Entity → Prop
  | .location l => ∀ c ∈ l.connections, w.IsPlace c.target
  | .item i => ∀ owner, i.owner = some owner → w.IsPlace owner ∨ w.IsPerson owner
  | .character c =>
    (∀ place, c.location = some place → w.IsPlace place) ∧ (c.id = playerId → c.location ≠ none)
  | .ending _ => True
  | .variable _ => True

namespace World

/-- The ids of all entities in search order. -/
def ids (w : World) : List String :=
  w.entities.map (·.id)

/-- Ids name one entity each, there is a player, and the references of every entity lead
somewhere. -/
structure Intact (w : World) : Prop where
  ids : ∀ id ∈ w.ids, IsId id
  distinct : w.ids.Nodup
  player : w.IsPerson playerId
  entities : ∀ e ∈ w.entities, e.Intact w

/-! ## Revised entities -/

/-- A replacement takes the place of the entity of its kind and id, and of no other. -/
theorem entities_replace (w : World) (e : Entity) :
    (w.replace e).entities =
      w.entities.map fun x => if x.kind = e.kind ∧ x.id = e.id then e else x := by
  cases e <;>
    simp only [replace, World.entities, List.map_append, List.map_map, Function.comp_def,
      Entity.kind, Entity.id, reduceCtorEq, false_and, if_false, true_and, apply_ite]

theorem entities_addVariable (w : World) (id : String) (v : Value) :
    (w.addVariable id v).entities = w.entities ++ [.variable ⟨id, v, .nil⟩] := by
  simp [addVariable, World.entities]

theorem ids_replace (w : World) (e : Entity) : (w.replace e).ids = w.ids := by
  simp only [World.ids, entities_replace, List.map_map]
  refine List.map_congr_left fun x _ => ?_
  simp only [Function.comp_apply]
  split
  · rename_i h
    exact h.2.symm
  · rfl

theorem ids_addVariable (w : World) (id : String) (v : Value) :
    (w.addVariable id v).ids = w.ids ++ [id] := by
  simp [World.ids, entities_addVariable, Entity.id]

theorem mem_entities_replace {w : World} {e x : Entity} (h : x ∈ (w.replace e).entities) :
    x = e ∨ x ∈ w.entities := by
  rw [entities_replace] at h
  obtain ⟨y, hy, rfl⟩ := List.mem_map.mp h
  split
  · exact .inl rfl
  · exact .inr hy

theorem mem_locations_iff {w : World} {l : Location} :
    .location l ∈ w.entities ↔ l ∈ w.locations := by
  simp [World.entities]

theorem mem_items_iff {w : World} {i : Item} : .item i ∈ w.entities ↔ i ∈ w.items := by
  simp [World.entities]

theorem mem_characters_iff {w : World} {c : Character} :
    .character c ∈ w.entities ↔ c ∈ w.characters := by
  simp [World.entities]

theorem mem_endings_iff {w : World} {e : Ending} : .ending e ∈ w.entities ↔ e ∈ w.endings := by
  simp [World.entities]

theorem mem_vars_iff {w : World} {x : Variable} : .variable x ∈ w.entities ↔ x ∈ w.vars := by
  simp [World.entities]

/-- Places and people are told by the ids of two lists, which no write changes. -/
theorem isPlace_iff_mem {w : World} {id : String} :
    w.IsPlace id ↔ id ∈ w.locations.map (·.id) := by
  simp [IsPlace]

theorem isPerson_iff_mem {w : World} {id : String} :
    w.IsPerson id ↔ id ∈ w.characters.map (·.id) := by
  simp [IsPerson]

theorem map_overwrite {α : Type} (key : α → String) (a : α) (xs : List α) :
    (xs.map fun x => if key x = key a then a else x).map key = xs.map key := by
  rw [List.map_map]
  refine List.map_congr_left fun x _ => ?_
  simp only [Function.comp_apply]
  split
  · rename_i h
    exact h.symm
  · rfl

theorem map_overwrite_self {α : Type} (key : α → String) {a : α} {xs : List α}
    (h : ∀ x ∈ xs, key x = key a → x = a) :
    (xs.map fun x => if key x = key a then a else x) = xs := by
  refine (List.map_congr_left fun x hx => ?_).trans (List.map_id xs)
  split
  · rename_i heq
    exact (h x hx heq).symm
  · rfl

/-- Of two elements put in the same place, the second one stays. -/
theorem overwrite_overwrite {α : Type} (key : α → String) {a a' : α} (h : key a' = key a)
    (xs : List α) :
    ((xs.map fun x => if key x = key a then a else x).map fun x =>
        if key x = key a' then a' else x) =
      xs.map fun x => if key x = key a' then a' else x := by
  rw [List.map_map]
  refine List.map_congr_left fun x _ => ?_
  by_cases hx : key x = key a <;> simp [h, hx]

theorem replace_replace {w : World} {e e' : Entity} (hkind : e'.kind = e.kind)
    (hid : e'.id = e.id) : (w.replace e).replace e' = w.replace e' := by
  cases e <;> cases e' <;> cases hkind
  case location.location =>
    exact congrArg (fun xs => { w with locations := xs }) (overwrite_overwrite (·.id) hid w.locations)
  case item.item =>
    exact congrArg (fun xs => { w with items := xs }) (overwrite_overwrite (·.id) hid w.items)
  case character.character =>
    exact congrArg (fun xs => { w with characters := xs }) (overwrite_overwrite (·.id) hid w.characters)
  case ending.ending =>
    exact congrArg (fun xs => { w with endings := xs }) (overwrite_overwrite (·.id) hid w.endings)
  case «variable».«variable» =>
    exact congrArg (fun xs => { w with vars := xs }) (overwrite_overwrite (·.id) hid w.vars)

theorem find?_overwrite_self {α : Type} (key : α → String) (a : α) (xs : List α) :
    (xs.map fun x => if key x = key a then a else x).find? (key · == key a) =
      (xs.find? (key · == key a)).map fun _ => a := by
  induction xs with
  | nil => rfl
  | cons x xs ih =>
    by_cases hx : key x = key a
    · simp [hx]
    · have hne : (key x == key a) = false := beq_false_of_ne hx
      simp only [List.map_cons, if_neg hx, List.find?_cons, hne, ih]

theorem find?_overwrite_of_ne {α : Type} (key : α → String) {a : α} {k : String}
    (hk : k ≠ key a) (xs : List α) :
    (xs.map fun x => if key x = key a then a else x).find? (key · == k) =
      xs.find? (key · == k) := by
  induction xs with
  | nil => rfl
  | cons x xs ih =>
    by_cases hx : key x = key a
    · have hne : (key a == k) = false := beq_false_of_ne (Ne.symm hk)
      rw [List.map_cons, if_pos hx, List.find?_cons, List.find?_cons, hx, hne]
      exact ih
    · simp only [List.map_cons, if_neg hx, List.find?_cons, ih]

theorem Step.isPlace_iff {w w' : World} (h : w.Step w') (id : String) :
    w'.IsPlace id ↔ w.IsPlace id := by
  cases h with
  | create v named fresh => exact Iff.rfl
  | @revise _ e e' found hrev =>
    rw [isPlace_iff_mem, isPlace_iff_mem]
    cases e' with
    | location l => rw [replace, map_overwrite (·.id) l w.locations]
    | _ => exact Iff.rfl

theorem Step.isPerson_iff {w w' : World} (h : w.Step w') (id : String) :
    w'.IsPerson id ↔ w.IsPerson id := by
  cases h with
  | create v named fresh => exact Iff.rfl
  | @revise _ e e' found hrev =>
    rw [isPerson_iff_mem, isPerson_iff_mem]
    cases e' with
    | character c => rw [replace, map_overwrite (·.id) c w.characters]
    | _ => exact Iff.rfl

/-- What every entity has, every write keeps, if revisions keep it and new variables have it. -/
theorem Step.forall_entities {P : Entity → Prop} {w w' : World} (h : w.Step w')
    (hnew : ∀ id v, P (.variable ⟨id, v, .nil⟩)) (hrevise : ∀ e e', e.Revision w e' → P e → P e')
    (hw : ∀ e ∈ w.entities, P e) : ∀ e ∈ w'.entities, P e := by
  cases h with
  | create v named fresh =>
    rw [entities_addVariable]
    intro x hx
    rcases List.mem_append.mp hx with hx | hx
    · exact hw x hx
    · exact List.mem_singleton.mp hx ▸ hnew _ _
  | revise found hrev =>
    intro x hx
    rcases mem_entities_replace hx with rfl | hx
    · exact hrevise _ _ hrev (hw _ (mem_of_find? found))
    · exact hw x hx

end World

/-! ## Intact worlds stay intact -/

namespace Entity

variable {w w' : World} {e e' : Entity}

/-- Integrity of an entity depends on the places and people there are, and on nothing else. -/
theorem Intact.congr (h : e.Intact w) (hplace : ∀ id, w'.IsPlace id ↔ w.IsPlace id)
    (hperson : ∀ id, w'.IsPerson id ↔ w.IsPerson id) : e.Intact w' := by
  cases e with
  | location l => exact fun c hc => (hplace _).mpr (h c hc)
  | item i => exact fun o ho => (h o ho).imp (hplace o).mpr (hperson o).mpr
  | character c => exact ⟨fun p hp => (hplace p).mpr (h.1 p hp), h.2⟩
  | _ => trivial

theorem Revision.intact (hrev : e.Revision w e') (h : e.Intact w) : e'.Intact w := by
  cases hrev with
  | attributes => cases e <;> exact h
  | itemOwner i owner hplaced => exact hplaced
  | characterLocation c location hplaced hplayer => exact ⟨hplaced, hplayer⟩
  | _ => exact h

end Entity

namespace World

theorem fresh_of_find?_eq_none {w : World} {id : String} (h : w.find? id = none) : id ∉ w.ids := by
  rw [find?_eq_entities, List.find?_eq_none] at h
  simpa [World.ids] using h

/-- **A write keeps ids and references sound.** -/
theorem Intact.step {w w' : World} (h : w.Intact) (hstep : w.Step w') : w'.Intact := by
  have hplace := hstep.isPlace_iff
  have hperson := hstep.isPerson_iff
  have hentities : ∀ e ∈ w'.entities, e.Intact w :=
    hstep.forall_entities (fun _ _ => trivial) (fun _ _ hrev => hrev.intact) h.entities
  refine ⟨?_, ?_, (hperson _).mpr h.player, fun e he => (hentities e he).congr hplace hperson⟩
  · cases hstep with
    | @create id v named fresh =>
      rw [ids_addVariable]
      intro x hx
      rcases List.mem_append.mp hx with hx | hx
      · exact h.ids x hx
      · exact List.mem_singleton.mp hx ▸ named
    | revise => rw [ids_replace]; exact h.ids
  · cases hstep with
    | @create id v named fresh =>
      rw [ids_addVariable, List.nodup_append]
      refine ⟨h.distinct, List.nodup_singleton _, fun x hx y hy => ?_⟩
      rintro rfl
      exact fresh_of_find?_eq_none fresh (List.mem_singleton.mp hy ▸ hx)
    | revise => rw [ids_replace]; exact h.distinct

theorem Evolves.intact {w w' : World} (he : w.Evolves w') (h : w.Intact) : w'.Intact :=
  he.keeps (fun hstep h => h.step hstep) h

theorem Intact.runCalls {w : World} (h : w.Intact) (calls : List Call) :
    (w.runCalls calls).Intact :=
  (runCalls_evolves w calls).intact h

end World

namespace World

/-- In an intact world the player is somewhere. -/
theorem Intact.exists_playerLocation? {w : World} (h : w.Intact) :
    ∃ l, w.playerLocation? = some l := by
  obtain ⟨c₀, hc₀, hid₀⟩ := h.player
  obtain ⟨c, hc⟩ : ∃ c, w.character? playerId = some c := by
    rw [← Option.isSome_iff_exists, character?, List.find?_isSome]
    exact ⟨c₀, hc₀, by simpa using hid₀⟩
  have hid : c.id = playerId := by simpa using List.find?_some hc
  have hmem : c ∈ w.characters := List.mem_of_find?_eq_some hc
  obtain ⟨hplaces, hplaced⟩ := h.entities _ (mem_characters_iff.mpr hmem)
  obtain ⟨place, hplace⟩ := Option.ne_none_iff_exists'.mp (hplaced hid)
  obtain ⟨l, hl, hlid⟩ := hplaces place hplace
  obtain ⟨here, hhere⟩ : ∃ here, w.location? place = some here := by
    rw [← Option.isSome_iff_exists, location?, List.find?_isSome]
    exact ⟨l, hl, by simpa using hlid⟩
  exact ⟨here, by simp [playerLocation?, player?, hc, hplace, hhere]⟩

end World

/-! ## Loaded worlds are intact -/

namespace Document

theorem ids_world (d : Document) : d.world.ids = d.ids := by
  simp [world, World.ids, World.entities, ids, Function.comp_def, Entity.id, ItemDraft.item,
    CharacterDraft.character, Variable.loaded]

theorem isPerson_world {d : Document} {id : String} :
    d.world.IsPerson id ↔ ∃ c ∈ d.characters, c.id = id := by
  simp [World.IsPerson, world, CharacterDraft.character]

theorem mem_ids_of_location {d : Document} {l : Location} (h : l ∈ d.locations) : l.id ∈ d.ids := by
  simp only [ids, List.mem_append, List.mem_map]
  exact .inl (.inl (.inl (.inl ⟨l, h, rfl⟩)))

theorem WellFormed.intact_world {d : Document} (h : d.WellFormed) : d.world.Intact := by
  obtain ⟨p, hp, hpid, l, hl, hpl⟩ := h.player
  refine ⟨by rw [ids_world]; exact h.ids, by rw [ids_world]; exact h.distinct,
    isPerson_world.mpr ⟨p, hp, hpid⟩, fun e he => ?_⟩
  simp only [World.entities, world, List.mem_append, List.mem_map] at he
  rcases he with (((⟨l, hl, rfl⟩ | ⟨_, ⟨i, hi, rfl⟩, rfl⟩) | ⟨_, ⟨c, hc, rfl⟩, rfl⟩) | ⟨e, -, rfl⟩) |
    ⟨_, ⟨x, -, rfl⟩, rfl⟩
  · exact h.connections l hl
  · exact fun owner ho => (h.items i hi owner ho).imp_right isPerson_world.mpr
  · refine ⟨h.characters c hc, fun hcid => ?_⟩
    -- ids are distinct, so this is the player whose location was checked
    have hcp : c = p :=
      List.inj_on_of_nodup_map (nodup_characters h.distinct) hc hp (hcid.trans hpid.symm)
    have hplaced : placed c.location = some l.id := by
      rw [placed_eq_some_iff, hcp]
      exact ⟨hpl, (h.ids l.id (mem_ids_of_location hl)).ne_empty⟩
    simp [CharacterDraft.character, hplaced]
  · trivial
  · trivial

end Document

namespace World

theorem intact_of_load {d : Document} {w : World} (h : load d = .ok w) : w.Intact := by
  obtain ⟨hd, rfl⟩ := load_eq_ok_iff.mp h
  exact hd.intact_world

end World

/-- A story of one room, where the player stands next to a lamp whose use carries out a script. -/
def lampRoom (script : String) : Document where
  metadata := ⟨"Cell", none, none, none, none⟩
  intro := []
  locations := [⟨"cell", "Cell", [], [], .nil⟩]
  items := [⟨"lamp", "Lamp", some "cell", none, none, [], [], [], [⟨none, none, some script⟩], [],
    .nil⟩]
  characters := [⟨playerId, "Venda", some "cell", none, [], [], .nil⟩]
  endings := []
  vars := []

end Storyworld
