import Storyworld.Proofs.Story.Session
import Storyworld.Proofs.World.Address

/-! # What the author wrote stays

Play may change names, placements, flags, values and attribute trees. What is left of a world without
them is as the author wrote it (`World.authored`), and the variables there were stay in front of those
that come into being. `Step.authored` and `Step.vars` say so of one write, `authored_after` of a whole
session.
-/

namespace Storyworld

/-! ## The authored part -/

/-- A location without what play may change. -/
def Location.authored (l : Location) : Location :=
  { l with name := "", attributes := .nil }

/-- An item without what play may change. -/
def Item.authored (i : Item) : Item :=
  { i with name := "", owner := none, visible := true, movable := true, attributes := .nil }

/-- A character without what play may change. -/
def Character.authored (c : Character) : Character :=
  { c with name := "", location := none, visible := true, attributes := .nil }

/-- An ending without what play may change. -/
def Ending.authored (e : Ending) : Ending :=
  { e with attributes := .nil }

namespace Entity

/-- An entity without what play may change. -/
def authored : Entity → Entity
  | .location l => .location l.authored
  | .item i => .item i.authored
  | .character c => .character c.authored
  | .ending e => .ending e.authored
  | .variable v => .variable { v with value := .bool false, attributes := .nil }

/-- A revision changes nothing else. -/
theorem Revision.authored {w : World} {e e' : Entity} (h : e.Revision w e') :
    e'.authored = e.authored := by
  cases h with
  | attributes e => cases e <;> rfl
  | _ => rfl

end Entity

namespace World

/-- A world without what play may change, and without its variables. -/
def authored (w : World) : World where
  metadata := w.metadata
  intro := w.intro
  locations := w.locations.map (·.authored)
  items := w.items.map (·.authored)
  characters := w.characters.map (·.authored)
  endings := w.endings.map (·.authored)
  vars := []

/-! ## One write -/

/-- A replacement that looks the same as what it replaces is not seen. -/
theorem map_overwrite_congr {α β : Type} (key : α → String) (f : α → β) {a : α} {xs : List α}
    (h : ∀ x ∈ xs, key x = key a → f a = f x) :
    (xs.map fun x => if key x = key a then a else x).map f = xs.map f := by
  rw [List.map_map]
  refine List.map_congr_left fun x hx => ?_
  simp only [Function.comp_apply]
  split
  · rename_i hkey
    exact h x hx hkey
  · rfl

theorem authored_replace {w : World} {e : Entity}
    (h : ∀ x ∈ w.entities, x.id = e.id → e.authored = x.authored) :
    (w.replace e).authored = w.authored := by
  cases e with
  | location l =>
    have hlocations := map_overwrite_congr (·.id) Location.authored fun x hx hid =>
      Entity.location.inj (h _ (mem_locations_iff.mpr hx) hid)
    simp only [replace, authored, hlocations]
  | item i =>
    have hitems := map_overwrite_congr (·.id) Item.authored fun x hx hid =>
      Entity.item.inj (h _ (mem_items_iff.mpr hx) hid)
    simp only [replace, authored, hitems]
  | character c =>
    have hcharacters := map_overwrite_congr (·.id) Character.authored fun x hx hid =>
      Entity.character.inj (h _ (mem_characters_iff.mpr hx) hid)
    simp only [replace, authored, hcharacters]
  | ending e =>
    have hendings := map_overwrite_congr (·.id) Ending.authored fun x hx hid =>
      Entity.ending.inj (h _ (mem_endings_iff.mpr hx) hid)
    simp only [replace, authored, hendings]
  | «variable» v => rfl

/-- A write keeps what the author wrote. -/
theorem Step.authored {w w' : World} (h : w.Intact) (hstep : w.Step w') :
    w'.authored = w.authored := by
  cases hstep with
  | create v named fresh => rfl
  | @revise id e e' found revision =>
    refine authored_replace fun x hx hid => ?_
    -- ids are distinct, so what has the id of the revised entity is that entity
    rw [h.eq_of_id hx (mem_of_find? found) (hid.trans revision.id)]
    exact revision.authored

/-- A write keeps the variables in their order, and adds a new one at the end. -/
theorem Step.vars {w w' : World} (hstep : w.Step w') :
    w.vars.map (·.id) <+: w'.vars.map (·.id) := by
  cases hstep with
  | create v named fresh => simp [addVariable]
  | @revise id e e' found revision =>
    cases e' with
    | «variable» v => exact (map_overwrite (·.id) v w.vars).symm ▸ List.prefix_rfl
    | _ => exact List.prefix_rfl

/-! ## Whole runs -/

theorem Evolves.authored {w w' : World} (he : w.Evolves w') (h : w.Intact) :
    w'.authored = w.authored := by
  -- distinct ids are what lets one write keep the authored part, so both go along
  refine (he.keeps (P := fun v => v.Intact ∧ v.authored = w.authored) ?_ ⟨h, rfl⟩).2
  rintro u v hstep ⟨hu, heq⟩
  exact ⟨hu.step hstep, (hstep.authored hu).trans heq⟩

theorem Evolves.vars {w w' : World} (he : w.Evolves w') :
    w.vars.map (·.id) <+: w'.vars.map (·.id) :=
  he.keeps (P := fun v => w.vars.map (·.id) <+: v.vars.map (·.id))
    (fun hstep (h : w.vars.map (·.id) <+: _) => h.trans hstep.vars) List.prefix_rfl

end World

namespace Story.Session

variable {s : Session}

/-- **The authored structure is immutable.** Whatever the actions of a session come to, the world
they leave differs from the one it began with in names, owners, locations, flags, values and
attribute trees, and in variables added behind those there were. -/
theorem authored_after (begins : s.Begins) (actions : List Action) :
    (s.after actions).stage.world.authored = s.stage.world.authored ∧
      s.stage.world.vars.map (·.id) <+: (s.after actions).stage.world.vars.map (·.id) :=
  have evolves := (s.after_evolves actions).world
  ⟨evolves.authored begins.intact, evolves.vars⟩

/-- Using the lamp renames the room and brings a variable into being. -/
theorem authored_after_lampRoom :
    let s := new (lampRoom "cell:name = \"Hall\"; mood = \"low\"").world {}
    let w := (s.after [⟨.use, .text "lamp"⟩]).stage.world
    s.Begins ∧ w.locations.map (·.name) = ["Hall"] ∧ w.vars.map (·.id) = ["mood"] ∧
      w.authored = s.stage.world.authored ∧
      s.stage.world.vars.map (·.id) <+: w.vars.map (·.id) := by
  intro s w
  have begins : s.Begins :=
    .new (d := lampRoom "cell:name = \"Hall\"; mood = \"low\"") rfl [] {}
  exact ⟨begins, by decide +kernel, by decide +kernel, authored_after begins [⟨.use, .text "lamp"⟩]⟩

end Story.Session

end Storyworld
