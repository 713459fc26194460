import Storyworld.Proofs.Story.Session
import Storyworld.Terminal.Check

/-! # The scripts of a world

A check collects the scripts of a world once (`ScriptSource.ofWorld`). Nothing that stands anywhere
in the world is missed (`World.covered_ofWorld`), and since no write changes a script, nothing else
ever stands there (`World.Evolves.covered`).
-/

namespace Storyworld

open Terminal

/-- A collection of scripts, by kind and text. -/
abbrev Library := ScriptKind → String → Prop

namespace Library

/-- The scripts of a list, wherever they stand. -/
def ofList (scripts : List ScriptSource) : Library := fun kind source =>
  ∃ s ∈ scripts, s.kind = kind ∧ s.source = source

/-- A script is in the library, unless it is absent or blank. -/
def Has (lib : Library) (kind : ScriptKind) (script : Option String) : Prop :=
  ∀ source, Story.authored script = some source → lib kind source

/-- A guard and the assignments behind it are in the library. -/
structure HasPair (lib : Library) (condition assignments : Option String) : Prop where
  condition : lib.Has .condition condition
  assignments : lib.Has .assignments assignments

end Library

/-! ## What stands at an entity -/

section

variable (lib : Library)

def Description.Covered (d : Description) : Prop :=
  lib.Has .condition d.condition

def Rule.Covered (r : Rule) : Prop :=
  lib.HasPair r.condition r.assignments

def Response.Covered (r : Response) : Prop :=
  lib.HasPair r.condition r.assignments

structure DialogueEntry.Covered (e : DialogueEntry) : Prop where
  scripts : lib.HasPair e.condition e.assignments
  responses : ∀ r ∈ e.responses, r.Covered lib

structure Item.Covered (i : Item) : Prop where
  descriptions : ∀ d ∈ i.descriptions, d.Covered lib
  onTake : ∀ r ∈ i.onTake, r.Covered lib
  onDrop : ∀ r ∈ i.onDrop, r.Covered lib
  onUse : ∀ r ∈ i.onUse, r.Covered lib
  onSee : ∀ r ∈ i.onSee, r.Covered lib

structure Character.Covered (c : Character) : Prop where
  descriptions : ∀ d ∈ c.descriptions, d.Covered lib
  onTalk : ∀ e ∈ c.onTalk, e.Covered lib

/-- All scripts of an entity are in a library. -/
def Entity.Covered : Entity → Prop
  | .location l => ∀ d ∈ l.descriptions, d.Covered lib
  | .item i => i.Covered lib
  | .character c => c.Covered lib
  | .ending e => ∀ d ∈ e.descriptions, d.Covered lib
  | .variable _ => True

/-- All scripts that stand in a world are in a library. -/
def World.Covered (w : World) : Prop :=
  ∀ e ∈ w.entities, e.Covered lib

end

/-- A write to an entity changes no script. -/
theorem Entity.Revision.covered {lib : Library} {w : World} {e e' : Entity} (h : e.Revision w e')
    (he : e.Covered lib) : e'.Covered lib := by
  cases h with
  | attributes e =>
    cases e with
    | item i => exact ⟨he.descriptions, he.onTake, he.onDrop, he.onUse, he.onSee⟩
    | character c => exact ⟨he.descriptions, he.onTalk⟩
    | _ => exact he
  | itemName | itemVisible | itemMovable | itemOwner =>
    exact ⟨he.descriptions, he.onTake, he.onDrop, he.onUse, he.onSee⟩
  | characterName | characterVisible | characterLocation => exact ⟨he.descriptions, he.onTalk⟩
  | _ => exact he

/-- **No write brings a script into the world.** -/
theorem World.Evolves.covered {lib : Library} {w w' : World} (h : w.Evolves w')
    (hw : w.Covered lib) : w'.Covered lib :=
  h.keeps (P := World.Covered lib)
    (fun hstep hw => hstep.forall_entities (fun _ _ => trivial) (fun _ _ hrev => hrev.covered) hw)
    hw

/-! ## What a check collects -/

namespace Terminal.ScriptSource

open Library

variable {scripts : List ScriptSource} {origin : String}

theorem has_of_found {kind : ScriptKind} {script : Option String}
    (h : found origin kind script ⊆ scripts) : (ofList scripts).Has kind script := by
  intro source hsource
  have hmem : ⟨origin, kind, source⟩ ∈ found origin kind script := by simp [found, hsource]
  exact ⟨_, h hmem, rfl, rfl⟩

theorem hasPair_of_ofPair {condition assignments : Option String}
    (h : ofPair origin condition assignments ⊆ scripts) :
    (ofList scripts).HasPair condition assignments := by
  obtain ⟨hcondition, hassignments⟩ := List.append_subset.mp h
  exact ⟨has_of_found hcondition, has_of_found hassignments⟩

/-- What is collected for one element of a list is collected for the list. -/
theorem subset_of_flatMap {α β : Type} {f : α → List β} {xs : List α} {ys : List β}
    (h : xs.flatMap f ⊆ ys) {x : α} (hx : x ∈ xs) : f x ⊆ ys :=
  fun _ hb => h (List.mem_flatMap.mpr ⟨x, hx, hb⟩)

theorem exists_subset_of_mapIdx {α β : Type} {f : Nat → α → List β} {xs : List α} {ys : List β}
    (h : (xs.mapIdx f).flatten ⊆ ys) {x : α} (hx : x ∈ xs) : ∃ i, f i x ⊆ ys := by
  obtain ⟨i, hi⟩ := List.mem_iff_getElem?.mp hx
  refine ⟨i, fun b hb => h (List.mem_flatten.mpr ⟨f i x, ?_, hb⟩)⟩
  exact List.mem_iff_getElem?.mpr ⟨i, by simp [hi]⟩

theorem covered_of_ofDescriptions {ds : List Description}
    (h : ofDescriptions origin ds ⊆ scripts) : ∀ d ∈ ds, d.Covered (ofList scripts) := by
  intro d hd
  obtain ⟨i, hi⟩ := exists_subset_of_mapIdx h hd
  exact has_of_found hi

theorem covered_of_ofRules {event : String} {rules : List Rule}
    (h : ofRules origin event rules ⊆ scripts) : ∀ r ∈ rules, r.Covered (ofList scripts) := by
  intro r hr
  obtain ⟨i, hi⟩ := exists_subset_of_mapIdx h hr
  exact hasPair_of_ofPair hi

theorem covered_of_ofDialogue {entries : List DialogueEntry}
    (h : ofDialogue origin entries ⊆ scripts) : ∀ e ∈ entries, e.Covered (ofList scripts) := by
  intro e he
  obtain ⟨i, hi⟩ := exists_subset_of_mapIdx h he
  obtain ⟨hentry, hresponses⟩ := List.append_subset.mp hi
  exact ⟨hasPair_of_ofPair hentry,
    fun r hr => hasPair_of_ofPair (subset_of_flatMap hresponses hr)⟩

end Terminal.ScriptSource

open Terminal.ScriptSource in
/-- **A check misses no script**, wherever in the world it stands. -/
theorem World.covered_ofWorld (w : World) :
    w.Covered (.ofList (ScriptSource.ofWorld w)) := by
  obtain ⟨hrest, hendings⟩ := List.append_subset.mp (List.Subset.refl (ofWorld w))
  obtain ⟨hrest, hcharacters⟩ := List.append_subset.mp hrest
  obtain ⟨hlocations, hitems⟩ := List.append_subset.mp hrest
  intro e he
  cases e with
  | location l =>
    exact covered_of_ofDescriptions (subset_of_flatMap hlocations (mem_locations_iff.mp he))
  | item i =>
    have hi := subset_of_flatMap hitems (mem_items_iff.mp he)
    obtain ⟨hi, hsee⟩ := List.append_subset.mp hi
    obtain ⟨hi, huse⟩ := List.append_subset.mp hi
    obtain ⟨hi, hdrop⟩ := List.append_subset.mp hi
    obtain ⟨hdescriptions, htake⟩ := List.append_subset.mp hi
    exact ⟨covered_of_ofDescriptions hdescriptions, covered_of_ofRules htake,
      covered_of_ofRules hdrop, covered_of_ofRules huse, covered_of_ofRules hsee⟩
  | character c =>
    have hc := subset_of_flatMap hcharacters (mem_characters_iff.mp he)
    obtain ⟨hdescriptions, htalk⟩ := List.append_subset.mp hc
    exact ⟨covered_of_ofDescriptions hdescriptions, covered_of_ofDialogue htalk⟩
  | ending e =>
    exact covered_of_ofDescriptions (subset_of_flatMap hendings (mem_endings_iff.mp he))
  | «variable» x => trivial

end Storyworld
