import Mathlib.Logic.Relation
import Storyworld.Proofs.Attribute.Change
import Storyworld.Proofs.Path
import Storyworld.Proofs.Result
import Storyworld.World.Store

/-! # What a write can do to a world

`Step` lists everything that a write does, whether it succeeds or fails: a new variable, or one entity
revised in one place. `Store.SetResult` and `Store.GetResult` say what the two writing calls come to,
case by case, so no later proof opens them again; and `runCalls_evolves` that a property of worlds
which every `Step` keeps is kept by every run of calls.
-/

namespace Storyworld

namespace World

/-- Some location has the id. -/
def IsPlace (w : World) (id : String) : Prop :=
  ∃ l ∈ w.locations, l.id = id

/-- Some character has the id. -/
def IsPerson (w : World) (id : String) : Prop :=
  ∃ c ∈ w.characters, c.id = id

end World

/-- One entity turned into another by a write to one of its fields or attributes. A placement names
something that is there, and the player stays placed. -/
inductive Entity.Revision (w : World) : Entity → Entity → Prop
  | attributes (e : Entity) {as : Attributes} (written : e.attributes.Rewrite as) :
      Revision w e (e.withAttributes as)
  | locationName (l : Location) (name : String) :
      Revision w (.location l) (.location { l with name := name })
  | itemName (i : Item) (name : String) : Revision w (.item i) (.item { i with name := name })
  | itemVisible (i : Item) (visible : Bool) :
      Revision w (.item i) (.item { i with visible := visible })
  | itemMovable (i : Item) (movable : Bool) :
      Revision w (.item i) (.item { i with movable := movable })
  | itemOwner (i : Item) (owner : Option String)
      (placed : ∀ o, owner = some o → w.IsPlace o ∨ w.IsPerson o) :
      Revision w (.item i) (.item { i with owner := owner })
  | characterName (c : Character) (name : String) :
      Revision w (.character c) (.character { c with name := name })
  | characterVisible (c : Character) (visible : Bool) :
      Revision w (.character c) (.character { c with visible := visible })
  | characterLocation (c : Character) (location : Option String)
      (placed : ∀ p, location = some p → w.IsPlace p)
      (player : c.id = playerId → location ≠ none) :
      Revision w (.character c) (.character { c with location := location })
  | variableValue (x : Variable) (v : Value) :
      Revision w (.variable x) (.variable { x with value := v })

namespace World

/-- One world turned into another by one write. -/
inductive Step (w : World) : World → Prop
  | create {id : String} (v : Value) (named : IsId id) (fresh : w.find? id = none) :
      Step w (w.addVariable id v)
  | revise {id : String} {e e' : Entity} (found : w.find? id = some e) (h : e.Revision w e') :
      Step w (w.replace e')

/-! ## Finding entities -/

theorem id_of_find? {w : World} {id : String} {e : Entity} (h : w.find? id = some e) :
    e.id = id := by
  rw [find?_eq_entities] at h
  simpa using List.find?_some h

theorem mem_of_find? {w : World} {id : String} {e : Entity} (h : w.find? id = some e) :
    e ∈ w.entities := by
  rw [find?_eq_entities] at h
  exact List.mem_of_find?_eq_some h

theorem isPlace_of_find? {w : World} {id : String} {e : Entity} (h : w.find? id = some e)
    (hk : e.kind = .location) : w.IsPlace id := by
  have hid := id_of_find? h
  have hm := mem_of_find? h
  cases e <;> cases hk
  exact ⟨_, by simpa [entities] using hm, hid⟩

theorem isPerson_of_find? {w : World} {id : String} {e : Entity} (h : w.find? id = some e)
    (hk : e.kind = .character) : w.IsPerson id := by
  have hid := id_of_find? h
  have hm := mem_of_find? h
  cases e <;> cases hk
  exact ⟨_, by simpa [entities] using hm, hid⟩

/-! ## What the writers do -/

theorem path_eq_ok_iff {source : String} {p : Path} :
    path source = .ok p ↔ Path.ofText? source = some p := by
  unfold path
  cases Path.ofText? source <;> simp

/-- An accepted placement is nowhere, or an entity of an expected kind. -/
theorem placement_cases {w : World} {holder : String} {v : Value} {expected : Target}
    {reference : Option String} (h : w.placement holder v expected = .ok reference) :
    reference = none ∨
      ∃ e, w.find? v.shown = some e ∧ expected.admits e.kind = true ∧ reference = some v.shown := by
  unfold placement at h
  dsimp only at h
  split at h
  · exact .inl (Except.ok.inj h).symm
  · split at h
    · rename_i e hfind
      split at h
      · rename_i hadmits
        exact .inr ⟨e, hfind, hadmits, (Except.ok.inj h).symm⟩
      · cases h
    · cases h

theorem placement_location {w : World} {holder : String} {v : Value} {reference : Option String}
    (h : w.placement holder v .location = .ok reference) :
    ∀ p, reference = some p → w.IsPlace p := by
  rintro p rfl
  rcases placement_cases h with h | ⟨e, hfind, hadmits, h⟩
  · cases h
  · cases h
    cases hk : e.kind <;> simp [hk, Target.admits] at hadmits
    exact isPlace_of_find? hfind hk

theorem placement_locationOrCharacter {w : World} {holder : String} {v : Value}
    {reference : Option String} (h : w.placement holder v .locationOrCharacter = .ok reference) :
    ∀ o, reference = some o → w.IsPlace o ∨ w.IsPerson o := by
  rintro o rfl
  rcases placement_cases h with h | ⟨e, hfind, hadmits, h⟩
  · cases h
  · cases h
    cases hk : e.kind <;> simp [hk, Target.admits] at hadmits
    · exact .inl (isPlace_of_find? hfind hk)
    · exact .inr (isPerson_of_find? hfind hk)

/-- What writing a value to a field does to an entity, by the key of the field. -/
inductive FieldWrite (w : World) (v : Value) : String → Entity → Entity → Prop
  | locationName (l : Location) :
      FieldWrite w v "name" (.location l) (.location { l with name := v.shown })
  | itemName (i : Item) : FieldWrite w v "name" (.item i) (.item { i with name := v.shown })
  | itemVisible (i : Item) :
      FieldWrite w v "visible" (.item i) (.item { i with visible := flag (some v) })
  | itemMovable (i : Item) :
      FieldWrite w v "movable" (.item i) (.item { i with movable := flag (some v) })
  | itemOwner (i : Item) {owner : Option String}
      (placed : w.placement i.id v .locationOrCharacter = .ok owner) :
      FieldWrite w v "owner" (.item i) (.item { i with owner := owner })
  | characterName (c : Character) :
      FieldWrite w v "name" (.character c) (.character { c with name := v.shown })
  | characterVisible (c : Character) :
      FieldWrite w v "visible" (.character c) (.character { c with visible := flag (some v) })
  | characterLocation (c : Character) {location : Option String}
      (placed : w.placement c.id v .location = .ok location)
      (player : c.id = playerId → location ≠ none) :
      FieldWrite w v "location" (.character c) (.character { c with location := location })
  | variableValue (x : Variable) :
      FieldWrite w v "value" (.variable x) (.variable { x with value := v })

theorem writeField_cases {w : World} {source key : String} {v : Value} {e e' : Entity}
    (h : w.writeField source v key e = .ok e') : FieldWrite w v key e e' := by
  cases e with
  | location l =>
    simp only [writeField] at h
    split at h
    · subst key; cases h; exact .locationName l
    · cases h
  | item i =>
    simp only [writeField] at h
    split at h
    · subst key; cases h; exact .itemName i
    split at h
    · subst key; cases h; exact .itemVisible i
    split at h
    · subst key; cases h; exact .itemMovable i
    split at h
    · subst key
      cases hp : w.placement i.id v .locationOrCharacter with
      | error fault => rw [hp] at h; cases h
      | ok owner =>
        rw [hp] at h
        cases h
        exact .itemOwner i hp
    · cases h
  | character c =>
    simp only [writeField] at h
    split at h
    · subst key; cases h; exact .characterName c
    split at h
    · subst key; cases h; exact .characterVisible c
    split at h
    · subst key
      cases hp : w.placement c.id v .location with
      | error fault => rw [hp] at h; cases h
      | ok location =>
        rw [hp] at h
        simp only [bind, Except.bind] at h
        split at h
        · cases h
        · rename_i hplayer
          cases h
          refine .characterLocation c hp fun hid hnone => ?_
          exact hplayer ⟨by simp [hnone], hid⟩
    · cases h
  | ending e => cases h
  | «variable» x =>
    simp only [writeField] at h
    split at h
    · subst key; cases h; exact .variableValue x
    · cases h

theorem FieldWrite.revision {w : World} {key : String} {v : Value} {e e' : Entity}
    (h : FieldWrite w v key e e') : e.Revision w e' := by
  cases h with
  | itemOwner i placed => exact .itemOwner _ _ (placement_locationOrCharacter placed)
  | characterLocation c placed player =>
    exact .characterLocation _ _ (placement_location placed) player
  | _ => constructor

/-! ## Worlds that change -/

/-- One world that writes turn into another. -/
def Evolves : World → World → Prop :=
  Relation.ReflTransGen Step

theorem Evolves.refl (w : World) : w.Evolves w :=
  Relation.ReflTransGen.refl

theorem Evolves.trans {u v w : World} (h₁ : u.Evolves v) (h₂ : v.Evolves w) : u.Evolves w :=
  Relation.ReflTransGen.trans h₁ h₂

theorem Step.evolves {w w' : World} (h : w.Step w') : w.Evolves w' :=
  Relation.ReflTransGen.single h

/-- What every write keeps, writes keep one after the other. -/
theorem Evolves.keeps {P : World → Prop} (kept : ∀ {w w' : World}, w.Step w' → P w → P w')
    {w w' : World} (h : w.Evolves w') (hw : P w) : P w' := by
  induction h with
  | refl => exact hw
  | tail _ hstep ih => exact kept hstep ih

end World

/-! ## Calls of the store -/

namespace Store

open World

/-- Below a key of an entity that is no field, a call changes the attribute tree. -/
structure AtAttribute (w : World) (source : String) (p : Path) (e : Entity) (key : String)
    (rest : List String) : Prop where
  path : Path.ofText? source = some p
  keys : p.keys = key :: rest
  found : w.find? p.root = some e
  notField : e.field? key = none

/-- What writing a value comes to, and the world that it leaves. -/
inductive SetResult (w : World) (source : String) (v : Value) :
    Except WorldError Unit × World → Prop
  | refused (fault : WorldError) : SetResult w source v (.error fault, w)
  | assigned {p : Path} {x : Variable} (path : Path.ofText? source = some p) (bare : p.keys = [])
      (found : w.find? p.root = some (.variable x)) :
      SetResult w source v (.ok (), w.replace (.variable { x with value := v }))
  | created {p : Path} (path : Path.ofText? source = some p) (bare : p.keys = [])
      (fresh : w.find? p.root = none) : SetResult w source v (.ok (), w.addVariable p.root v)
  | field {p : Path} {key : String} {e e' : Entity} (path : Path.ofText? source = some p)
      (keys : p.keys = [key]) (found : w.find? p.root = some e) (isField : (e.field? key).isSome)
      (written : w.writeField source v key e = .ok e') :
      SetResult w source v (.ok (), w.replace e')
  | inTree {p : Path} {e : Entity} {key : String} {rest : List String}
      (h : AtAttribute w source p e key rest) :
      SetResult w source v (inAttributes e source (.atEnd (.put v) key rest) w)

theorem set_result (source : String) (v : Value) (w : World) :
    SetResult w source v (set source v w) := by
  unfold set
  rw [run_lift_bind]
  cases hp : World.path source with
  | error fault => exact .refused fault
  | ok p =>
    have hpath := path_eq_ok_iff.mp hp
    simp only [run_get_bind]
    cases hkeys : p.keys with
    | nil =>
      cases hfind : w.find? p.root with
      | none => exact .created hpath hkeys hfind
      | some e =>
        cases e with
        | «variable» x => exact .assigned hpath hkeys hfind
        | _ => exact .refused _
    | cons key rest =>
      cases hfind : w.find? p.root with
      | none => exact .refused _
      | some e =>
        cases hfield : e.field? key with
        | none =>
          simp only [hfield]
          exact .inTree ⟨hpath, hkeys, hfind, hfield⟩
        | some old =>
          cases rest with
          | cons next rest => simp only [hfield]; exact .refused _
          | nil =>
            simp only [hfield]
            rw [run_lift_bind]
            cases hwrite : w.writeField source v key e with
            | error fault => exact .refused fault
            | ok e' => exact .field hpath hkeys hfind (hfield ▸ rfl) hwrite

/-- What reading a scalar with a default comes to, and the world that it leaves. -/
inductive GetResult (w : World) (source : String) (default : Value) :
    Except WorldError Value × World → Prop
  | unchanged (result : Except WorldError Value) : GetResult w source default (result, w)
  | created {p : Path} (path : Path.ofText? source = some p) (bare : p.keys = [])
      (fresh : w.find? p.root = none) :
      GetResult w source default (.ok default, w.addVariable p.root default)
  | inTree {p : Path} {e : Entity} {key : String} {rest : List String}
      (h : AtAttribute w source p e key rest) :
      GetResult w source default (inAttributes e source (.atEnd (.getOrPut default) key rest) w)

theorem getOrSet_result (source : String) (default : Value) (w : World) :
    GetResult w source default (getOrSet source default w) := by
  unfold getOrSet
  rw [run_lift_bind]
  cases hp : World.path source with
  | error fault => exact .unchanged _
  | ok p =>
    have hpath := path_eq_ok_iff.mp hp
    simp only [run_get_bind]
    cases hkeys : p.keys with
    | nil =>
      cases hfind : w.find? p.root with
      | none => exact .created hpath hkeys hfind
      | some e => cases e <;> exact .unchanged _
    | cons key rest =>
      cases hfind : w.find? p.root with
      | none => exact .unchanged _
      | some e =>
        cases hfield : e.field? key with
        | none =>
          simp only [hfield]
          exact .inTree ⟨hpath, hkeys, hfind, hfield⟩
        | some old => cases rest <;> simp only [hfield] <;> exact .unchanged _

/-! ## Calls make worlds evolve -/

variable {w : World} {source : String}

theorem inAttributes_evolves {α : Type} {id : String} {e : Entity} (hfind : w.find? id = some e)
    {change : Attributes.Change α} (h : change.Rewrites) :
    w.Evolves (inAttributes e source change w).2 :=
  (World.Step.revise hfind (.attributes e (h e.attributes))).evolves

theorem set_evolves (source : String) (v : Value) (w : World) :
    w.Evolves (set source v w).2 := by
  have h := set_result source v w
  generalize set source v w = left at h
  cases h with
  | refused => exact .refl w
  | assigned path bare found => exact (World.Step.revise found (.variableValue _ v)).evolves
  | created path bare fresh => exact (World.Step.create v (Path.isId_root path) fresh).evolves
  | field path keys found isField written =>
    exact (World.Step.revise found (writeField_cases written).revision).evolves
  | inTree h =>
    exact inAttributes_evolves h.found
      (Attributes.Change.Rewrites.atEnd (Attributes.Change.put_rewrites v) _ _)

theorem getOrSet_evolves (source : String) (default : Value) (w : World) :
    w.Evolves (getOrSet source default w).2 := by
  have h := getOrSet_result source default w
  generalize getOrSet source default w = left at h
  cases h with
  | unchanged => exact .refl w
  | created path bare fresh =>
    exact (World.Step.create default (Path.isId_root path) fresh).evolves
  | inTree h =>
    exact inAttributes_evolves h.found
      (Attributes.Change.Rewrites.atEnd (Attributes.Change.getOrPut_rewrites default) _ _)

end Store

namespace World

/-! ## Runs of calls -/

/-- A call that may write to a world. -/
inductive Call where
  | set (path : String) (v : Value)
  | getOrSet (path : String) (default : Value)
  | movePlayer (location : String)

/-- The world that a call leaves, whether it succeeds or fails. -/
def Call.run (w : World) : Call → World
  | .set path v => (Store.set path v w).2
  | .getOrSet path default => (Store.getOrSet path default w).2
  | .movePlayer location => (Store.movePlayer location w).2

/-- The world after calls in order. -/
def runCalls (w : World) (calls : List Call) : World :=
  calls.foldl Call.run w

theorem Call.run_evolves (w : World) (c : Call) : w.Evolves (c.run w) := by
  cases c with
  | set path v => exact Store.set_evolves path v w
  | getOrSet path default => exact Store.getOrSet_evolves path default w
  | movePlayer location => exact Store.set_evolves _ _ w

theorem runCalls_evolves (w : World) (calls : List Call) : w.Evolves (w.runCalls calls) := by
  induction calls generalizing w with
  | nil => exact .refl w
  | cons c calls ih => exact (c.run_evolves w).trans (ih (c.run w))

end World

end Storyworld
