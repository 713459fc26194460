import Mathlib.Data.List.Forall2
import Storyworld.Proofs.Document.Check
import Storyworld.Proofs.World.Integrity

/-! # What a document means

`Document.Means` says without the loader which world a document describes: the same entities in the
same order, but for flags, empty references and the texts of booleans. A document that the loader
accepts means one world, the one that is loaded: `load_iff_sound`.
-/

namespace Storyworld

/-! ## Flags, references and values -/

/-- What a flag means: absent is true, and a text is true only if it says so. -/
inductive FlagMeans : Option Value → Bool → Prop
  | absent : FlagMeans none true
  | bool (b : Bool) : FlagMeans (some (.bool b)) b
  | number (x : Float) : FlagMeans (some (.number x)) (Value.number x).isTruthy
  | true {s : String} (spelled : Text.trimmed s = "true") : FlagMeans (some (.text s)) true
  | false {s : String} (other : Text.trimmed s ≠ "true") : FlagMeans (some (.text s)) false

theorem flagMeans_iff {v : Option Value} {b : Bool} : FlagMeans v b ↔ flag v = b := by
  constructor
  · intro h
    cases h with
    | absent | bool | number => rfl
    | true spelled => simp [flag, spelled]
    | false other => simp [flag, other]
  · rintro rfl
    match v with
    | none => exact .absent
    | some (.bool b) => exact .bool b
    | some (.number x) => exact .number x
    | some (.text s) =>
      by_cases spelled : Text.trimmed s = "true"
      · simpa [flag, spelled] using FlagMeans.true spelled
      · rw [show flag (some (.text s)) = false by simp [flag, spelled]]
        exact .false spelled

/-- What a reference means: an empty one is none. -/
inductive ReferenceMeans : Option String → Option String → Prop
  | absent : ReferenceMeans none none
  | empty : ReferenceMeans (some "") none
  | named {s : String} (nonempty : s ≠ "") : ReferenceMeans (some s) (some s)

theorem referenceMeans_iff {reference meant : Option String} :
    ReferenceMeans reference meant ↔ placed reference = meant := by
  constructor
  · intro h
    cases h with
    | absent | empty => rfl
    | named nonempty => exact placed_eq_some_iff.mpr ⟨rfl, nonempty⟩
  · rintro rfl
    cases reference with
    | none => exact .absent
    | some s =>
      by_cases hempty : s = ""
      · subst hempty
        exact .empty
      · rw [placed_eq_some_iff.mpr ⟨rfl, hempty⟩]
        exact .named hempty

/-- What a reference that is not empty names has a property, or there is none. -/
theorem placed_forall_iff {reference : Option String} {P : String → Prop} :
    (∀ s, placed reference = some s → P s) ↔
      reference = none ∨ reference = some "" ∨ ∃ s, reference = some s ∧ P s := by
  constructor
  · intro h
    cases reference with
    | none => exact .inl rfl
    | some s =>
      by_cases hempty : s = ""
      · exact .inr (.inl (congrArg some hempty))
      · exact .inr (.inr ⟨s, rfl, h s (placed_eq_some_iff.mpr ⟨rfl, hempty⟩)⟩)
  · intro h s hs
    obtain ⟨hreference, hnonempty⟩ := placed_eq_some_iff.mp hs
    obtain hnone | hempty | ⟨s', hs', hP⟩ := h
    · simp [hnone] at hreference
    · rw [hempty] at hreference
      exact absurd (Option.some.inj hreference).symm hnonempty
    · rw [hs'] at hreference
      exact Option.some.inj hreference ▸ hP

/-- What the value of a variable means: the texts of the booleans are booleans. -/
inductive ValueMeans : Value → Value → Prop
  | true : ValueMeans (.text "true") (.bool true)
  | false : ValueMeans (.text "false") (.bool false)
  | same {v : Value} (htrue : v ≠ .text "true") (hfalse : v ≠ .text "false") : ValueMeans v v

theorem valueMeans_iff {v meant : Value} : ValueMeans v meant ↔ variableValue v = meant := by
  constructor
  · intro h
    cases h with
    | true | false => rfl
    | same htrue hfalse =>
      cases v with
      | bool b | number x => rfl
      | text s =>
        have hs : s ≠ "true" ∧ s ≠ "false" := by simpa using And.intro htrue hfalse
        simp [variableValue, hs]
  · rintro rfl
    match v with
    | .bool b | .number x => exact .same nofun nofun
    | .text s =>
      by_cases htrue : s = "true"
      · subst htrue
        exact .true
      by_cases hfalse : s = "false"
      · subst hfalse
        exact .false
      · simpa [variableValue, htrue, hfalse] using
          ValueMeans.same (v := .text s) (by simpa using htrue) (by simpa using hfalse)

/-! ## Entities -/

/-- The item that a draft describes: only its owner and its flags are read. -/
structure ItemDraft.Means (d : ItemDraft) (i : Item) : Prop where
  kept : { i.draft with owner := d.owner, visible := d.visible, movable := d.movable } = d
  owner : ReferenceMeans d.owner i.owner
  visible : FlagMeans d.visible i.visible
  movable : FlagMeans d.movable i.movable

theorem ItemDraft.means_iff {d : ItemDraft} {i : Item} : d.Means i ↔ d.item = i := by
  constructor
  · rintro ⟨kept, owner, visible, movable⟩
    rw [← kept]
    simp only [ItemDraft.item, Item.draft, referenceMeans_iff.mp owner, flagMeans_iff.mp visible,
      flagMeans_iff.mp movable]
  · rintro rfl
    exact ⟨rfl, referenceMeans_iff.mpr rfl, flagMeans_iff.mpr rfl, flagMeans_iff.mpr rfl⟩

/-- The character that a draft describes: only its location and its flag are read. -/
structure CharacterDraft.Means (d : CharacterDraft) (c : Character) : Prop where
  kept : { c.draft with location := d.location, visible := d.visible } = d
  location : ReferenceMeans d.location c.location
  visible : FlagMeans d.visible c.visible

theorem CharacterDraft.means_iff {d : CharacterDraft} {c : Character} :
    d.Means c ↔ d.character = c := by
  constructor
  · rintro ⟨kept, location, visible⟩
    rw [← kept]
    simp only [CharacterDraft.character, Character.draft, referenceMeans_iff.mp location,
      flagMeans_iff.mp visible]
  · rintro rfl
    exact ⟨rfl, referenceMeans_iff.mpr rfl, flagMeans_iff.mpr rfl⟩

/-- The variable that is authored: only its value is read. -/
structure Variable.Means (authored x : Variable) : Prop where
  kept : { x with value := authored.value } = authored
  value : ValueMeans authored.value x.value

theorem Variable.means_iff {authored x : Variable} : authored.Means x ↔ authored.loaded = x := by
  constructor
  · rintro ⟨kept, value⟩
    rw [← kept]
    simp only [Variable.loaded, valueMeans_iff.mp value]
  · rintro rfl
    exact ⟨rfl, valueMeans_iff.mpr rfl⟩

/-! ## Documents -/

/-- One list is read element by element as another. -/
theorem forall₂_means_iff {α β : Type} {means : α → β → Prop} {f : α → β}
    (h : ∀ a b, means a b ↔ f a = b) {as : List α} {bs : List β} :
    List.Forall₂ means as bs ↔ as.map f = bs := by
  have hmeans : means = fun a b => f a = b := funext₂ fun a b => propext (h a b)
  rw [hmeans, ← List.forall₂_map_left_iff (R := Eq), List.forall₂_eq_eq_eq]

/-- The world that a document describes: its items, characters and variables are read one by one in
their order, and all else is kept. -/
structure Document.Means (d : Document) (w : World) : Prop where
  kept : { w.snapshot with items := d.items, characters := d.characters, vars := d.vars } = d
  items : List.Forall₂ ItemDraft.Means d.items w.items
  characters : List.Forall₂ CharacterDraft.Means d.characters w.characters
  vars : List.Forall₂ Variable.Means d.vars w.vars

theorem Document.means_iff {d : Document} {w : World} : d.Means w ↔ w = d.world := by
  have hitems := @forall₂_means_iff _ _ _ _ @ItemDraft.means_iff
  have hcharacters := @forall₂_means_iff _ _ _ _ @CharacterDraft.means_iff
  have hvars := @forall₂_means_iff _ _ _ _ @Variable.means_iff
  constructor
  · rintro ⟨kept, items, characters, vars⟩
    rw [← kept]
    simp only [Document.world, World.snapshot, hitems.mp items, hcharacters.mp characters,
      hvars.mp vars]
  · rintro rfl
    exact ⟨rfl, hitems.mpr rfl, hcharacters.mpr rfl, hvars.mpr rfl⟩

/-- Well-formedness said of the authored references, where the player is one of the characters. -/
theorem Document.wellFormed_iff {d : Document} :
    d.WellFormed ↔
      (∀ id ∈ d.ids, Text.isBlankText id = false ∧ ':' ∉ id.toList) ∧ d.ids.Nodup ∧
      (∃ c ∈ d.characters, c.id = playerId ∧ ∃ l ∈ d.locations, c.location = some l.id) ∧
      (∀ l ∈ d.locations, ∀ c ∈ l.connections, ∃ t ∈ d.locations, t.id = c.target) ∧
      (∀ c ∈ d.characters, c.id ≠ playerId → c.location = none ∨ c.location = some "" ∨
        ∃ place, c.location = some place ∧ ∃ l ∈ d.locations, l.id = place) ∧
      ∀ i ∈ d.items, i.owner = none ∨ i.owner = some "" ∨ ∃ owner, i.owner = some owner ∧
        ((∃ l ∈ d.locations, l.id = owner) ∨ ∃ c ∈ d.characters, c.id = owner) := by
  constructor
  · intro h
    exact ⟨h.ids, h.distinct, h.player, h.connections,
      fun c hc _ => placed_forall_iff.mp (h.characters c hc),
      fun i hi => placed_forall_iff.mp (h.items i hi)⟩
  · rintro ⟨hids, hdistinct, hplayer, hconnections, hothers, hitems⟩
    refine ⟨hids, hdistinct, hplayer, hconnections, fun c hc => ?_,
      fun i hi => placed_forall_iff.mpr (hitems i hi)⟩
    by_cases hself : c.id = playerId
    · obtain ⟨player, hmem, hid, l, hl, hplace⟩ := hplayer
      have honly : c = player :=
        List.inj_on_of_nodup_map (nodup_characters hdistinct) hc hmem (hself.trans hid.symm)
      subst honly
      exact placed_forall_iff.mpr (.inr (.inr ⟨l.id, hplace, l, hl, rfl⟩))
    · exact placed_forall_iff.mpr (hothers c hc hself)

namespace World

/-- **The loader accepts exactly the well-formed documents**, and loads of each the one world that it
means. All ids are distinct, not blank and free of colons; the player stands at a location; exits
lead to locations; other characters are at a location or nowhere, and items with a location, a
character or nobody. What was checked of the document holds of the world. -/
theorem load_iff_sound (d : Document) :
    ((∃ w, load d = .ok w) ↔
      (∀ id ∈ d.ids, Text.isBlankText id = false ∧ ':' ∉ id.toList) ∧ d.ids.Nodup ∧
      (∃ c ∈ d.characters, c.id = playerId ∧ ∃ l ∈ d.locations, c.location = some l.id) ∧
      (∀ l ∈ d.locations, ∀ c ∈ l.connections, ∃ t ∈ d.locations, t.id = c.target) ∧
      (∀ c ∈ d.characters, c.id ≠ playerId → c.location = none ∨ c.location = some "" ∨
        ∃ place, c.location = some place ∧ ∃ l ∈ d.locations, l.id = place) ∧
      ∀ i ∈ d.items, i.owner = none ∨ i.owner = some "" ∨ ∃ owner, i.owner = some owner ∧
        ((∃ l ∈ d.locations, l.id = owner) ∨ ∃ c ∈ d.characters, c.id = owner)) ∧
    ∀ w, load d = .ok w → (∀ w', d.Means w' ↔ w' = w) ∧ w.Intact := by
  refine ⟨?_, fun w hw => ⟨fun w' => ?_, intact_of_load hw⟩⟩
  · rw [← Document.wellFormed_iff]
    simp [load_eq_ok_iff]
  · obtain ⟨-, rfl⟩ := load_eq_ok_iff.mp hw
    exact Document.means_iff

/-- A flag and a boolean that are written as texts, and an owner that is empty. -/
theorem load_iff_sound_lampRoom :
    let d : Document := { lampRoom "" with
      items := [⟨"lamp", "Lamp", some "", some (.text " true "), some (.text "yes"), [], [], [], [],
        [], .nil⟩]
      vars := [⟨"lit", .text "true", .nil⟩] }
    ∃ w, load d = .ok w ∧ d.Means w ∧ w.item? "lamp" =
      some ⟨"lamp", "Lamp", none, true, false, [], [], [], [], [], .nil⟩ ∧
        w.vars = [⟨"lit", .bool true, .nil⟩] := by
  intro d
  have loaded : load d = .ok d.world := rfl
  exact ⟨d.world, loaded, (((load_iff_sound d).2 _ loaded).1 _).mpr rfl, rfl, rfl⟩

end World

end Storyworld
