import Storyworld.Proofs.Story.Session

/-! # Games taken up again

A snapshot of an intact world is well formed, so a game that is put away can always be taken up
again, and its threads are all kept. Only the variables are read once more for their meaning:
`load_snapshot`. A variable that was set to the text of a boolean comes back as a boolean, and
nothing else changes: `resume_save_iff`.
-/

namespace Storyworld

/-! ## Snapshots -/

/-- Whether a value is the text of a boolean. -/
def Value.spellsBool : Value → Bool
  | .text s => s = "true" ∨ s = "false"
  | _ => false

theorem variableValue_eq_self_iff {v : Value} :
    variableValue v = v ↔ v.spellsBool = false := by
  cases v with
  | bool b => simp [variableValue, Value.spellsBool]
  | number x => simp [variableValue, Value.spellsBool]
  | text s =>
    by_cases htrue : s = "true"
    · simp [variableValue, Value.spellsBool, htrue]
    · by_cases hfalse : s = "false"
      · simp [variableValue, Value.spellsBool, hfalse]
      · simp [variableValue, Value.spellsBool, htrue, hfalse]

theorem loaded_eq_self_iff {x : Variable} : x.loaded = x ↔ x.value.spellsBool = false := by
  rw [← variableValue_eq_self_iff]
  cases x
  simp [Variable.loaded]

theorem placed_eq_self {reference : Option String} (h : reference ≠ some "") :
    placed reference = reference := by
  cases reference with
  | none => rfl
  | some s => simpa [placed] using h

theorem item_draft {i : Item} (h : i.owner ≠ some "") : i.draft.item = i := by
  simp [Item.draft, ItemDraft.item, placed_eq_self h, flag]

theorem character_draft {c : Character} (h : c.location ≠ some "") : c.draft.character = c := by
  simp [Character.draft, CharacterDraft.character, placed_eq_self h, flag]

theorem map_eq_self_iff {α : Type} {f : α → α} {xs : List α} :
    xs.map f = xs ↔ ∀ x ∈ xs, f x = x := by
  have h : xs.map f = xs.map id ↔ ∀ x ∈ xs, f x = id x := List.map_inj_left
  rwa [List.map_id] at h

namespace World

/-- The world with its variables read for their meaning once more. -/
def reread (w : World) : World :=
  { w with vars := w.vars.map Variable.loaded }

theorem reread_eq_self_iff {w : World} :
    w.reread = w ↔ ∀ x ∈ w.vars, x.value.spellsBool = false := by
  have hvars : w.reread = w ↔ w.vars.map Variable.loaded = w.vars := by
    cases w
    simp [reread]
  rw [hvars, map_eq_self_iff]
  exact forall₂_congr fun x _ => loaded_eq_self_iff

theorem ids_snapshot (w : World) : w.snapshot.ids = w.ids := by
  simp [snapshot, Document.ids, World.ids, World.entities, Item.draft, Character.draft,
    Function.comp_def, Entity.id]

/-- Nothing has the empty id, so no reference of an intact world is empty. -/
theorem Intact.not_isPlace_empty {w : World} (h : w.Intact) : ¬w.IsPlace "" := by
  intro hplace
  obtain ⟨l, hl, hid⟩ := hplace
  refine (h.ids l.id ?_).ne_empty hid
  exact List.mem_map_of_mem (mem_locations_iff.mpr hl)

theorem Intact.not_isPerson_empty {w : World} (h : w.Intact) : ¬w.IsPerson "" := by
  intro hperson
  obtain ⟨c, hc, hid⟩ := hperson
  refine (h.ids c.id ?_).ne_empty hid
  exact List.mem_map_of_mem (mem_characters_iff.mpr hc)

theorem Intact.item_draft {w : World} (h : w.Intact) {i : Item} (hi : i ∈ w.items) :
    i.draft.item = i := by
  refine Storyworld.item_draft fun howner => ?_
  rcases h.entities _ (mem_items_iff.mpr hi) "" howner with hplace | hperson
  · exact h.not_isPlace_empty hplace
  · exact h.not_isPerson_empty hperson

theorem Intact.character_draft {w : World} (h : w.Intact) {c : Character}
    (hc : c ∈ w.characters) : c.draft.character = c :=
  Storyworld.character_draft fun hlocation =>
    h.not_isPlace_empty ((h.entities _ (mem_characters_iff.mpr hc)).1 "" hlocation)

theorem Intact.world_snapshot {w : World} (h : w.Intact) : w.snapshot.world = w.reread := by
  have hitems : w.items.map (ItemDraft.item ∘ Item.draft) = w.items :=
    map_eq_self_iff.mpr fun i hi => h.item_draft hi
  have hcharacters :
      w.characters.map (CharacterDraft.character ∘ Character.draft) = w.characters :=
    map_eq_self_iff.mpr fun c hc => h.character_draft hc
  simp only [snapshot, Document.world, reread, List.map_map, hitems, hcharacters]

theorem Intact.wellFormed_snapshot {w : World} (h : w.Intact) : w.snapshot.WellFormed := by
  have hpeople {id : String} : w.IsPerson id ↔ ∃ c ∈ w.snapshot.characters, c.id = id := by
    simp [IsPerson, snapshot, Character.draft]
  refine ⟨by rw [ids_snapshot]; exact h.ids, by rw [ids_snapshot]; exact h.distinct, ?_, ?_, ?_, ?_⟩
  · obtain ⟨p, hp, hid, -⟩ := h.exists_filter_player
    obtain ⟨hplaces, hplaced⟩ := h.entities _ (mem_characters_iff.mpr hp)
    obtain ⟨place, hplace⟩ := Option.ne_none_iff_exists'.mp (hplaced hid)
    obtain ⟨l, hl, rfl⟩ := hplaces place hplace
    exact ⟨p.draft, List.mem_map_of_mem hp, hid, l, hl, hplace⟩
  · exact fun l hl => h.entities _ (mem_locations_iff.mpr hl)
  · intro c hc place hplace
    obtain ⟨c', hc', rfl⟩ := List.mem_map.mp hc
    exact (h.entities _ (mem_characters_iff.mpr hc')).1 place (placed_eq_some_iff.mp hplace).1
  · intro i hi owner howner
    obtain ⟨i', hi', rfl⟩ := List.mem_map.mp hi
    have howner' : i'.owner = some owner := (placed_eq_some_iff.mp howner).1
    exact (h.entities _ (mem_items_iff.mpr hi') owner howner').imp_right hpeople.mp

/-- **A snapshot of an intact world loads**, and only variables can come back changed. -/
theorem Intact.load_snapshot {w : World} (h : w.Intact) : load w.snapshot = .ok w.reread :=
  load_eq_ok_iff.mpr ⟨h.wellFormed_snapshot, h.world_snapshot⟩

end World

namespace Story.Session

/-! ## Games put away and taken up again -/

theorem resume_save {s : Session} (hintact : s.stage.world.Intact)
    (hnamed : s.stage.ThreadsNamed) (c : Config) :
    resume s.save c = .ok ⟨c, ⟨s.stage.world.reread, s.stage.threads⟩⟩ := by
  refine resume_eq_ok_iff.mpr ⟨_, hintact.load_snapshot, ?_⟩
  -- rereading leaves the characters alone, so it leaves every thread where it was
  have hkept : s.stage.threads.filter (isThreadOf s.stage.world.reread) = s.stage.threads :=
    Entries.filter_eq_self hnamed
  rw [save, hkept]

/-- **What becomes of a game that is put away and taken up again.** It can always be taken up, with
the same threads. Its world is the same unless a variable holds the text of a boolean, and then
everything that is played from there on is the same too. -/
theorem resume_save_iff {s₀ : Session} (begins : s₀.Begins) (actions : List Action)
    (c : Config) :
    let s := s₀.after actions
    ∃ s', resume s.save c = .ok s' ∧ s'.config = c ∧ s'.stage.threads = s.stage.threads ∧
      s'.stage.world = s.stage.world.reread ∧
      (s'.stage.world = s.stage.world ↔ ∀ x ∈ s.stage.world.vars, x.value.spellsBool = false) ∧
      ((∀ x ∈ s.stage.world.vars, x.value.spellsBool = false) → c = s.config →
        ∀ later, s'.outputs later = s.outputs later) := by
  intro s
  have hintact : s.stage.world.Intact := intact_after begins.intact actions
  have hnamed : s.stage.ThreadsNamed := threadsNamed_after begins.threadsNamed actions
  refine ⟨_, resume_save hintact hnamed c, rfl, rfl, rfl, World.reread_eq_self_iff, ?_⟩
  rintro hplain rfl later
  rw [World.reread_eq_self_iff.mpr hplain]

/-- A room with a lamp to be lit, and a keeper who takes note of its guest and waits for an answer. -/
def meetingRoom : Document :=
  { lampRoom "light = 1" with
    characters := [⟨playerId, "Venda", some "cell", none, [], [], .nil⟩,
      ⟨"keeper", "Keeper", some "cell", none, [],
        [⟨some "riddle", none, some "Who are you?", some "guest = \"Venda\"",
          [⟨"own", some "Venda", none, none, none⟩]⟩],
        .nil⟩] }

/-- A game is put away while the keeper waits, and both scripts have made a variable. -/
theorem resume_save_iff_meetingRoom :
    let s := (new meetingRoom.world {}).after [⟨.use, .text "lamp"⟩, ⟨.talk, .text "keeper"⟩]
    s.stage.world.vars.map (·.id) = ["light", "guest"] ∧
      s.stage.threads.toList = [("keeper", "riddle")] ∧
      ∃ s', resume s.save {} = .ok s' ∧ s'.stage.world = s.stage.world ∧
        s'.stage.threads = s.stage.threads ∧ ∀ later, s'.outputs later = s.outputs later := by
  have begins : (new meetingRoom.world {}).Begins := .new (d := meetingRoom) rfl [] {}
  have plain : ∀ x ∈ ((new meetingRoom.world {}).after
      [⟨.use, .text "lamp"⟩, ⟨.talk, .text "keeper"⟩]).stage.world.vars,
      x.value.spellsBool = false := by decide +kernel
  obtain ⟨s', resumed, -, threads, -, world, same⟩ :=
    resume_save_iff begins [⟨.use, .text "lamp"⟩, ⟨.talk, .text "keeper"⟩] {}
  exact ⟨by decide +kernel, by decide +kernel, s', resumed, world.mpr plain, threads,
    same plain (config_after (new meetingRoom.world {}) _).symm⟩

/-- A variable that holds the text of a boolean comes back changed. -/
theorem resume_save_ne {s : Session} (hintact : s.stage.world.Intact)
    (hnamed : s.stage.ThreadsNamed) (c : Config)
    (hspelled : s.stage.world.vars.any (·.value.spellsBool) = true) :
    ∀ s', resume s.save c = .ok s' → s'.stage.world ≠ s.stage.world := by
  intro s' hs' hsame
  rw [resume_save hintact hnamed c] at hs'
  cases hs'
  obtain ⟨x, hx, hspells⟩ := List.any_eq_true.mp hspelled
  rw [World.reread_eq_self_iff.mp hsame x hx] at hspells
  cases hspells

theorem resume_save_ne_lampRoom :
    World.load (lampRoom "x = \"true\"") = .ok (lampRoom "x = \"true\"").world ∧
      let s := (new (lampRoom "x = \"true\"").world {}).after [⟨.use, .text "lamp"⟩]
      ∀ s', resume s.save {} = .ok s' → s'.stage.world ≠ s.stage.world := by
  have begins : (new (lampRoom "x = \"true\"").world {}).Begins :=
    .new (d := lampRoom "x = \"true\"") rfl [] {}
  refine ⟨rfl, ?_⟩
  exact resume_save_ne (intact_after begins.intact _) (threadsNamed_after begins.threadsNamed _) {}
    (by decide +kernel)

end Story.Session

end Storyworld
