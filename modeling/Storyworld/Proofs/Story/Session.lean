import Storyworld.Proofs.Story.Turn

/-! # Sessions in play

A session begins in a world that was loaded, or where a game was taken up again, and goes on by
actions, which may fail. `intact_after` and `threadsNamed_after` say what no action ever breaks:
references lead somewhere, and a waiting character waits at one of its own entries.
-/

namespace Storyworld

namespace Story.Session

/-- The session after actions in order, whether they succeed or fail. -/
def after (s : Session) (actions : List Action) : Session :=
  actions.foldl (fun s a => (s.handle a).2) s

/-- What actions in order tell, or why each of them failed. -/
def outputs (s : Session) : List Action → List (Except StoryError (List Output))
  | [] => []
  | a :: rest => (s.handle a).1 :: outputs (s.handle a).2 rest

/-- A session before its first action. The world of a new one may have been written to. -/
inductive Begins : Session → Prop
  | new {d : Document} {w : World} (loaded : World.load d = .ok w) (calls : List World.Call)
      (c : Config) : Begins (new (w.runCalls calls) c)
  | resume {g : SavedGame} {c : Config} {s : Session} (resumed : resume g c = .ok s) : Begins s

theorem config_after (s : Session) (actions : List Action) :
    (s.after actions).config = s.config := by
  induction actions generalizing s with
  | nil => rfl
  | cons a rest ih => exact ih (s.handle a).2

theorem handle_evolves (s : Session) (a : Action) :
    s.stage.Evolves (fun character => a.partner? s.stage.world = some character)
      (s.handle a).2.stage :=
  (Turn.handle_lawful s.config a s.stage).evolves

theorem after_evolves (s : Session) (actions : List Action) :
    s.stage.Evolves (fun _ => True) (s.after actions).stage := by
  induction actions generalizing s with
  | nil => exact .refl _
  | cons a rest ih =>
    exact ((s.handle_evolves a).mono fun _ _ => trivial).trans (ih (s.handle a).2)

/-- Taking a game up again loads its world and drops the threads that lead nowhere. -/
theorem resume_eq_ok_iff {g : SavedGame} {c : Config} {s : Session} :
    resume g c = .ok s ↔
      ∃ w, World.load g.document = .ok w ∧ s = ⟨c, ⟨w, g.threads.filter (isThreadOf w)⟩⟩ := by
  unfold resume
  cases World.load g.document with
  | error fault => simp
  | ok w => simp [eq_comm]

theorem Begins.intact {s : Session} (h : s.Begins) : s.stage.world.Intact := by
  cases h with
  | new loaded calls c => exact (World.intact_of_load loaded).runCalls calls
  | resume resumed =>
    obtain ⟨w, hload, rfl⟩ := resume_eq_ok_iff.mp resumed
    exact World.intact_of_load hload

theorem Begins.threadsNamed {s : Session} (h : s.Begins) : s.stage.ThreadsNamed := by
  cases h with
  | new loaded calls c => exact fun _ ht => absurd ht List.not_mem_nil
  | resume resumed =>
    obtain ⟨w, -, rfl⟩ := resume_eq_ok_iff.mp resumed
    exact fun _ ht => (Entries.mem_filter.mp ht).2

theorem intact_after {s : Session} (h : s.stage.world.Intact) (actions : List Action) :
    (s.after actions).stage.world.Intact :=
  (s.after_evolves actions).world.intact h

theorem threadsNamed_after {s : Session} (h : s.stage.ThreadsNamed) (actions : List Action) :
    (s.after actions).stage.ThreadsNamed :=
  (s.after_evolves actions).threadsNamed h

/-- While references are intact, no action misses the player. -/
theorem handle_ne_playerNotPlaced {s : Session} (h : s.stage.world.Intact) (a : Action) :
    (s.handle a).1 ≠ .error .playerNotPlaced :=
  (Turn.handle_lawful s.config a s.stage).placed h

end Story.Session

namespace World

open Story

/-- Where keys are distinct, an element is the only one with its key. -/
theorem filter_key_eq_singleton {α : Type} (key : α → String) {a : α} {xs : List α}
    (hnodup : (xs.map key).Nodup) (ha : a ∈ xs) : xs.filter (key · = key a) = [a] := by
  induction xs with
  | nil => cases ha
  | cons x xs ih =>
    rw [List.map_cons, List.nodup_cons] at hnodup
    obtain ⟨hx, hnodup⟩ := hnodup
    rcases List.mem_cons.mp ha with rfl | ha
    · have hrest : xs.filter (key · = key a) = [] := by
        rw [List.filter_eq_nil_iff]
        intro y hy heq
        exact hx (of_decide_eq_true heq ▸ List.mem_map_of_mem hy)
      simp [hrest]
    · have hne : key x ≠ key a := fun heq => hx (heq ▸ List.mem_map_of_mem ha)
      simp [hne, ih hnodup ha]

theorem Intact.nodup_characters {w : World} (h : w.Intact) : (w.characters.map (·.id)).Nodup := by
  have hids := h.distinct
  simp only [World.ids, World.entities, List.map_append, List.map_map, List.nodup_append] at hids
  exact hids.1.1.2.1

/-- In an intact world there is one player. -/
theorem Intact.exists_filter_player {w : World} (h : w.Intact) :
    ∃ p ∈ w.characters, p.id = playerId ∧ w.characters.filter (·.id = playerId) = [p] := by
  obtain ⟨p, hp, hid⟩ := h.player
  refine ⟨p, hp, hid, ?_⟩
  rw [← hid]
  exact filter_key_eq_singleton (·.id) h.nodup_characters hp

/-- **References hold in every run of calls.** In a world that was loaded, and however it was
written to since, there is one player, who stands at a location; every other character, every item
and every connection has what it names; and no action of a session in such a world misses the
player. -/
theorem references_of_load {d : Document} {w : World} (loaded : load d = .ok w)
    (calls : List Call) :
    let w' := w.runCalls calls
    (∃ p, w'.characters.filter (·.id = playerId) = [p] ∧
      ∃ place, p.location = some place ∧ w'.IsPlace place) ∧
    (∀ c ∈ w'.characters, ∀ place, c.location = some place → w'.IsPlace place) ∧
    (∀ i ∈ w'.items, ∀ owner, i.owner = some owner → w'.IsPlace owner ∨ w'.IsPerson owner) ∧
    (∀ l ∈ w'.locations, ∀ c ∈ l.connections, w'.IsPlace c.target) ∧
    (∃ l, w'.playerLocation? = some l) ∧
    ∀ s : Session, s.stage.world = w' → ∀ (actions : List Action) (a : Action),
      ((s.after actions).handle a).1 ≠ .error .playerNotPlaced := by
  intro w'
  have h : w'.Intact := (intact_of_load loaded).runCalls calls
  obtain ⟨p, hp, hid, honly⟩ := h.exists_filter_player
  obtain ⟨hplaces, hplaced⟩ := h.entities _ (mem_characters_iff.mpr hp)
  obtain ⟨place, hplace⟩ := Option.ne_none_iff_exists'.mp (hplaced hid)
  refine ⟨⟨p, honly, place, hplace, hplaces place hplace⟩, ?_, ?_, ?_, ?_, ?_⟩
  · exact fun c hc => (h.entities _ (mem_characters_iff.mpr hc)).1
  · exact fun i hi => h.entities _ (mem_items_iff.mpr hi)
  · exact fun l hl => h.entities _ (mem_locations_iff.mpr hl)
  · exact h.exists_playerLocation?
  · rintro s hs actions a
    exact Session.handle_ne_playerNotPlaced (Session.intact_after (hs ▸ h) actions) a

theorem references_of_load_lampRoom :
    load (lampRoom "") = .ok (lampRoom "").world ∧
      ∀ calls, ∃ l, ((lampRoom "").world.runCalls calls).playerLocation? = some l :=
  ⟨rfl, fun calls => (references_of_load (d := lampRoom "") rfl calls).2.2.2.2.1⟩

end World

end Storyworld
