import Storyworld.Proofs.Story.Resume

/-! # Dialogue threads

Whatever is played, a character that waits waits at an entry of its own, and an action changes the
thread of no character but the one whom it addresses. So a game that is put away and taken up again
keeps all its threads.
-/

namespace Storyworld.Story

theorem Stage.ThreadsNamed.exists_entry {s : Stage} (h : s.ThreadsNamed) {thread : String × String}
    (ht : thread ∈ s.threads) :
    ∃ c ∈ s.world.characters, c.id = thread.1 ∧ ∃ e ∈ c.onTalk, e.id = some thread.2 := by
  obtain ⟨es, hes, e, he, hid⟩ := isThreadOf_iff.mp (h thread ht)
  obtain ⟨c, hc, rfl⟩ := Option.map_eq_some_iff.mp hes
  exact ⟨c, List.mem_of_find?_eq_some hc, by simpa using List.find?_some hc, e, he, hid⟩

namespace Dialogue

/-- Talking to a character changes nobody else's thread, whether it succeeds or fails. -/
theorem talk_thread (m : Messages) {character other : String} (hne : other ≠ character)
    (s : Stage) : (talk m character s).2.threads.lookup other = s.threads.lookup other := by
  have hlawful : (talk m character).Lawful (· = character) s := talk_lawful m (by rfl) s
  exact hlawful.evolves.thread hne

/-- Picking a response of a character changes nobody else's thread, whether it succeeds or fails. -/
theorem choose_thread (m : Messages) {c : Choice} {other : String} (hne : other ≠ c.character)
    (s : Stage) : (choose m c s).2.threads.lookup other = s.threads.lookup other := by
  have hlawful : (choose m c).Lawful (· = c.character) s := choose_lawful m (by rfl) s
  exact hlawful.evolves.thread hne

end Dialogue

/-- A story of one room, where the player stands next to a keeper who waits for an answer once it is
talked to. -/
def keeperRoom : Document where
  metadata := ⟨"Cell", none, none, none, none⟩
  intro := []
  locations := [⟨"cell", "Cell", [], [], .nil⟩]
  items := []
  characters := [⟨playerId, "Venda", some "cell", none, [], [], .nil⟩,
    ⟨"keeper", "Keeper", some "cell", none, [],
      [⟨some "riddle", none, some "Who are you?", none, [⟨"own", some "Venda", none, none, none⟩]⟩],
      .nil⟩]
  endings := []
  vars := []

namespace Session

theorem handle_thread (s : Session) {a : Action} {other : String}
    (hne : a.partner? s.stage.world ≠ some other) :
    (s.handle a).2.stage.threads.lookup other = s.stage.threads.lookup other :=
  (s.handle_evolves a).thread hne

/-- **Threads in every run of a session.** However a session began and whatever was played, each
thread names a character and an entry of that character. Talking to a character and answering it
leave everyone else's thread alone, and so does an action for all but the character that it
addresses. A game that is put away can be taken up again, with the same threads. -/
theorem threads_of_begins {s₀ : Session} (begins : s₀.Begins) (actions : List Action) :
    let s := s₀.after actions
    (∀ thread ∈ s.stage.threads, ∃ c ∈ s.stage.world.characters,
      c.id = thread.1 ∧ ∃ e ∈ c.onTalk, e.id = some thread.2) ∧
    (∀ m character other, other ≠ character →
      (Dialogue.talk m character s.stage).2.threads.lookup other =
        s.stage.threads.lookup other) ∧
    (∀ m c other, other ≠ c.character →
      (Dialogue.choose m c s.stage).2.threads.lookup other = s.stage.threads.lookup other) ∧
    (∀ a other, a.partner? s.stage.world ≠ some other →
      (s.handle a).2.stage.threads.lookup other = s.stage.threads.lookup other) ∧
    ∀ c, ∃ s', resume s.save c = .ok s' ∧ s'.stage.threads = s.stage.threads := by
  intro s
  have hintact : s.stage.world.Intact := intact_after begins.intact actions
  have hnamed : s.stage.ThreadsNamed := threadsNamed_after begins.threadsNamed actions
  refine ⟨fun _ => hnamed.exists_entry, ?_, ?_, ?_, ?_⟩
  · exact fun m _ _ hne => Dialogue.talk_thread m hne s.stage
  · exact fun m _ _ hne => Dialogue.choose_thread m hne s.stage
  · exact fun _ _ hne => s.handle_thread hne
  · exact fun c => ⟨_, resume_save hintact hnamed c, rfl⟩

theorem threads_of_begins_keeperRoom :
    let s := (new keeperRoom.world {}).after [⟨.talk, .text "keeper"⟩]
    s.stage.threads = .ofList [("keeper", "riddle")] ∧
      ∃ s', resume s.save {} = .ok s' ∧ s'.stage.threads = .ofList [("keeper", "riddle")] := by
  have begins : (new keeperRoom.world {}).Begins := .new (d := keeperRoom) rfl [] {}
  intro s
  have hwaits : s.stage.threads = .ofList [("keeper", "riddle")] := rfl
  obtain ⟨-, -, -, -, hresume⟩ := threads_of_begins begins [⟨.talk, .text "keeper"⟩]
  obtain ⟨s', hs', hsame⟩ := hresume {}
  exact ⟨hwaits, s', hs', hsame.trans hwaits⟩

end Session

end Storyworld.Story
