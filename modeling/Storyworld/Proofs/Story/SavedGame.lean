import Storyworld.Proofs.Story.Session
import Storyworld.Proofs.Document.Codec

/-! # Saved games read back

The text of a saved game reads as its document tree, and the tree restores the game as far as the
numbers and the nesting of its attribute trees allow: `readsBack_save_iff`. A number that is
infinite or none, and a tree nested too deeply, are what a game can be lost by.
-/

namespace Storyworld.Story

open Json

deriving instance BEq for SavedGame

/-! ## Threads in documents -/

namespace Threads

theorem plain_toJson (threads : Threads) : (toJson threads).Plain := by
  refine plain_record fun m hm => ?_
  obtain ⟨t, -, rfl⟩ := List.mem_map.mp hm
  exact .whole t.2

theorem decode_toJson (threads : Threads) (n : Nat) :
    decode (n + 1) (toJson threads) = some threads := by
  simp only [decode, toJson, record, named?_record, Option.bind_eq_bind, Option.bind_some,
    List.mapM_map]
  rw [mapM_eq_some_self, Option.bind_some, Keyed.ofList_toList]
  · rfl
  · exact fun t _ => rfl

end Threads

/-! ## Games in documents -/

namespace SavedGame

theorem toJson_eq (g : SavedGame) : g.toJson = record (written ["document", "threads"]
    [some g.document.toJson, some (Threads.toJson g.threads)]) := by
  simp [toJson, written_cons, written_nil]

theorem plain_toJson (g : SavedGame) : g.toJson.Plain := by
  rw [toJson_eq]
  exact plain_written (by simp [Document.plain_toJson, Threads.plain_toJson])

theorem decode_toJson (g : SavedGame) (n : Nat) :
    decode (n + 2) g.toJson = (do
      let document ← Document.decode (n + 1) g.document.toJson
      pure { g with document := document }) := by
  rw [toJson_eq, decode, fields?_written_bind (by decide)]
  simp (disch := decide) [Threads.decode_toJson]

/-- The text of a game reads as its document tree. -/
theorem ofText?_text (g : SavedGame) : ofText? g.text = decode nestingLimit g.toJson := by
  rw [ofText?, text, parse?_pretty g.plain_toJson]
  rfl

/-- Whether the text of a game reads as an equal game. -/
def ReadsBack (g : SavedGame) : Prop :=
  ∃ g', ofText? g.text = some g' ∧ (g' == g) = true

/-- **A game reads back** if and only if its numbers do and no attribute tree is nested too deeply.
Four containers lie around each tree. -/
theorem readsBack_iff {g : SavedGame} :
    g.ReadsBack ↔ (∀ x ∈ g.document.numbers, Number.ReadsBack x) ∧
      ∀ as ∈ g.document.trees, (Attribute.map as).depth ≤ nestingLimit - 4 := by
  have hrestores : g.ReadsBack ↔ Restores (decode nestingLimit g.toJson) g := by
    rw [ReadsBack, ofText?_text]
    rfl
  rw [hrestores, show nestingLimit = 125 + 2 from rfl, decode_toJson, ← Document.restores_iff]
  refine restores_field_iff fun d => ?_
  have hbeq : ({ g with document := d } == g) =
      (d == g.document && g.threads == g.threads) := rfl
  simp [hbeq]

/-- A game is lost by a number that grew beyond all bounds. -/
theorem not_readsBack {g : SavedGame}
    (hinfinite : g.document.numbers.any (!Number.isFinite ·) = true) : ¬g.ReadsBack := by
  intro hreads
  obtain ⟨x, hx, hfinite⟩ := List.any_eq_true.mp hinfinite
  rw [((readsBack_iff.mp hreads).1 x hx).isFinite] at hfinite
  cases hfinite

end SavedGame

namespace Session

/-- **Which games can be lost.** Wherever a session begins and whatever is played, the text of the
saved game reads as an equal game if and only if every number in it reads back and no attribute tree
is more than 123 containers deep. Where documents keep finite numbers as they are, the first means
that all numbers are finite. -/
theorem readsBack_save_iff (s₀ : Session) (actions : List Action) :
    let g := (s₀.after actions).save
    (g.ReadsBack ↔ (∀ x ∈ g.document.numbers, Number.ReadsBack x) ∧
      ∀ as ∈ g.document.trees, (Attribute.map as).depth ≤ 123) ∧
    ((∀ x ∈ g.document.numbers, Number.isFinite x = true → Number.ReadsBack x) →
      (g.ReadsBack ↔ (∀ x ∈ g.document.numbers, Number.isFinite x = true) ∧
        ∀ as ∈ g.document.trees, (Attribute.map as).depth ≤ 123)) := by
  intro g
  have hreads : g.ReadsBack ↔ _ := SavedGame.readsBack_iff
  refine ⟨hreads, fun hexact => hreads.trans (and_congr_left' ?_)⟩
  exact forall₂_congr fun x hx => ⟨fun h => h.isFinite, hexact x hx⟩

/-- A game with an integer reads back. -/
theorem readsBack_save_lampRoom :
    ((new (lampRoom "x = 1").world {}).after [⟨.use, .text "lamp"⟩]).save.ReadsBack :=
  ((readsBack_save_iff (new (lampRoom "x = 1").world {}) [⟨.use, .text "lamp"⟩]).2
    (by decide +kernel)).mpr ⟨by decide +kernel, by decide +kernel⟩

/-- The script whose use makes a number of the lamp's room infinite. -/
def squares : String := "x = 100000000000000000000; x = x * x; x = x * x; x = x * x; x = x * x"

theorem not_readsBack_save_lampRoom :
    World.load (lampRoom squares) = .ok (lampRoom squares).world ∧
      ¬((new (lampRoom squares).world {}).after [⟨.use, .text "lamp"⟩]).save.ReadsBack :=
  ⟨rfl, SavedGame.not_readsBack (by decide +kernel)⟩

end Session

end Storyworld.Story
