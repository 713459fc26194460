import Mathlib.Logic.Relation
import Storyworld.Proofs.Keyed
import Storyworld.Proofs.World.Integrity
import Storyworld.Story.SavedGame

/-! # How a stage changes

A turn changes the stage by calls of the store, by making a character wait at one of its own
entries, and by releasing one: `Stage.Step`. What a character may say never changes, so a thread
that names an entry names it from then on: `Stage.Evolves.threadsNamed`.
-/

namespace Storyworld

/-! ## Dialogues of a changing world -/

theorem Entity.Revision.onTalk {w : World} {e : Entity} {c' : Character}
    (h : e.Revision w (.character c')) :
    ∃ c, e = .character c ∧ c'.id = c.id ∧ c'.onTalk = c.onTalk := by
  generalize he : Entity.character c' = e' at h
  cases h with
  | attributes e =>
    cases e <;> cases he
    exact ⟨_, rfl, rfl, rfl⟩
  | characterName c | characterVisible c | characterLocation c =>
    cases he
    exact ⟨c, rfl, rfl, rfl⟩
  | _ => cases he

namespace World

theorem character?_of_find? {w : World} {id : String} {c : Character}
    (h : w.find? id = some (.character c)) : w.character? id = some c := by
  unfold find? at h
  cases hl : w.location? id <;> cases hi : w.item? id <;> cases hc : w.character? id <;>
    cases he : w.ending? id <;> cases hv : w.variableNamed? id <;> simp_all

/-- What a character may say, by the id of the character. -/
def onTalk? (w : World) (id : String) : Option (List DialogueEntry) :=
  (w.character? id).map (·.onTalk)

theorem Step.onTalk? {w w' : World} (h : w.Step w') (id : String) :
    w'.onTalk? id = w.onTalk? id := by
  cases h with
  | create v named fresh => rfl
  | @revise found e e' hfind hrev =>
    cases e' with
    | character c' =>
      obtain ⟨c, rfl, hid, htalk⟩ := hrev.onTalk
      have hold : w.character? c'.id = some c := by
        rw [hid, show c.id = found from id_of_find? hfind]
        exact character?_of_find? hfind
      simp only [World.onTalk?, character?, replace]
      by_cases heq : id = c'.id
      · subst heq
        simp only [character?] at hold
        rw [find?_overwrite_self (·.id) c' w.characters, hold]
        exact congrArg some htalk
      · rw [find?_overwrite_of_ne (·.id) heq w.characters]
    | _ => rfl

theorem Evolves.onTalk? {w w' : World} (h : w.Evolves w') (id : String) :
    w'.onTalk? id = w.onTalk? id :=
  h.keeps (P := fun w' => w'.onTalk? id = w.onTalk? id)
    (fun hstep h => (hstep.onTalk? id).trans h) rfl

end World

namespace Story

theorem isThreadOf_iff {w : World} {thread : String × String} :
    isThreadOf w thread = true ↔
      ∃ es, w.onTalk? thread.1 = some es ∧ ∃ e ∈ es, e.id = some thread.2 := by
  cases hc : w.character? thread.1 with
  | none => simp [isThreadOf, World.onTalk?, hc]
  | some c => simp [isThreadOf, World.onTalk?, hc, Character.entry?, List.find?_isSome]

theorem isThreadOf_congr {w w' : World} {thread : String × String}
    (h : w'.onTalk? thread.1 = w.onTalk? thread.1) :
    isThreadOf w' thread = isThreadOf w thread := by
  rw [Bool.eq_iff_iff, isThreadOf_iff, isThreadOf_iff, h]

/-! ## Steps of a stage -/

namespace Stage

/-- One stage turned into another by one change. It is said whose threads may change. -/
inductive Step (whose : String → Prop) (s : Stage) : Stage → Prop
  | call {w : World} (h : s.world.Evolves w) : Step whose s { s with world := w }
  | await {character entry : String} (mine : whose character)
      (h : isThreadOf s.world (character, entry) = true) :
      Step whose s { s with threads := s.threads.put character entry }
  | release {character : String} (mine : whose character) :
      Step whose s { s with threads := s.threads.erase character }

/-- One stage that changes turn into another. -/
def Evolves (whose : String → Prop) : Stage → Stage → Prop :=
  Relation.ReflTransGen (Step whose)

variable {whose : String → Prop}

theorem Evolves.refl (s : Stage) : s.Evolves whose s :=
  Relation.ReflTransGen.refl

theorem Evolves.trans {r s t : Stage} (h₁ : r.Evolves whose s) (h₂ : s.Evolves whose t) :
    r.Evolves whose t :=
  Relation.ReflTransGen.trans h₁ h₂

theorem Step.evolves {s s' : Stage} (h : s.Step whose s') : s.Evolves whose s' :=
  Relation.ReflTransGen.single h

/-- What every change keeps, changes keep one after the other. -/
theorem Evolves.keeps {P : Stage → Prop}
    (kept : ∀ {s s' : Stage}, s.Step whose s' → P s → P s') {s s' : Stage}
    (h : s.Evolves whose s') (hs : P s) : P s' := by
  induction h with
  | refl => exact hs
  | tail _ hstep ih => exact kept hstep ih

theorem Step.mono {others : String → Prop} (hmono : ∀ c, whose c → others c) {s s' : Stage}
    (h : s.Step whose s') : s.Step others s' := by
  cases h with
  | call h => exact .call h
  | await mine h => exact .await (hmono _ mine) h
  | release mine => exact .release (hmono _ mine)

theorem Evolves.mono {others : String → Prop} (hmono : ∀ c, whose c → others c) {s s' : Stage}
    (h : s.Evolves whose s') : s.Evolves others s' :=
  h.keeps (P := s.Evolves others) (fun hstep ih => ih.trans (hstep.mono hmono).evolves) (.refl s)

theorem Evolves.world {s s' : Stage} (h : s.Evolves whose s') : s.world.Evolves s'.world := by
  refine h.keeps (P := fun t => s.world.Evolves t.world) (fun hstep ih => ?_) (.refl _)
  cases hstep with
  | call h => exact ih.trans h
  | await | release => exact ih

theorem Step.thread {s s' : Stage} (h : s.Step whose s') {character : String}
    (hc : ¬whose character) : s'.threads.lookup character = s.threads.lookup character := by
  cases h with
  | call h => rfl
  | await mine h =>
    rw [Keyed.lookup_put, if_neg]
    rintro rfl
    exact hc mine
  | release mine =>
    rw [Entries.lookup_erase, if_neg]
    rintro rfl
    exact hc mine

/-- Nobody else's thread changes. -/
theorem Evolves.thread {s s' : Stage} (h : s.Evolves whose s') {character : String}
    (hc : ¬whose character) : s'.threads.lookup character = s.threads.lookup character :=
  h.keeps (P := fun t => t.threads.lookup character = s.threads.lookup character)
    (fun hstep ih => (hstep.thread hc).trans ih) rfl

/-- Every thread names an entry of a character. -/
def ThreadsNamed (s : Stage) : Prop :=
  ∀ thread ∈ s.threads, isThreadOf s.world thread = true

theorem Step.threadsNamed {s s' : Stage} (h : s.Step whose s') (hs : s.ThreadsNamed) :
    s'.ThreadsNamed := by
  cases h with
  | call h => exact fun t ht => (isThreadOf_congr (h.onTalk? t.1)).trans (hs t ht)
  | await mine h =>
    intro t ht
    rcases Keyed.mem_put ht with rfl | ht
    · exact h
    · exact hs t ht
  | release mine => exact fun t ht => hs t (Entries.mem_filter.mp ht).1

theorem Evolves.threadsNamed {s s' : Stage} (h : s.Evolves whose s')
    (hs : s.ThreadsNamed) : s'.ThreadsNamed :=
  h.keeps Step.threadsNamed hs

end Stage

end Story

end Storyworld
