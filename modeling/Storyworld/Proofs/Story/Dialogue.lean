import Storyworld.Proofs.Script.Assignment
import Storyworld.Story.Dialogue

/-! # Dialogues step by step

The functions of a dialogue in smaller steps. What is looked up for a turn (`repetition`, `pick`)
depends on the world and on the entry at which the character waits, and changes nothing; presenting
an entry first makes the character wait or releases it (`settle`) and then offers the answers
(`tellOptions`).
-/

namespace Storyworld.Story.Dialogue

open Script

/-! ## The parts of a turn -/

theorem run_world_bind {α : Type} (f : World → Turn α) (s : Stage) :
    (Turn.world >>= f) s = f s.world s :=
  rfl

theorem run_waiting?_bind {α : Type} (character : String) (f : Option String → Turn α)
    (s : Stage) : (Turn.waiting? character >>= f) s = f (s.threads.lookup character) s :=
  rfl

theorem run_ofScript {α : Type} (e : Except ScriptError α) (s : Stage) :
    Turn.ofScript e s = (e.mapError .script, s) :=
  rfl

theorem run_ofScript_eq_ok {α : Type} {e : Except ScriptError α} {a : α} {s s' : Stage}
    (h : Turn.ofScript e s = (.ok a, s')) : e = .ok a ∧ s' = s := by
  rw [run_ofScript] at h
  cases e <;> cases h
  exact ⟨rfl, rfl⟩

theorem entry?_mem {c : Character} {id : String} {e : DialogueEntry} (h : c.entry? id = some e) :
    e ∈ c.onTalk :=
  List.mem_of_find?_eq_some h

theorem firstOpen?_mem {w : World} {es : List DialogueEntry} {e : DialogueEntry}
    (h : firstOpen? w es = .ok (some e)) : e ∈ es := by
  induction es with
  | nil => cases h
  | cons first rest ih =>
    simp only [firstOpen?] at h
    cases hg : guardHolds w first.condition with
    | error fault => rw [hg] at h; cases h
    | ok holds =>
      rw [hg] at h
      cases holds
      · exact List.mem_cons_of_mem _ (ih h)
      · cases h
        exact List.mem_cons_self

/-! ## What a turn looks up -/

/-- Something, if a guard holds. -/
def guarded {α : Type} (w : World) (guard : Option String) (a : α) :
    Except ScriptError (Option α) :=
  (guardHolds w guard).map fun holds => if holds then some a else none

theorem guarded_eq_some_iff {α : Type} {w : World} {guard : Option String} {a b : α} :
    guarded w guard a = .ok (some b) ↔ guardHolds w guard = .ok true ∧ a = b := by
  unfold guarded
  cases guardHolds w guard with
  | error fault => simp [Except.map]
  | ok holds => cases holds <;> simp [Except.map]

theorem guarded_eq_error_iff {α : Type} {w : World} {guard : Option String} {a : α}
    {e : ScriptError} : guarded w guard a = .error e ↔ guardHolds w guard = .error e := by
  unfold guarded
  cases guardHolds w guard <;> simp [Except.map]

theorem run_guarded {α : Type} (w : World) (guard : Option String) (a : α) (s : Stage) :
    (do
      if ← Turn.ofScript (guardHolds w guard) then pure (some a) else pure none) s =
      Turn.ofScript (guarded w guard a) s := by
  rw [run_bind, run_ofScript, guarded]
  cases guardHolds w guard with
  | error fault => rfl
  | ok holds => cases holds <;> rfl

/-- The entry that a character repeats in a world, given the entry at which it waits. -/
def repetition (w : World) (waiting : Option String) (c : Character) :
    Except ScriptError (Option DialogueEntry) :=
  match waiting.bind c.entry? with
  | none => .ok none
  | some e => guarded w e.condition e

theorem repeatable?_run (c : Character) (s : Stage) :
    repeatable? c s = Turn.ofScript (repetition s.world (s.threads.lookup c.id) c) s := by
  unfold repeatable? repetition
  rw [run_waiting?_bind]
  cases (s.threads.lookup c.id).bind c.entry? with
  | none => rfl
  | some e =>
    dsimp only
    rw [run_world_bind]
    exact run_guarded _ _ _ s

theorem repetition_mem {w : World} {waiting : Option String} {c : Character} {e : DialogueEntry}
    (h : repetition w waiting c = .ok (some e)) : e ∈ c.onTalk := by
  unfold repetition at h
  split at h
  · cases h
  · rename_i found hfound
    obtain ⟨-, rfl⟩ := guarded_eq_some_iff.mp h
    obtain ⟨id, -, hid⟩ := Option.bind_eq_some_iff.mp hfound
    exact entry?_mem hid

theorem repeatable?_mem {c : Character} {e : DialogueEntry} {s s' : Stage}
    (h : repeatable? c s = (.ok (some e), s')) : e ∈ c.onTalk := by
  rw [repeatable?_run] at h
  exact repetition_mem (run_ofScript_eq_ok h).1

/-- The response that a choice names: the first one with its id, in the first entry with the id at
which the character waits. -/
def named? (c : Character) (entry response : String) : Option Response :=
  (c.entry? entry).bind fun e => e.responses.find? (·.id == response)

/-- What a choice picks in a world, given the entry at which its character waits. -/
def pick (w : World) (waiting : Option String) (c : Choice) :
    Except ScriptError (Option (Character × Response)) :=
  match waiting, w.character? c.character with
  | some waiting, some character =>
    if c.entry.any (· ≠ waiting) then .ok none
    else
      match named? character waiting c.response with
      | none => .ok none
      | some r => guarded w r.condition (character, r)
  | _, _ => .ok none

theorem picked?_run (c : Choice) (s : Stage) :
    picked? c s = Turn.ofScript (pick s.world (s.threads.lookup c.character) c) s := by
  unfold picked? pick
  rw [run_waiting?_bind, run_world_bind]
  cases s.threads.lookup c.character with
  | none => rfl
  | some waiting =>
    cases s.world.character? c.character with
    | none => rfl
    | some character =>
      dsimp only [named?]
      split
      · rfl
      · cases (character.entry? waiting).bind fun e => e.responses.find? (·.id == c.response) with
        | none => rfl
        | some r =>
          dsimp only
          rw [run_world_bind]
          exact run_guarded _ _ _ s

/-- A choice of which something may come names a response of a character that is there, and then it
depends on the guard of that response. -/
theorem pick_cases {w : World} {waiting : Option String} {c : Choice} :
    pick w waiting c = .ok none ∨
      ∃ character entry r, w.character? c.character = some character ∧ waiting = some entry ∧
        named? character entry c.response = some r ∧
        pick w waiting c = guarded w r.condition (character, r) := by
  cases waiting with
  | none => exact .inl rfl
  | some entry =>
    cases hfound : w.character? c.character with
    | none => exact .inl (by simp only [pick, hfound])
    | some character =>
      simp only [pick, hfound]
      split
      · exact .inl rfl
      · cases hnamed : named? character entry c.response with
        | none => exact .inl rfl
        | some r => exact .inr ⟨character, entry, r, rfl, rfl, hnamed, rfl⟩

theorem pick_eq_ok {w : World} {waiting : Option String} {c : Choice} {character : Character}
    {r : Response} (h : pick w waiting c = .ok (some (character, r))) :
    w.character? c.character = some character ∧
      (∃ entry, waiting = some entry ∧ named? character entry c.response = some r) ∧
      guardHolds w r.condition = .ok true := by
  obtain hnone | ⟨_, entry, _, hfound, hwaits, hnamed, hpick⟩ := pick_cases (w := w) (c := c)
  · rw [hnone] at h
    cases h
  · obtain ⟨hguard, hsame⟩ := guarded_eq_some_iff.mp (hpick ▸ h)
    cases hsame
    exact ⟨hfound, ⟨entry, hwaits, hnamed⟩, hguard⟩

theorem picked?_character? {c : Choice} {character : Character} {r : Response} {s s' : Stage}
    (h : picked? c s = (.ok (some (character, r)), s')) :
    s.world.character? c.character = some character := by
  rw [picked?_run] at h
  exact (pick_eq_ok (run_ofScript_eq_ok h).1).1

/-! ## Presenting and answering -/

/-- Makes a character wait at an entry that has an id and responses, and releases it otherwise. -/
def settle (character : String) (e : DialogueEntry) : Turn Unit :=
  match e.id.filter (· ≠ "") with
  | some id => if e.responses.isEmpty then Turn.release character else Turn.await character id
  | none => Turn.release character

/-- Tells the links of an entry as they are now. -/
def tellOptions (character : String) (e : DialogueEntry) : Turn (List Output) := do
  let links ← Turn.ofScript (optionLinks (← Turn.world) character e e.responses)
  pure (if links.isEmpty then [] else [.append (bulletList links)])

/-- What a character says at an entry. -/
def speech (e : DialogueEntry) : List Output :=
  (e.speech.filter (· ≠ "")).toList.map Output.append

theorem present_eq (character : String) (e : DialogueEntry) (fresh : Bool) :
    present character e fresh = (do
      if fresh then Turn.ofChange (perform e.assignments)
      settle character e
      let offered ← tellOptions character e
      pure (speech e ++ offered)) := by
  unfold present settle tellOptions speech
  cases fresh <;> cases e.id.filter (· ≠ "") <;> simp
  all_goals split <;> simp

/-- What comes of a response that was picked: it is told, its assignments are carried out, and the
dialogue goes on with what it names next. -/
def answer (m : Messages) (c : Character) (r : Response) : Turn (List Output) := do
  let said := r.text.toList.map fun text => Output.append (paragraph (escape text))
  Turn.ofChange (perform r.assignments)
  let after ← follow m c r.next
  pure (said ++ after)

theorem choose_eq (m : Messages) (c : Choice) :
    choose m c = (do
      match ← picked? c with
      | none => pure [.message m.notAvailable]
      | some (character, r) => answer m character r) :=
  rfl

end Storyworld.Story.Dialogue
