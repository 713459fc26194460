import Storyworld.Proofs.Keyed
import Storyworld.Proofs.Story.Answer

/-! # Talking again

A character that waits at an entry repeats it when it is talked to. The entry was found by its guard
and is looked up by its id from then on, its assignments were carried out once and are not again, and
the links are those of the world after them. So once an entry is presented, presenting it again tells
the same and changes nothing (`present_again`), and where ids tell the entries apart that is what
talking comes to, as often as the player likes: `talk_again`.
-/

namespace Storyworld.Story.Dialogue

open Script

variable {m : Messages} {character entry : String} {c : Character} {e : DialogueEntry}
  {s s' : Stage} {out : List Output}

/-! ## Presenting an entry again -/

theorem settle_again (h : settle character e s = (.ok (), s')) :
    settle character e s' = (.ok (), s') := by
  have released (hrun : Turn.release character s = (.ok (), s')) :
      Turn.release character s' = (.ok (), s') := by
    cases hrun
    exact congrArg (fun threads => (Except.ok (), (⟨s.world, threads⟩ : Stage)))
      (Entries.erase_erase character s.threads)
  unfold settle at h ⊢
  cases hid : e.id.filter (· ≠ "") with
  | none =>
    rw [hid] at h
    exact released h
  | some id =>
    rw [hid] at h
    dsimp only at h ⊢
    by_cases hnone : e.responses.isEmpty = true
    · rw [if_pos hnone] at h ⊢
      exact released h
    · rw [if_neg hnone] at h ⊢
      cases h
      exact congrArg (fun threads => (Except.ok (), (⟨s.world, threads⟩ : Stage)))
        (Keyed.put_put character id s.threads)

/-- An entry that was presented tells the same again, and nothing changes. -/
theorem present_again {fresh : Bool} (h : present character e fresh s = (.ok out, s')) :
    present character e false s' = (.ok out, s') := by
  have settled : ∀ s₁, (do
      settle character e
      let offered ← tellOptions character e
      pure (speech e ++ offered) : Turn (List Output)) s₁ = (.ok out, s') →
      present character e false s' = (.ok out, s') := by
    intro s₁ h
    obtain ⟨⟨⟩, s₂, hsettle, h⟩ := run_bind_eq_ok h
    obtain ⟨offered, s₃, htell, hout⟩ := run_bind_eq_ok h
    obtain ⟨rfl, -⟩ := tellOptions_eq_ok htell
    cases hout
    rw [present_eq]
    change (settle character e >>= _) s' = _
    rw [run_bind, settle_again hsettle]
    change (tellOptions character e >>= _) s' = _
    rw [run_bind, htell]
    rfl
  rw [present_eq] at h
  cases fresh with
  | false => exact settled s h
  | true =>
    obtain ⟨⟨⟩, s₁, -, h⟩ := run_bind_eq_ok h
    exact settled s₁ h

/-! ## Entries by their ids -/

/-- Where ids tell entries apart, each is the first one with its id. -/
theorem find?_of_distinct {es : List DialogueEntry} (distinct : (es.filterMap (·.id)).Nodup)
    (he : e ∈ es) (hid : e.id = some entry) : es.find? (·.id == some entry) = some e := by
  induction es with
  | nil => cases he
  | cons first rest ih =>
    by_cases hfirst : first.id = some entry
    · rw [List.find?_cons_of_pos (by simp [hfirst])]
      rcases List.mem_cons.mp he with rfl | he
      · rfl
      · rw [List.filterMap_cons_some hfirst] at distinct
        exact absurd (List.mem_filterMap.mpr ⟨e, he, hid⟩) (List.nodup_cons.mp distinct).1
    · rw [List.find?_cons_of_neg (by simp [hfirst])]
      have hrest : e ∈ rest := (List.mem_cons.mp he).resolve_left (by rintro rfl; exact hfirst hid)
      exact ih (distinct.sublist ((List.sublist_cons_self _ _).filterMap _)) hrest

/-! ## Talking again -/

/-- A character that waits at an entry whose guard holds presents it again. -/
theorem talk_of_waits (found : s.world.character? character = some c)
    (waits : s.threads.lookup character = some entry) (hentry : c.entry? entry = some e)
    (opens : guardHolds s.world e.condition = .ok true) :
    talk m character s = present character e false s := by
  have hid : c.id = character := by simpa using List.find?_some found
  have hrepeats : repetition s.world (s.threads.lookup c.id) c = .ok (some e) := by
    rw [hid, waits, repetition, Option.bind_some, hentry]
    exact guarded_eq_some_iff.mpr ⟨opens, rfl⟩
  unfold talk
  rw [run_world_bind, found]
  change (repeatable? c >>= _) s = _
  rw [run_bind, repeatable?_run, hrepeats]
  rfl

/-- Talks to a character so many times. -/
def talks (m : Messages) (character : String) : Nat → Turn (List (List Output))
  | 0 => pure []
  | n + 1 => do
    let out ← talk m character
    let others ← talks m character n
    pure (out :: others)

/-- Where talking changes nothing, it goes on as it began. -/
theorem talks_of_stays (h : talk m character s = (.ok out, s)) (n : Nat) :
    talks m character n s = (.ok (List.replicate n out), s) := by
  induction n with
  | zero => rfl
  | succ n ih =>
    rw [talks, run_bind, h]
    change (talks m character n >>= _) s = _
    rw [run_bind, ih]
    rfl

/-- **Talking again repeats nothing but words.** If talking to a character whose entries are told
apart by their ids leaves it waiting at one of them, and the guard of this entry still holds, then
whoever goes on talking to it is told the same every time, what the entry says and the links that are
open, and nothing changes any more. -/
theorem talk_again (found : s.world.character? character = some c)
    (distinct : (c.onTalk.filterMap (·.id)).Nodup) (call : talk m character s = (.ok out, s'))
    (waits : s'.threads.lookup character = some entry) (he : e ∈ c.onTalk)
    (hid : e.id = some entry) (opens : guardHolds s'.world e.condition = .ok true) :
    out = speech e ++ offers s'.world character e ∧
      ∀ n, talks m character n s' = (.ok (List.replicate n out), s') := by
  obtain ⟨shown, hshown, fresh, s₁, hpresent⟩ := talk_presents found call waits
  obtain ⟨hsame, hout⟩ := present_waits hpresent waits
  have hentry : c.entry? entry = some e := find?_of_distinct distinct he hid
  obtain rfl : shown = e :=
    Option.some.inj ((find?_of_distinct distinct hshown hsame).symm.trans hentry)
  obtain ⟨c', found', htalks⟩ : ∃ c', s'.world.character? character = some c' ∧
      c'.onTalk = c.onTalk := by
    have hown := talk_onTalk? call
    rw [World.onTalk?, World.onTalk?, found, Option.map_some] at hown
    exact Option.map_eq_some_iff.mp hown
  have hentry' : c'.entry? entry = some shown := by
    rw [Character.entry?, htalks]
    exact hentry
  refine ⟨hout, talks_of_stays ?_⟩
  rw [talk_of_waits found' waits hentry' opens]
  exact present_again hpresent

/-- An entry that counts, one mark for each time, how often it was presented afresh. -/
def countedEntry : DialogueEntry :=
  ⟨some "riddle", none, some "Who are you?", some "calls = calls + \"!\"",
    [⟨"own", some "Venda", none, none, none⟩]⟩

/-- A keeper who says such an entry. -/
def callRoom : Document :=
  { keeperRoom with
    characters := [⟨playerId, "Venda", some "cell", none, [], [], .nil⟩,
      ⟨"keeper", "Keeper", some "cell", none, [], [countedEntry], .nil⟩]
    vars := [⟨"calls", .text "", .nil⟩] }

/-- Whether a variable holds a text. -/
def holdsText (w : World) (name text : String) : Bool :=
  (w.variableNamed? name).any fun v => match v.value with
    | .text held => held == text
    | _ => false

/-- The keeper is asked once, and goes on asking. -/
theorem talk_again_callRoom :
    ∃ out s', talk {} "keeper" ⟨callRoom.world, .nil⟩ = (.ok out, s') ∧
      holdsText s'.world "calls" "!" = true ∧ talks {} "keeper" 3 s' = (.ok [out, out, out], s') := by
  have answered : (talk {} "keeper" ⟨callRoom.world, .nil⟩).1.isOk = true := by decide +kernel
  have counted : holdsText (talk {} "keeper" ⟨callRoom.world, .nil⟩).2.world "calls" "!" = true := by
    decide +kernel
  have waits : (talk {} "keeper" ⟨callRoom.world, .nil⟩).2.threads.lookup "keeper" =
      some "riddle" := by decide +kernel
  obtain ⟨⟨result, s'⟩, call⟩ : ∃ run, talk {} "keeper" ⟨callRoom.world, .nil⟩ = run := ⟨_, rfl⟩
  rw [call] at answered counted waits
  cases result with
  | error fault => cases answered
  | ok out =>
    have again := (talk_again (e := countedEntry) rfl (by decide) call waits List.mem_cons_self
      rfl rfl).2
    exact ⟨out, s', call, counted, again 3⟩

end Storyworld.Story.Dialogue
