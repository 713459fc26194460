import Storyworld.Proofs.Story.Threads

/-! # Answers on offer

A character that waits for an answer offers a link for each response of its entry whose guard holds
(`offers`). The entry was found by its guard, but an answer is looked up by ids: the first response
with its id, in the first entry with the id of the thread (`named?`). So a link picks the response
that it was drawn from if ids lead back to it, and no other way: `picks_offered_iff`.
-/

namespace Storyworld.Story.Dialogue

open Script

/-! ## What an entry offers -/

/-- Whether the guard of a response holds. -/
def isOpen (w : World) (r : Response) : Bool :=
  match guardHolds w r.condition with
  | .ok holds => holds
  | .error _ => false

theorem isOpen_iff {w : World} {r : Response} :
    isOpen w r = true ↔ guardHolds w r.condition = .ok true := by
  unfold isOpen
  cases guardHolds w r.condition <;> simp

/-- The links of an entry, if any of its responses is open. -/
def offers (w : World) (character : String) (e : DialogueEntry) : List Output :=
  let links := (e.responses.filter (isOpen w)).map (optionLink character e)
  if links.isEmpty then [] else [.append (bulletList links)]

theorem optionLinks_eq_ok {w : World} {character : String} {e : DialogueEntry}
    {rs : List Response} {links : List String} (h : optionLinks w character e rs = .ok links) :
    links = (rs.filter (isOpen w)).map (optionLink character e) := by
  induction rs generalizing links with
  | nil => exact (Except.ok.inj h).symm
  | cons r rest ih =>
    simp only [optionLinks] at h
    cases hg : guardHolds w r.condition with
    | error fault => rw [hg] at h; cases h
    | ok holds =>
      rw [hg] at h
      cases hrest : optionLinks w character e rest with
      | error fault => rw [hrest] at h; cases h
      | ok others =>
        rw [hrest] at h
        cases h
        have hopen : isOpen w r = holds := by simp [isOpen, hg]
        cases holds <;> simp [hopen, ih hrest]

/-! ## Waiting at an entry -/

/-- A character that waits after an entry was presented waits at that entry. -/
theorem settle_waits {character entry : String} {e : DialogueEntry} {s s' : Stage}
    (h : settle character e s = (.ok (), s')) (waits : s'.threads.lookup character = some entry) :
    e.id = some entry := by
  have released : Turn.release character s = (.ok (), s') → e.id = some entry := by
    rintro ⟨⟩
    rw [Entries.lookup_erase_self] at waits
    cases waits
  unfold settle at h
  cases hid : e.id.filter (· ≠ "") with
  | none =>
    rw [hid] at h
    exact released h
  | some id =>
    rw [hid] at h
    by_cases hnone : e.responses.isEmpty = true
    · exact released (by simpa [hnone] using h)
    · simp only [hnone] at h
      cases h
      rw [Keyed.lookup_put, if_pos rfl] at waits
      rw [← waits]
      exact (Option.filter_eq_some_iff.mp hid).1

theorem tellOptions_eq_ok {character : String} {e : DialogueEntry} {s s' : Stage}
    {out : List Output} (h : tellOptions character e s = (.ok out, s')) :
    s' = s ∧ out = offers s.world character e := by
  unfold tellOptions at h
  rw [run_world_bind] at h
  obtain ⟨links, s₁, hlinks, hout⟩ := run_bind_eq_ok h
  obtain ⟨hlinks, rfl⟩ := run_ofScript_eq_ok hlinks
  cases hout
  exact ⟨rfl, by rw [offers, optionLinks_eq_ok hlinks]⟩

theorem present_waits {character entry : String} {e : DialogueEntry} {fresh : Bool}
    {s s' : Stage} {out : List Output} (h : present character e fresh s = (.ok out, s'))
    (waits : s'.threads.lookup character = some entry) :
    e.id = some entry ∧ out = speech e ++ offers s'.world character e := by
  rw [present_eq] at h
  have settled : ∀ s₁, (do
      settle character e
      let offered ← tellOptions character e
      pure (speech e ++ offered) : Turn (List Output)) s₁ = (.ok out, s') →
      e.id = some entry ∧ out = speech e ++ offers s'.world character e := by
    intro s₁ h
    obtain ⟨⟨⟩, s₂, hsettle, h⟩ := run_bind_eq_ok h
    obtain ⟨offered, s₃, htell, hout⟩ := run_bind_eq_ok h
    obtain ⟨rfl, rfl⟩ := tellOptions_eq_ok htell
    cases hout
    exact ⟨settle_waits hsettle waits, rfl⟩
  cases fresh with
  | false => exact settled s h
  | true =>
    obtain ⟨⟨⟩, s₁, -, h⟩ := run_bind_eq_ok h
    exact settled s₁ h

/-! ## Presentations -/

/-- A call has presented an entry of a character, after it told what the player said. -/
structure Presented (character : String) (out : List Output) (s' : Stage) (e : DialogueEntry) :
    Prop where
  run : ∃ fresh s₁ said shown, present character e fresh s₁ = (.ok shown, s') ∧
    out = said ++ shown ∧ ∀ o ∈ said, ∃ text, o = .append (paragraph (escape text))
  own : ∃ es, s'.world.onTalk? character = some es ∧ e ∈ es

/-- What the character has to say does not change while it talks. -/
theorem talk_onTalk? {m : Messages} {character : String} {s s' : Stage}
    {result : Except StoryError (List Output)} (h : talk m character s = (result, s')) :
    s'.world.onTalk? character = s.world.onTalk? character := by
  have hlawful : (talk m character).Lawful (fun _ => True) s := talk_lawful m trivial s
  have hsame := hlawful.evolves.world.onTalk? character
  rwa [h] at hsame

/-- A character that is left waiting was presented with one of its entries, fresh or again. -/
theorem talk_presents {m : Messages} {character entry : String} {c : Character} {s s' : Stage}
    {out : List Output} (found : s.world.character? character = some c)
    (h : talk m character s = (.ok out, s')) (waits : s'.threads.lookup character = some entry) :
    ∃ e ∈ c.onTalk, ∃ fresh s₁, present character e fresh s₁ = (.ok out, s') := by
  unfold talk at h
  rw [run_world_bind, found] at h
  obtain ⟨repeated, s₁, hrepeat, h⟩ := run_bind_eq_ok h
  cases repeated with
  | some e => exact ⟨e, repeatable?_mem hrepeat, false, s₁, h⟩
  | none =>
    obtain ⟨⟨⟩, s₂, hrelease, h⟩ := run_bind_eq_ok h
    rw [run_world_bind] at h
    obtain ⟨opened, s₃, hopened, h⟩ := run_bind_eq_ok h
    obtain ⟨hopened, rfl⟩ := run_ofScript_eq_ok hopened
    cases opened with
    | some e => exact ⟨e, firstOpen?_mem hopened, true, _, h⟩
    | none =>
      cases h
      cases hrelease
      rw [Entries.lookup_erase_self] at waits
      cases waits

theorem talk_waits {m : Messages} {character entry : String} {s s' : Stage} {out : List Output}
    (h : talk m character s = (.ok out, s')) (waits : s'.threads.lookup character = some entry) :
    out = [.message m.notAvailable] ∧ s' = s ∨ ∃ e, Presented character out s' e := by
  cases found : s.world.character? character with
  | none =>
    unfold talk at h
    rw [run_world_bind, found] at h
    cases h
    exact .inl ⟨rfl, rfl⟩
  | some c =>
    obtain ⟨e, he, fresh, s₁, hpresent⟩ := talk_presents found h waits
    have own : s'.world.onTalk? character = some c.onTalk := by
      rw [talk_onTalk? h, World.onTalk?, found, Option.map_some]
    exact .inr ⟨e, ⟨fresh, s₁, [], out, hpresent, rfl, fun o ho => absurd ho List.not_mem_nil⟩,
      c.onTalk, own, he⟩

theorem choose_of_picked? {m : Messages} {c : Choice} {character : Character} {r : Response}
    {s s' : Stage} (h : picked? c s = (.ok (some (character, r)), s')) :
    choose m c s = answer m character r s' := by
  rw [choose_eq, run_bind, h]

/-- At the entry where its character waits, a choice picks the response that it names, if that is
open. -/
theorem pick_eq_ok_iff {w : World} {character entry response : String} {c : Character}
    {r : Response} (found : w.character? character = some c) :
    pick w (some entry) ⟨character, some entry, response⟩ = .ok (some (c, r)) ↔
      named? c entry response = some r ∧ isOpen w r = true := by
  constructor
  · intro h
    obtain ⟨-, ⟨_, ⟨⟩, hnamed⟩, hguard⟩ := pick_eq_ok h
    exact ⟨hnamed, isOpen_iff.mpr hguard⟩
  · rintro ⟨hnamed, hopen⟩
    simp [pick, found, hnamed, guarded_eq_some_iff, isOpen_iff.mp hopen]

theorem picked?_eq_ok_iff {character entry response : String} {c : Character} {r : Response}
    {s : Stage} (waits : s.threads.lookup character = some entry)
    (found : s.world.character? character = some c) :
    picked? ⟨character, some entry, response⟩ s = (.ok (some (c, r)), s) ↔
      named? c entry response = some r ∧ isOpen s.world r = true := by
  rw [← pick_eq_ok_iff found, picked?_run, waits]
  exact ⟨fun h => (run_ofScript_eq_ok h).1, fun h => by rw [h]; rfl⟩

theorem follow_waits {m : Messages} {c : Character} {next : Option String} {entry : String}
    {s s' : Stage} {out : List Output} (h : follow m c next s = (.ok out, s'))
    (waits : s'.threads.lookup c.id = some entry) :
    ∃ e ∈ c.onTalk, present c.id e true s = (.ok out, s') := by
  have released : ∀ {t : Turn (List Output)} {told}, t = (do Turn.release c.id; pure told) →
     t s = (.ok out, s') → False := by
    rintro t told rfl ⟨⟩
    rw [Entries.lookup_erase_self] at waits
    cases waits
  unfold follow at h
  cases next with
  | none => exact (released rfl h).elim
  | some id =>
    cases hentry : c.entry? id with
    | none =>
      simp only [hentry] at h
      exact (released rfl h).elim
    | some e =>
      simp only [hentry] at h
      exact ⟨e, entry?_mem hentry, h⟩

theorem choose_waits {m : Messages} {c : Choice} {entry : String} {s s' : Stage}
    {out : List Output} (h : choose m c s = (.ok out, s'))
    (waits : s'.threads.lookup c.character = some entry) :
    out = [.message m.notAvailable] ∧ s' = s ∨ ∃ e, Presented c.character out s' e := by
  have htalks : s'.world.onTalk? c.character = s.world.onTalk? c.character := by
    have hlawful : (choose m c).Lawful (fun _ => True) s := choose_lawful m trivial s
    have hsame := hlawful.evolves.world.onTalk? c.character
    rwa [h] at hsame
  rw [choose_eq] at h
  obtain ⟨picked, s₁, hpick, hrest⟩ := run_bind_eq_ok h
  cases picked with
  | none =>
    rw [picked?_run] at hpick
    have hsame := (run_ofScript_eq_ok hpick).2
    cases hrest
    exact .inl ⟨rfl, hsame⟩
  | some found =>
    right
    obtain ⟨character, r⟩ := found
    have hfound := picked?_character? hpick
    have hid : character.id = c.character := by simpa using List.find?_some hfound
    obtain ⟨⟨⟩, s₂, -, hrest⟩ := run_bind_eq_ok hrest
    obtain ⟨shown, s₃, hfollow, hout⟩ := run_bind_eq_ok hrest
    cases hout
    obtain ⟨e, he, hpresent⟩ := follow_waits hfollow (hid ▸ waits)
    rw [hid] at hpresent
    refine ⟨e, ⟨true, s₂, _, shown, hpresent, rfl, ?_⟩, character.onTalk, ?_, he⟩
    · intro o ho
      obtain ⟨text, -, rfl⟩ := List.mem_map.mp ho
      exact ⟨text, rfl⟩
    · rw [htalks, World.onTalk?, hfound, Option.map_some]

/-! ## Picking what is offered -/

/-- **What a link on offer picks.** After a call that leaves its character waiting, either the call was
refused and nothing has changed, or what was told ends with the links of an entry of the character,
one for each response that is open, and no link stands before them. A link picks its response if and
only if the ids in it lead back to that response. Then the response is told, its assignments are
carried out and its next entry is followed. -/
theorem picks_offered_iff {m : Messages} {character entry : String} {s s' : Stage}
    {out : List Output}
    (call : talk m character s = (.ok out, s') ∨
      ∃ c : Choice, c.character = character ∧ choose m c s = (.ok out, s'))
    (waits : s'.threads.lookup character = some entry) :
    out = [.message m.notAvailable] ∧ s' = s ∨
    ∃ c e before, s'.world.character? character = some c ∧ e ∈ c.onTalk ∧ e.id = some entry ∧
      out = before ++ offers s'.world character e ∧
      (∀ o ∈ before, (∃ text, o = .append (paragraph (escape text))) ∨
        ∃ text, e.speech = some text ∧ o = .append text) ∧
      ∀ r ∈ e.responses, isOpen s'.world r = true →
        (picked? ⟨character, some entry, r.id⟩ s' = (.ok (some (c, r)), s') ↔
          named? c entry r.id = some r) ∧
        (named? c entry r.id = some r →
          choose m ⟨character, some entry, r.id⟩ s' = answer m c r s') := by
  have hcases : out = [.message m.notAvailable] ∧ s' = s ∨ ∃ e, Presented character out s' e := by
    rcases call with h | ⟨c, rfl, h⟩
    · exact talk_waits h waits
    · exact choose_waits h waits
  refine hcases.imp_right ?_
  rintro ⟨e, ⟨fresh, s₁, said, shown, hpresent, rfl, hsaid⟩, es, hes, he⟩
  obtain ⟨hid, rfl⟩ := present_waits hpresent waits
  obtain ⟨c, hc, rfl⟩ := Option.map_eq_some_iff.mp hes
  refine ⟨c, e, said ++ speech e, hc, he, hid, (List.append_assoc _ _ _).symm, ?_, ?_⟩
  · intro o ho
    rcases List.mem_append.mp ho with ho | ho
    · exact .inl (hsaid o ho)
    · obtain ⟨text, htext, rfl⟩ := List.mem_map.mp ho
      have hspeech := Option.filter_eq_some_iff.mp (Option.mem_toList.mp htext)
      exact .inr ⟨text, hspeech.1, rfl⟩
  · intro r hr hopen
    have hiff : picked? ⟨character, some entry, r.id⟩ s' = (.ok (some (c, r)), s') ↔
        named? c entry r.id = some r := by
      rw [picked?_eq_ok_iff waits hc, and_iff_left hopen]
    exact ⟨hiff, fun hnamed => choose_of_picked? (hiff.mpr hnamed)⟩

theorem picks_offered_iff_keeperRoom :
    let s' := (talk {} "keeper" ⟨keeperRoom.world, .nil⟩).2
    s'.threads.lookup "keeper" = some "riddle" ∧
      ∃ c r, r ∈ c.onTalk.flatMap (·.responses) ∧ r.text = some "Venda" ∧
        choose {} ⟨"keeper", some "riddle", "own"⟩ s' = answer {} c r s' := by
  have called : talk {} "keeper" ⟨keeperRoom.world, .nil⟩ =
      ((talk {} "keeper" ⟨keeperRoom.world, .nil⟩).1, (talk {} "keeper" ⟨keeperRoom.world, .nil⟩).2) :=
    rfl
  have waits : (talk {} "keeper" ⟨keeperRoom.world, .nil⟩).2.threads.lookup "keeper" =
      some "riddle" := rfl
  refine ⟨waits, ?_⟩
  rcases picks_offered_iff (.inl called) waits with ⟨htold, -⟩ | ⟨c, e, -, hc, he, -, -, -, hlinks⟩
  · exact absurd (congrArg List.length htold) (by decide)
  · cases hc
    obtain rfl := List.mem_singleton.mp he
    have hanswer := (hlinks _ List.mem_cons_self rfl).2 rfl
    exact ⟨_, _, List.mem_cons_self, rfl, hanswer⟩

/-- A dialogue in which two entries share an id. The first is closed, so the second is presented. -/
def riddleRoom : Document :=
  { keeperRoom with
    characters := [⟨playerId, "Venda", some "cell", none, [], [], .nil⟩,
      ⟨"keeper", "Keeper", some "cell", none, [],
        [⟨some "riddle", some "solved", some "You again.", none,
            [⟨"leave", some "Farewell", none, none, none⟩]⟩,
          ⟨some "riddle", none, some "Who are you?", none,
            [⟨"own", some "Venda", none, none, none⟩]⟩],
        .nil⟩]
    vars := [⟨"solved", .bool false, .nil⟩] }

/-- The answer on offer is refused: its id is looked up in the entry that is closed. -/
theorem not_picked_riddleRoom :
    World.load riddleRoom = .ok riddleRoom.world ∧
      let s' := (talk {} "keeper" ⟨riddleRoom.world, .nil⟩).2
      (talk {} "keeper" ⟨riddleRoom.world, .nil⟩).1 = .ok [.append "Who are you?",
        .append (bulletList [actionLink Verb.choose.word (linkParam "keeper" "riddle" "own")
          "Venda"])] ∧
      s'.threads.lookup "keeper" = some "riddle" ∧
      choose {} ⟨"keeper", some "riddle", "own"⟩ s' =
        (.ok [.message "That option is not available."], s') := by
  refine ⟨rfl, ?_, ?_, ?_⟩
  · rfl
  · rfl
  · rfl

end Storyworld.Story.Dialogue
