import Storyworld.Proofs.Story.Batch
import Storyworld.Proofs.Story.Failure

/-! # Choices

A choice is looked up in full before anything is changed: whether it can be read, whether its
character is with the player and waits for an answer, and which response it names (`Names`). `Refused`
lists why nothing comes of one. A choice that is refused, or whose guard fails, leaves everything as
it was: `Session.refused_leaves`. All others are carried out, and here whether their character can be
seen is not asked: `Session.met_of_changed` says whom a dialogue is with.
-/

namespace Storyworld.Story

open Script Dialogue

/-- The choice that a parameter makes, unless it cannot be read. -/
def Param.choice? : Param → Option Choice
  | .choice c => some c
  | .text s => Choice.ofText? s

variable {s : Stage} {here : Location} {p : Param} {c : Choice} {entry : String}
  {person : Character} {r : Response}

/-! ## What a choice names -/

/-- A choice names a response of a character that is with the player and waits at an entry: the first
response with its id, in the first entry with the id of the thread. -/
structure Names (s : Stage) (here : Location) (c : Choice) (entry : String) (person : Character)
    (r : Response) : Prop where
  found : s.world.character? c.character = some person
  near : person.location = some here.id
  waits : s.threads.lookup c.character = some entry
  agrees : c.entry = none ∨ c.entry = some entry
  named : named? person entry c.response = some r

theorem Names.id (h : Names s here c entry person r) : person.id = c.character := by
  simpa using List.find?_some h.found

/-- Why nothing comes of a choice. -/
inductive Refused (s : Stage) (here : Location) (p : Param) : Prop
  | unreadable (h : p.choice? = none)
  | missing {c : Choice} (read : p.choice? = some c) (h : s.world.character? c.character = none)
  | away {c : Choice} {person : Character} (read : p.choice? = some c)
      (found : s.world.character? c.character = some person) (h : person.location ≠ some here.id)
  | idle {c : Choice} (read : p.choice? = some c) (h : s.threads.lookup c.character = none)
  | otherEntry {c : Choice} {entry other : String} (read : p.choice? = some c)
      (waits : s.threads.lookup c.character = some entry) (names : c.entry = some other)
      (h : other ≠ entry)
  | unknown {c : Choice} {entry : String} {person : Character} (read : p.choice? = some c)
      (waits : s.threads.lookup c.character = some entry)
      (found : s.world.character? c.character = some person)
      (h : named? person entry c.response = none)
  | closed {c : Choice} {entry : String} {person : Character} {r : Response}
      (read : p.choice? = some c) (waits : s.threads.lookup c.character = some entry)
      (found : s.world.character? c.character = some person)
      (named : named? person entry c.response = some r)
      (h : guardHolds s.world r.condition = .ok false)

/-- The response that a parameter picks for a player at a location, if it can be picked. -/
def chosen (s : Stage) (here : Location) (p : Param) :
    Except ScriptError (Option (Character × Response)) :=
  match p.choice? with
  | none => .ok none
  | some c =>
    if (s.world.character? c.character).any (·.location == some here.id) then
      pick s.world (s.threads.lookup c.character) c
    else .ok none

theorem chosen_of_names (read : p.choice? = some c) (h : Names s here c entry person r) :
    chosen s here p = guarded s.world r.condition (person, r) := by
  obtain ⟨found, near, waits, agrees, named⟩ := h
  rcases agrees with hentry | hentry <;>
    simp [chosen, pick, read, found, near, waits, hentry, named]

theorem chosen_of_refused (h : Refused s here p) : chosen s here p = .ok none := by
  cases h with
  | unreadable h => simp [chosen, h]
  | missing read h => simp [chosen, read, h]
  | away read found h => simp [chosen, read, found, h]
  | idle read h => simp [chosen, pick, read, h]
  | @otherEntry c entry other read waits names h =>
    cases found : s.world.character? c.character <;>
      simp [chosen, pick, read, found, waits, names, h]
  | unknown read waits found h => simp [chosen, pick, read, found, waits, h]
  | closed read waits found named h =>
    simp [chosen, pick, read, found, waits, named, guarded, h, Except.map]

/-- A choice is refused, or names a response. -/
theorem refused_or_names (s : Stage) (here : Location) (p : Param) :
    Refused s here p ∨
      ∃ c entry person r, p.choice? = some c ∧ Names s here c entry person r := by
  cases read : p.choice? with
  | none => exact .inl (.unreadable read)
  | some c =>
    cases found : s.world.character? c.character with
    | none => exact .inl (.missing read found)
    | some person =>
      by_cases near : person.location = some here.id
      · cases waits : s.threads.lookup c.character with
        | none => exact .inl (.idle read waits)
        | some entry =>
          cases named : named? person entry c.response with
          | none => exact .inl (.unknown read waits found named)
          | some r =>
            cases hentry : c.entry with
            | none => exact .inr ⟨c, entry, person, r, rfl, found, near, waits, .inl hentry, named⟩
            | some other =>
              by_cases hother : other = entry
              · exact .inr ⟨c, entry, person, r, rfl, found, near, waits,
                  .inr (hother ▸ hentry), named⟩
              · exact .inl (.otherEntry read waits hentry hother)
      · exact .inl (.away read found near)

/-- A choice is refused, or names a response whose guard is not closed: it holds, or it fails. -/
theorem refused_or_unclosed (s : Stage) (here : Location) (p : Param) :
    Refused s here p ∨ ∃ c entry person r, p.choice? = some c ∧
      Names s here c entry person r ∧ guardHolds s.world r.condition ≠ .ok false := by
  rcases refused_or_names s here p with refused | ⟨c, entry, person, r, read, names⟩
  · exact .inl refused
  · by_cases closed : guardHolds s.world r.condition = .ok false
    · exact .inl (.closed read names.waits names.found names.named closed)
    · exact .inr ⟨c, entry, person, r, read, names, closed⟩

namespace Dialogue

theorem choose_run (m : Messages) (c : Choice) (s : Stage) :
    choose m c s = match pick s.world (s.threads.lookup c.character) c with
      | .error cause => (.error (.script cause), s)
      | .ok none => (.ok [.message m.notAvailable], s)
      | .ok (some (person, r)) => answer m person r s := by
  rw [choose_eq, run_bind, picked?_run, run_ofScript]
  cases pick s.world (s.threads.lookup c.character) c with
  | error cause => rfl
  | ok picked => cases picked <;> rfl

end Dialogue

namespace Turn

variable {m : Messages}

/-- A choice is looked up first, and only then carried out. -/
theorem choose_run (h : s.world.playerLocation? = some here) (p : Param) :
    choose m p s = match chosen s here p with
      | .error cause => (.error (.script cause), s)
      | .ok none => (.ok [.message m.notAvailable], s)
      | .ok (some (person, r)) => answer m person r s := by
  have hread : choose m p = (match p.choice? with
      | none => pure [.message m.notAvailable]
      | some c => (do
        let here ← Turn.here
        let w ← world
        if (w.character? c.character).any (·.location == some here.id) then Dialogue.choose m c
        else pure [.message m.notAvailable]) : Turn (List Output)) := by
    cases p <;> rfl
  rw [hread, chosen]
  cases p.choice? with
  | none => rfl
  | some c =>
    dsimp only
    rw [here_world_run h]
    split
    · exact Dialogue.choose_run m c s
    · rfl

end Turn

/-! ## Choices in a session -/

namespace Session

variable {s₀ s : Session} {here : Location}

theorem finish_pure (goes : s.isEnded = false) (told : List Output) :
    s.finish (pure told) = ((affordances s.config s.stage.world).map (told ++ ·), s) := by
  have goes : Story.isEnded s.config s.stage.world = false := goes
  have hclosing : closing s.config s.stage.world = affordances s.config s.stage.world := by
    simp [closing, goes]
  have htold : (pure told : Turn (List Output)) s.stage = (.ok told, s.stage) := rfl
  simp only [finish, run_bind, htold, Turn.conclude_run, hclosing]
  cases affordances s.config s.stage.world <;> rfl

theorem finish_error {t : Turn (List Output)} {cause : StoryError}
    (h : t s.stage = (.error cause, s.stage)) : s.finish t = (.error cause, s) := by
  simp only [finish, run_bind, h]

/-- A choice in a story that goes on. -/
theorem handle_choose (goes : s.isEnded = false) (h : s.stage.world.playerLocation? = some here)
    (p : Param) :
    s.handle ⟨.choose, p⟩ = match chosen s.stage here p with
      | .error cause => (.error (.script cause), s)
      | .ok none => ((affordances s.config s.stage.world).map
          (.message s.config.messages.notAvailable :: ·), s)
      | .ok (some (person, r)) => s.finish (answer s.config.messages person r) := by
  have hrun := Turn.choose_run (m := s.config.messages) h p
  rw [handle_eq_finish goes]
  change s.finish (Turn.choose s.config.messages p) = _
  cases hchosen : chosen s.stage here p with
  | error cause =>
    rw [hchosen] at hrun
    exact finish_error hrun
  | ok picked =>
    rw [hchosen] at hrun
    cases picked with
    | none =>
      have refused : Turn.choose s.config.messages p s.stage =
          (pure [.message s.config.messages.notAvailable] : Turn (List Output)) s.stage := hrun
      rw [finish_congr refused]
      exact finish_pure goes _
    | some found => exact finish_congr hrun

theorem handle_of_refused (goes : s.isEnded = false)
    (h : s.stage.world.playerLocation? = some here) {p : Param} (refused : Refused s.stage here p) :
    s.handle ⟨.choose, p⟩ = ((affordances s.config s.stage.world).map
      (.message s.config.messages.notAvailable :: ·), s) := by
  rw [handle_choose goes h, chosen_of_refused refused]

section

variable {p : Param} {c : Choice} {entry : String} {person : Character} {r : Response}
  (read : p.choice? = some c) (names : Names s.stage here c entry person r)

include read names

theorem handle_of_faulty (goes : s.isEnded = false)
    (h : s.stage.world.playerLocation? = some here) {cause : ScriptError}
    (faulty : guardHolds s.stage.world r.condition = .error cause) :
    s.handle ⟨.choose, p⟩ = (.error (.script cause), s) := by
  rw [handle_choose goes h, chosen_of_names read names, guarded, faulty]
  rfl

/-- A choice that names an open response is carried out, whether its character can be seen or not. -/
theorem handle_of_open (goes : s.isEnded = false)
    (h : s.stage.world.playerLocation? = some here)
    (opens : guardHolds s.stage.world r.condition = .ok true) :
    s.handle ⟨.choose, p⟩ = s.finish (answer s.config.messages person r) := by
  rw [handle_choose goes h, chosen_of_names read names, guarded, opens]
  rfl

end

/-- **A refused choice changes nothing.** In a story that goes on, however it began and was played so
far, a choice that is refused is answered with one message before the sections, and one that names a
response whose guard fails with the fault of the guard; either way everything is as before. Every
other choice names a response whose guard holds. Instead of the sections there is a fault only where
the description of the place has one. -/
theorem refused_leaves (begins : s₀.Begins) {actions : List Action}
    (played : s = s₀.after actions) (goes : s.isEnded = false) :
    ∃ here, s.stage.world.playerLocation? = some here ∧
      (∀ p, Refused s.stage here p → s.handle ⟨.choose, p⟩ =
        ((affordances s.config s.stage.world).map
          (.message s.config.messages.notAvailable :: ·), s)) ∧
      (∀ p c entry person r cause, p.choice? = some c → Names s.stage here c entry person r →
        guardHolds s.stage.world r.condition = .error cause →
        s.handle ⟨.choose, p⟩ = (.error (.script cause), s)) ∧
      (∀ p, Refused s.stage here p ∨ ∃ c entry person r, p.choice? = some c ∧
        Names s.stage here c entry person r ∧ guardHolds s.stage.world r.condition ≠ .ok false) ∧
      ∀ e, affordances s.config s.stage.world = .error e →
        ∃ cause, describe s.stage.world here.descriptions = .error cause ∧ e = .script cause := by
  subst played
  obtain ⟨here, hplace⟩ := (intact_after begins.intact actions).exists_playerLocation?
  refine ⟨here, hplace, ?_, ?_, ?_, ?_⟩
  · exact fun _ refused => handle_of_refused goes hplace refused
  · exact fun _ _ _ _ _ _ read names faulty => handle_of_faulty read names goes hplace faulty
  · exact fun p => refused_or_unclosed (s₀.after actions).stage here p
  · exact fun _ hfails => describe_of_affordances hplace hfails

/-- The keeper waits at its riddle, so a choice from a joke is refused. -/
theorem refused_leaves_keeperRoom :
    let s := (new keeperRoom.world {}).after [⟨.talk, .text "keeper"⟩]
    ∃ sections, s.handle ⟨.choose, .choice ⟨"keeper", some "joke", "own"⟩⟩ =
      (.ok (.message "That option is not available." :: sections), s) := by
  intro s
  have begins : (new keeperRoom.world {}).Begins := .new (d := keeperRoom) rfl [] {}
  have goes : s.isEnded = false := rfl
  obtain ⟨here, -, hrefused, -⟩ := refused_leaves begins (rfl : s = _) goes
  have waits : s.stage.threads.lookup "keeper" = some "riddle" := rfl
  have other : Refused s.stage here (.choice ⟨"keeper", some "joke", "own"⟩) :=
    .otherEntry rfl waits rfl (by decide)
  obtain ⟨sections, hsections⟩ : ∃ sections, affordances s.config s.stage.world = .ok sections :=
    ⟨_, rfl⟩
  exact ⟨sections, by rw [hrefused _ other, hsections]; rfl⟩

/-- A dialogue at a place whose description cannot be told. -/
def brokenRoom : Document :=
  { keeperRoom with locations := [⟨"cell", "Cell", [⟨none, some "(", some "Dark."⟩], [], .nil⟩] }

/-- The choice is refused, for the keeper is idle, and what comes of it is a fault. -/
theorem not_told_brokenRoom :
    let s := new brokenRoom.world {}
    let p : Param := .choice ⟨"keeper", none, "own"⟩
    World.load brokenRoom = .ok brokenRoom.world ∧ s.isEnded = false ∧
      (∀ here, Refused s.stage here p) ∧ ∀ outs, (s.handle ⟨.choose, p⟩).1 ≠ .ok outs := by
  refine ⟨rfl, rfl, fun here => .idle rfl rfl, fun outs h => ?_⟩
  have fails : ((new brokenRoom.world {}).handle
      ⟨.choose, .choice ⟨"keeper", none, "own"⟩⟩).1.isOk = false := by decide +kernel
  rw [h] at fails
  cases fails

end Session

/-! ## Whom a dialogue is with -/

theorem Candidates.mem_of_resolve? {candidates : Candidates} {name id : String}
    (h : candidates.resolve? name = some id) : ∃ c ∈ candidates, c.1 = id := by
  unfold resolve? at h
  dsimp only at h
  split at h
  · rename_i found
    exact ⟨_, List.mem_of_find?_eq_some found, Option.some.inj h⟩
  · obtain ⟨c, found, hid⟩ := Option.map_eq_some_iff.mp h
    exact ⟨c, List.mem_of_find?_eq_some found, hid⟩

theorem ne_playerId_of_resolve? {w : World} {name id : String}
    (h : (peopleCandidates w).resolve? name = some id) : id ≠ playerId := by
  obtain ⟨_, hc, rfl⟩ := Candidates.mem_of_resolve? h
  obtain ⟨person, hperson, rfl⟩ := List.mem_map.mp hc
  simpa using (List.mem_filter.mp hperson).2

theorem perceivedCharacter_here {m : Messages} {w : World} {place name : String}
    {id : Option String} {person : Character}
    (h : perceivedCharacter m w place name id = .ok person) :
    person.visible = true ∧ person.location = some place := by
  unfold perceivedCharacter at h
  split at h
  · cases h
  · split at h
    · cases h
    · rename_i seen
      split at h <;> cases h
      rename_i near
      exact ⟨by simpa using seen, by simpa using near⟩

/-- How an action comes to a dialogue with a character: it talks to one who can be seen and is not the
player, or it names an open response of one who waits for it. -/
inductive Meets (s : Stage) (here : Location) (a : Action) (person : Character) : Prop
  | talk (verb : a.verb = .talk) (seen : person.visible = true) (other : person.id ≠ playerId)
      (near : person.location = some here.id)
  | choose (verb : a.verb = .choose) {c : Choice} {entry : String} {r : Response}
      (read : a.param.choice? = some c) (names : Names s here c entry person r)
      (opens : guardHolds s.world r.condition = .ok true)

theorem Meets.near {a : Action} (h : Meets s here a person) : person.location = some here.id := by
  cases h with
  | talk verb seen other near => exact near
  | choose verb read names opens => exact names.near

/-- While the player waits for nothing, a dialogue is with someone else. -/
theorem Meets.ne_playerId {a : Action} (h : Meets s here a person)
    (idle : s.threads.lookup playerId = none) : person.id ≠ playerId := by
  intro hid
  cases h with
  | talk verb seen other near => exact other hid
  | choose verb read names opens =>
    have hwaits := names.waits
    rw [← names.id, hid, idle] at hwaits
    cases hwaits

namespace Session

variable {s₀ s : Session} {here : Location} {a : Action}

/-- The character is the one whom an action addresses, and a dialogue between them goes on. -/
structure Met (s : Session) (here : Location) (a : Action) (person : Character) : Prop where
  found : s.stage.world.character? person.id = some person
  addressed : a.partner? s.stage.world = some person.id
  meets : Meets s.stage here a person

theorem exists_met_of_talk (goes : s.isEnded = false)
    (h : s.stage.world.playerLocation? = some here) {p : Param}
    (changes : (s.handle ⟨.talk, p⟩).2.stage ≠ s.stage) : ∃ person, Met s here ⟨.talk, p⟩ person := by
  cases hchecked : addressable s.config.messages s.stage.world here.id p.words with
  | error refusal =>
    have hrun : Turn.talk s.config.messages p.words s.stage = (.ok refusal, s.stage) := by
      rw [Turn.talk_run h, hchecked]
      rfl
    refine absurd ?_ changes
    rw [handle_eq_finish goes, finish_stage]
    exact congrArg Prod.snd hrun
  | ok person =>
    have hid := perceivedCharacter_id hchecked
    obtain ⟨found, hsame, hfound⟩ := perceivedCharacter_eq_ok hchecked
    obtain rfl : person.id = found := Option.some.inj (hid.symm.trans hsame)
    obtain ⟨seen, near⟩ := perceivedCharacter_here hchecked
    exact ⟨person, hfound, hid, .talk rfl seen (ne_playerId_of_resolve? hid) near⟩

theorem exists_met_of_choose (goes : s.isEnded = false)
    (h : s.stage.world.playerLocation? = some here) {p : Param}
    (changes : (s.handle ⟨.choose, p⟩).2.stage ≠ s.stage) :
    ∃ person, Met s here ⟨.choose, p⟩ person := by
  rcases refused_or_unclosed s.stage here p with refused | ⟨c, entry, person, r, read, names, hguard⟩
  · exact absurd (by rw [handle_of_refused goes h refused]) changes
  · have opens : guardHolds s.stage.world r.condition = .ok true := by
      cases hholds : guardHolds s.stage.world r.condition with
      | error cause => exact absurd (by rw [handle_of_faulty read names goes h hholds]) changes
      | ok holds => simpa [hholds] using hguard
    have hid := names.id
    have haddressed : (⟨.choose, p⟩ : Action).partner? s.stage.world = some c.character := by
      cases p <;> exact congrArg (Option.map Choice.character) read
    exact ⟨person, hid ▸ names.found, hid ▸ haddressed, .choose rfl read names opens⟩

/-- A dialogue that changes anything is with someone. -/
theorem exists_met (h : s.stage.world.playerLocation? = some here)
    (verb : a.verb = .talk ∨ a.verb = .choose) (changes : (s.handle a).2.stage ≠ s.stage) :
    ∃ person, Met s here a person := by
  have goes : s.isEnded = false := by
    rw [← Bool.not_eq_true]
    exact fun ended => changes (by rw [handle_of_isEnded ended])
  obtain ⟨_, p⟩ := a
  rcases verb with rfl | rfl
  · exact exists_met_of_talk goes h changes
  · exact exists_met_of_choose goes h changes

/-- Nobody but a game that was put away makes the player wait for an answer. -/
theorem player_idle_handle (hw : s.stage.world.Intact)
    (idle : s.stage.threads.lookup playerId = none) (a : Action) :
    (s.handle a).2.stage.threads.lookup playerId = none := by
  obtain ⟨here, hplace⟩ := hw.exists_playerLocation?
  by_cases addressed : a.partner? s.stage.world = some playerId
  · by_contra waits
    have changes : (s.handle a).2.stage ≠ s.stage := fun stays => waits (stays ▸ idle)
    have verb : a.verb = .talk ∨ a.verb = .choose := by
      unfold Action.partner? at addressed
      split at addressed
      · exact .inl ‹_›
      · exact .inr ‹_›
      · cases addressed
    obtain ⟨person, met⟩ := exists_met hplace verb changes
    exact met.meets.ne_playerId idle (Option.some.inj (met.addressed.symm.trans addressed))
  · rw [s.handle_thread addressed, idle]

theorem player_idle_after (hw : s.stage.world.Intact)
    (idle : s.stage.threads.lookup playerId = none) (actions : List Action) :
    (s.after actions).stage.threads.lookup playerId = none := by
  induction actions generalizing s with
  | nil => exact idle
  | cons a rest ih => exact ih (intact_after hw [a]) (player_idle_handle hw idle a)

/-- **Whom a dialogue is with.** However a story began and was played so far, if talking or choosing
changes anything, the character it addresses is at the place of the player. One who is talked to can
be seen and is not the player; one who is answered waits for the answer, and is not the player unless
the story was taken up with the player waiting. Whether one who is answered can be seen is not asked:
in a story that goes on every choice that names an open response is carried out. -/
theorem met_of_changed (begins : s₀.Begins) {actions : List Action}
    (played : s = s₀.after actions) :
    ∃ here, s.stage.world.playerLocation? = some here ∧
      (∀ a : Action, a.verb = .talk ∨ a.verb = .choose → (s.handle a).2.stage ≠ s.stage →
        ∃ person, Met s here a person ∧ person.location = some here.id ∧
          (s₀.stage.threads.lookup playerId = none → person.id ≠ playerId)) ∧
      (s.isEnded = false → ∀ p c entry person r, p.choice? = some c →
        Names s.stage here c entry person r → guardHolds s.stage.world r.condition = .ok true →
        s.handle ⟨.choose, p⟩ = s.finish (answer s.config.messages person r)) := by
  have hw : s.stage.world.Intact := played ▸ intact_after begins.intact actions
  obtain ⟨here, hplace⟩ := hw.exists_playerLocation?
  refine ⟨here, hplace, fun a verb changes => ?_, ?_⟩
  · obtain ⟨person, met⟩ := exists_met hplace verb changes
    refine ⟨person, met, met.meets.near, fun idle => ?_⟩
    exact met.meets.ne_playerId (played ▸ player_idle_after begins.intact idle actions)
  · exact fun goes _ _ _ _ _ read names opens => handle_of_open read names goes hplace opens

/-- The keeper is answered by a player who stands next to it. -/
theorem met_of_changed_keeperRoom :
    let s := (new keeperRoom.world {}).after [⟨.talk, .text "keeper"⟩]
    let a : Action := ⟨.choose, .choice ⟨"keeper", none, "own"⟩⟩
    (s.handle a).2.stage ≠ s.stage ∧
      ∃ here person, s.stage.world.playerLocation? = some here ∧ Met s here a person ∧
        person.location = some here.id ∧ person.id ≠ playerId := by
  intro s a
  have begins : (new keeperRoom.world {}).Begins := .new (d := keeperRoom) rfl [] {}
  have waits : s.stage.threads = .ofList [("keeper", "riddle")] := rfl
  have answered : (s.handle a).2.stage.threads = .nil := rfl
  have changes : (s.handle a).2.stage ≠ s.stage := by
    intro stays
    rw [stays, waits] at answered
    cases answered
  obtain ⟨here, hplace, hmet, -⟩ := met_of_changed begins (rfl : s = _)
  obtain ⟨person, met, near, other⟩ := hmet a (.inr rfl) changes
  exact ⟨changes, here, person, hplace, met, near, other rfl⟩

/-- A keeper who hides as it asks. -/
def shyRoom : Document :=
  { keeperRoom with
    characters := [⟨playerId, "Venda", some "cell", none, [], [], .nil⟩,
      ⟨"keeper", "Keeper", some "cell", none, [],
        [⟨some "riddle", none, some "Who are you?", some "keeper:visible = false",
          [⟨"own", some "Venda", none, none, none⟩]⟩],
        .nil⟩] }

/-- A player who may have something to say. -/
def mirrorRoom : Document :=
  { keeperRoom with
    characters := [⟨playerId, "Venda", some "cell", none, [],
      [⟨some "riddle", none, some "Who am I?", none, [⟨"own", some "Venda", none, none, none⟩]⟩],
      .nil⟩] }

/-- The keeper is answered although it hides, and the player answers the player. -/
theorem not_met_shyRoom :
    (World.load shyRoom = .ok shyRoom.world ∧
      let s := (new shyRoom.world {}).after [⟨.talk, .text "keeper"⟩]
      ∃ person, s.stage.world.character? "keeper" = some person ∧ person.visible = false ∧
        (s.handle ⟨.choose, .choice ⟨"keeper", some "riddle", "own"⟩⟩).2.stage ≠ s.stage) ∧
    ∃ s, resume ⟨mirrorRoom, .ofList [(playerId, "riddle")]⟩ {} = .ok s ∧
      (s.handle ⟨.choose, .choice ⟨playerId, some "riddle", "own"⟩⟩).2.stage ≠ s.stage := by
  have differ : ∀ {s s' : Stage}, s'.threads.toList ≠ s.threads.toList → s' ≠ s :=
    fun hne hsame => hne (hsame ▸ rfl)
  refine ⟨⟨rfl, ?_⟩, ⟨{}, ⟨mirrorRoom.world, .ofList [(playerId, "riddle")]⟩⟩, rfl,
    differ (by decide +kernel)⟩
  obtain ⟨person, hperson⟩ : ∃ person,
      ((new shyRoom.world {}).after [⟨.talk, .text "keeper"⟩]).stage.world.character? "keeper" =
        some person := Option.isSome_iff_exists.mp (by decide +kernel)
  have hidden : (((new shyRoom.world {}).after [⟨.talk, .text "keeper"⟩]).stage.world.character?
      "keeper").map (·.visible) = some false := by decide +kernel
  rw [hperson] at hidden
  exact ⟨person, hperson, Option.some.inj hidden, differ (by decide +kernel)⟩

end Session

end Storyworld.Story
