import Storyworld.Proofs.Story.Fault

/-! # Why an action fails

An action fails because a script of the document does, or because a write of its own does not reach
an item: `Session.fault_of_handle`. Nothing else can go wrong, and where ids have no blanks around
them and attributes leave room for the counter, only scripts can.
-/

namespace Storyworld.Story

open Script Terminal Turn

variable {lib : Library} {own : WorldError → Prop} {s : Stage}

/-! ## Dialogues -/

namespace Dialogue

theorem raises_of_optionLinks {w : World} {character : String} {entry : DialogueEntry}
    {rs : List Response} (h : ∀ r ∈ rs, r.Covered lib) {e : ScriptError}
    (hfails : optionLinks w character entry rs = .error e) : lib.Raises w e := by
  induction rs with
  | nil => cases hfails
  | cons r rest ih =>
    obtain ⟨hr, hrest⟩ := List.forall_mem_cons.mp h
    rw [optionLinks] at hfails
    obtain hguard | ⟨holds, -, hfails⟩ := Except.bind_eq_error hfails
    · exact raises_of_guardHolds hr.condition hguard
    obtain hothers | ⟨others, -, hfails⟩ := Except.bind_eq_error hfails
    · exact ih hrest hothers
    · cases hfails

theorem raises_of_firstOpen? {w : World} {es : List DialogueEntry} (h : ∀ e ∈ es, e.Covered lib)
    {e : ScriptError} (hfails : firstOpen? w es = .error e) : lib.Raises w e := by
  induction es with
  | nil => cases hfails
  | cons entry rest ih =>
    obtain ⟨hentry, hrest⟩ := List.forall_mem_cons.mp h
    rw [firstOpen?] at hfails
    obtain hguard | ⟨holds, -, hfails⟩ := Except.bind_eq_error hfails
    · exact raises_of_guardHolds hentry.scripts.condition hguard
    · split at hfails
      · cases hfails
      · exact ih hrest hfails

theorem settle_within (character : String) (e : DialogueEntry) (s : Stage) :
    Within (limits lib own) (settle character e) s := by
  unfold settle
  split
  · split
    · exact release_within character
    · exact await_within character _
  · exact release_within character

theorem present_within {character : String} {e : DialogueEntry} (h : e.Covered lib) (fresh : Bool)
    (s : Stage) : Within (limits lib own) (present character e fresh) s := by
  have told : ∀ s', Within (limits lib own) (tellOptions character e) s' := fun s' =>
    world_bind_within ((ofScript_within fun _ => raises_of_optionLinks h.responses).bind
      fun _ _ _ _ => .pure _)
  have settled : ∀ s', Within (limits lib own) (do
      settle character e
      let offered ← tellOptions character e
      pure (speech e ++ offered)) s' := fun s' =>
    (settle_within character e s').bind fun _ s₁ _ _ => (told s₁).bind fun _ _ _ _ => .pure _
  rw [present_eq]
  cases fresh with
  | false => exact settled s
  | true =>
    exact (ofChange_within (perform_within h.scripts.assignments s.world)).bind
      fun _ s' _ _ => settled s'

theorem repeatable?_within {c : Character} (h : c.Covered lib) (s : Stage) :
    Within (limits lib own) (repeatable? c) s := by
  refine .congr (repeatable?_run c s) (ofScript_within fun cause hfails => ?_)
  unfold repetition at hfails
  split at hfails
  · cases hfails
  · rename_i e hentry
    obtain ⟨id, -, hid⟩ := Option.bind_eq_some_iff.mp hentry
    have hguard := (h.onTalk e (entry?_mem hid)).scripts.condition
    exact raises_of_guardHolds hguard (guarded_eq_error_iff.mp hfails)

theorem talk_within (m : Messages) (character : String) (hs : s.world.Governed lib) :
    Within (limits lib own) (talk m character) s := by
  refine world_bind_within ?_
  split
  · exact .pure _
  · rename_i c hc
    have hcovered := hs.character hc
    refine (repeatable?_within hcovered s).bind fun repeated s₁ hrun _ => ?_
    split
    · exact present_within (hcovered.onTalk _ (repeatable?_mem hrun)) false s₁
    · refine (release_within character).bind fun _ s₂ _ _ => world_bind_within ?_
      refine (ofScript_within fun _ => raises_of_firstOpen? hcovered.onTalk).bind
        fun opened s₃ hrun _ => ?_
      split
      · have hopened := firstOpen?_mem (run_ofScript_eq_ok hrun).1
        exact present_within (hcovered.onTalk _ hopened) true s₃
      · exact .pure _

theorem covered_of_named? {c : Character} (h : c.Covered lib) {entry response : String}
    {r : Response} (hnamed : named? c entry response = some r) : r.Covered lib := by
  obtain ⟨e, he, hr⟩ := Option.bind_eq_some_iff.mp hnamed
  exact (h.onTalk e (entry?_mem he)).responses r (List.mem_of_find?_eq_some hr)

/-- Picking fails only as the guard of the response that was named. -/
theorem raises_of_pick {w : World} (hs : w.Governed lib) {waiting : Option String} {c : Choice}
    {e : ScriptError} (hfails : pick w waiting c = .error e) : lib.Raises w e := by
  obtain hnone | ⟨character, entry, r, hfound, -, hnamed, hpick⟩ := pick_cases (w := w) (c := c)
  · rw [hnone] at hfails
    cases hfails
  · have hcovered := covered_of_named? (hs.character hfound) hnamed
    exact raises_of_guardHolds hcovered.condition (guarded_eq_error_iff.mp (hpick ▸ hfails))

theorem follow_within (m : Messages) {c : Character} (h : c.Covered lib) (next : Option String)
    (s : Stage) : Within (limits lib own) (follow m c next) s := by
  unfold follow
  split
  · exact (release_within c.id).bind fun _ _ _ _ => .pure _
  · split
    · rename_i e hentry
      exact present_within (h.onTalk e (entry?_mem hentry)) true s
    · exact (release_within c.id).bind fun _ _ _ _ => .pure _

theorem choose_within (m : Messages) (c : Choice) (hs : s.world.Governed lib) :
    Within (limits lib own) (choose m c) s := by
  have hpick : Within (limits lib own) (picked? c) s :=
    .congr (picked?_run c s) (ofScript_within fun _ => raises_of_pick hs)
  rw [choose_eq]
  refine hpick.bind fun picked s₁ hrun _ => ?_
  rw [picked?_run] at hrun
  obtain ⟨hpicked, rfl⟩ := run_ofScript_eq_ok hrun
  split
  · exact .pure _
  · obtain ⟨hfound, ⟨entry, -, hnamed⟩, -⟩ := pick_eq_ok hpicked
    have hcharacter := hs.character hfound
    have hr := covered_of_named? hcharacter hnamed
    exact (ofChange_within (perform_within hr.assignments s₁.world)).bind fun _ s₂ _ _ =>
      (follow_within m hcharacter _ s₂).bind fun _ _ _ _ => .pure _

end Dialogue

/-! ## Whole turns -/

/-- Of all sections only that of the place tells a description, so no other fails. -/
theorem describe_of_sectionOutput {c : Config} {w : World} {here : Location} {part : Section}
    {e : ScriptError} (hfails : sectionOutput c w here part = .error e) :
    describe w here.descriptions = .error e := by
  unfold sectionOutput at hfails
  split at hfails
  · cases hfails
  · cases htext : sectionText w here part <;> rw [htext] at hfails <;> cases hfails
    cases part <;> try cases htext
    obtain hdescribe | ⟨text, -, htext⟩ := Except.bind_eq_error htext
    · exact hdescribe
    · cases htext

theorem raises_of_sectionOutput {c : Config} {w : World} {here : Location}
    (h : ∀ d ∈ here.descriptions, d.Covered lib) {part : Section} {e : ScriptError}
    (hfails : sectionOutput c w here part = .error e) : lib.Raises w e :=
  raises_of_describe h (describe_of_sectionOutput hfails)

/-- The sections fail only with the description of the place. -/
theorem describe_of_affordances {c : Config} {w : World} {here : Location}
    (h : w.playerLocation? = some here) {e : StoryError} (hfails : affordances c w = .error e) :
    ∃ cause, describe w here.descriptions = .error cause ∧ e = .script cause := by
  simp only [affordances, h] at hfails
  cases hparts : Section.affordances.mapM (sectionOutput c w here) with
  | ok parts =>
    rw [hparts] at hfails
    cases hfails
  | error cause =>
    rw [hparts] at hfails
    cases hfails
    obtain ⟨_, part, _, -, -, hpart⟩ := Except.mapM_eq_error_iff.mp hparts
    exact ⟨cause, describe_of_sectionOutput hpart, rfl⟩

theorem raises_of_endingText {c : Config} {w : World} (hs : w.Governed lib) {e : ScriptError}
    (hfails : endingText c w = .error e) : lib.Raises w e := by
  unfold endingText at hfails
  split at hfails
  · rename_i ending hending
    obtain ⟨v, -, hid⟩ := Option.bind_eq_some_iff.mp hending
    exact raises_of_describe (hs.ending hid) hfails
  · cases hfails

namespace Turn

theorem talk_within (m : Messages) (name : String) (hs : s.world.Governed lib) :
    Within (limits lib own) (talk m name) s := by
  refine here_bind_within hs.intact fun here _ => world_bind_within ?_
  split
  · exact .pure _
  · exact Dialogue.talk_within m _ hs

theorem choose_within (m : Messages) (p : Param) (hs : s.world.Governed lib) :
    Within (limits lib own) (choose m p) s := by
  unfold choose
  dsimp only
  split
  · exact .pure _
  · refine here_bind_within hs.intact fun here _ => world_bind_within ?_
    split
    · exact Dialogue.choose_within m _ hs
    · exact .pure _

theorem perform_within (m : Messages) (a : Action) (hs : s.world.Governed lib) :
    Within (limits lib (Unreached s.world a.verb)) (perform m a) s := by
  unfold perform
  split
  · exact start_within hs
  · exact look_within hs
  · exact go_within m _ hs
  · rename_i hverb
    exact hverb ▸ see_within m _ hs
  · rename_i hverb
    exact hverb ▸ take_within m _ hs
  · rename_i hverb
    exact hverb ▸ drop_within m _ hs
  · exact use_within m _ hs
  · exact talk_within m _ hs
  · exact choose_within m _ hs
  · exact inventory_within m s
  · exact .pure _

theorem affordances_within (c : Config) (hs : s.world.Governed lib) :
    Within (limits lib own) (affordances c s.world : Turn (List Output)) s := by
  obtain ⟨here, hhere⟩ := hs.intact.exists_playerLocation?
  have hcovered := hs.location (World.mem_of_playerLocation? hhere)
  have hrun : affordances c s.world =
      (Section.affordances.mapM (sectionOutput c s.world here)).mapError .script := by
    simp only [affordances, hhere]
  have hsections : Within (limits lib own)
      (Turn.ofScript (Section.affordances.mapM (sectionOutput c s.world here))) s := by
    refine ofScript_within fun cause hfails => ?_
    obtain ⟨_, part, _, -, -, hpart⟩ := Except.mapM_eq_error_iff.mp hfails
    exact raises_of_sectionOutput hcovered hpart
  refine hsections.congr ?_
  rw [Dialogue.run_ofScript, hrun]
  rfl

theorem conclude_within (c : Config) (hs : s.world.Governed lib) :
    Within (limits lib own) (conclude c) s := by
  refine world_bind_within ?_
  split
  · exact (ofScript_within fun _ => raises_of_endingText hs).bind fun _ _ _ _ => .pure _
  · exact affordances_within c hs

/-- **A whole turn** fails as a script does, or because a write of its own does not reach an item,
and it creates no variable but through a script. -/
theorem handle_within (c : Config) (a : Action) (hs : s.world.Governed lib) :
    Within (limits lib (Unreached s.world a.verb)) (handle c a) s := by
  refine world_bind_within ?_
  split
  · exact conclude_within c hs
  · exact (perform_within _ a hs).bind fun _ s' _ hstep =>
      (conclude_within c (hs.evolves hstep.evolves)).bind fun _ _ _ _ => .pure _

end Turn

/-! ## Actions in play -/

namespace Session

theorem governed_of_begins {s : Session} (begins : s.Begins) :
    s.stage.world.Governed (.ofList (ScriptSource.ofWorld s.stage.world)) :=
  ⟨begins.intact, World.covered_ofWorld _⟩

theorem governed_after {s : Session} (h : s.stage.world.Governed lib) (actions : List Action) :
    (s.after actions).stage.world.Governed lib :=
  h.evolves (s.after_evolves actions).world

/-- Where an id is read as it is and nothing is in the way of the counter, every write arrives. -/
theorem not_unreached {w : World} (hw : w.Intact)
    (h : ∀ i ∈ w.items, Text.trimmed i.id = i.id ∧ ∀ fault,
      (Attribute.map i.attributes).read ["onSee", "count"] = .error fault → fault = .absent)
    (verb : Verb) (cause : WorldError) : ¬Unreached w verb cause := by
  have found : ∀ i ∈ w.items, w.find? (Text.trimmed i.id) = some (.item i) := by
    intro i hi
    rw [(h i hi).1]
    exact hw.find?_of_mem (World.mem_items_iff.mpr hi)
  rintro (⟨-, hi, hnothing⟩ | ⟨-, hi, hfind, hread, hoccupied⟩)
  · rw [found _ hi] at hnothing
    cases hnothing
  · rw [found _ hi] at hfind
    cases hfind
    exact hoccupied ((h _ hi).2 _ hread)

/-- **Why an action fails.** In every run of a session, an action that fails does so with a fault
that a script of the world raises, or because a write of its own does not reach an item; it never
misses the player. Where the ids of items are read as they are and no attribute is in the way of the
counter, it is always a script. -/
theorem fault_of_handle {s₀ : Session} (begins : s₀.Begins) (actions : List Action) {a : Action}
    {e : StoryError} (h : ((s₀.after actions).handle a).1 = .error e) :
    let w := (s₀.after actions).stage.world
    let lib := Library.ofList (ScriptSource.ofWorld s₀.stage.world)
    Fault lib (Unreached w a.verb) w e ∧
      ((∀ i ∈ w.items, Text.trimmed i.id = i.id ∧ ∀ fault,
          (Attribute.map i.attributes).read ["onSee", "count"] = .error fault → fault = .absent) →
        ∃ cause, e = .script cause ∧ lib.RaisesFrom w cause) := by
  intro w lib
  have hs : w.Governed lib := governed_after (governed_of_begins begins) actions
  have hfault : Fault lib (Unreached w a.verb) w e := (Turn.handle_within _ a hs).fault e h
  refine ⟨hfault, fun hplain => ?_⟩
  cases hfault with
  | @script cause raised => exact ⟨cause, rfl, raised⟩
  | world hown => exact absurd hown (not_unreached hs.intact hplain _ _)

/-- A script that writes to an entity that is not there. -/
theorem fault_of_handle_lampRoom :
    let s := new (lampRoom "ghost:mood = wary").world {}
    ∃ cause, (s.handle ⟨.use, .text "lamp"⟩).1 = .error (.script cause) ∧
      (Library.ofList (ScriptSource.ofWorld s.stage.world)).RaisesFrom s.stage.world cause := by
  intro s
  have begins : s.Begins := .new (d := lampRoom "ghost:mood = wary") rfl [] {}
  have hfails : (s.handle ⟨.use, .text "lamp"⟩).1 =
      .error (.script (.world (.unknownEntity "ghost"))) := rfl
  cases (fault_of_handle begins [] hfails).1 with
  | script raised => exact ⟨_, hfails, raised⟩

/-- A room in which the id of the lamp starts with a blank. -/
def blankRoom : Document :=
  { lampRoom "" with
    items := [⟨" lamp", "Lamp", some "cell", none, none, [], [], [], [], [], .nil⟩] }

/-- A room in which the author has used an attribute that the counter lies below. -/
def glowRoom : Document :=
  { lampRoom "" with
    items := [⟨"lamp", "Lamp", some "cell", none, none, [], [], [], [], [],
      .ofList [("onSee", .value (.text "glows"))]⟩] }

/-- Taking the lamp and looking at it fail although there are no scripts at all. -/
theorem not_script_blankRoom :
    (World.load blankRoom = .ok blankRoom.world ∧ ScriptSource.ofWorld blankRoom.world = [] ∧
      ((new blankRoom.world {}).handle ⟨.take, .text "lamp"⟩).1 =
        .error (.world (.unknownEntity "lamp"))) ∧
    (World.load glowRoom = .ok glowRoom.world ∧ ScriptSource.ofWorld glowRoom.world = [] ∧
      ((new glowRoom.world {}).handle ⟨.see, .text "lamp"⟩).1 =
        .error (.world (.notContainer "lamp:onSee:count"))) := by
  refine ⟨⟨rfl, rfl, ?_⟩, rfl, rfl, ?_⟩
  · rfl
  · rfl

end Session

end Storyworld.Story
