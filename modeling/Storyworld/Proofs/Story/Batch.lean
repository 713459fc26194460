import Storyworld.Proofs.Story.Exit
import Storyworld.Proofs.Script.Acceptance

/-! # What an action tells

The outputs of an action are what is told and then the sections. Whatever a verb tells leaves the
sections alone (`perform_tells`, from one lemma for each verb), and the close of the turn gives all of
them in their order, or the ending before empty ones (`closing_eq_ok`). Once the story has ended a
turn is nothing but its close, which changes nothing, so every later turn is the same again:
`batch_of_handle`.
-/

namespace Storyworld.Story

/-! ## Fragments that leave the sections alone -/

/-- A fragment that replaces none of the sections that say what the player can do. -/
def Output.IsTold (o : Output) : Prop :=
  ∀ part ∈ Section.affordances, o.place ≠ some part

/-- Fragments none of which replaces such a section. -/
def AllTold (outs : List Output) : Prop :=
  ∀ o ∈ outs, o.IsTold

@[simp] theorem isTold_append (html : String) : (Output.append html).IsTold :=
  fun _ _ => nofun

@[simp] theorem isTold_message (s : String) : (Output.message s).IsTold :=
  fun _ _ => nofun

@[simp] theorem isTold_say (template name : String) : (say template name).IsTold :=
  isTold_message _

theorem isTold_title (html : String) : (Output.replace .title html).IsTold := by
  intro part hpart htitle
  obtain rfl : Section.title = part := Option.some.inj htitle
  simp [Section.affordances] at hpart

namespace AllTold

@[simp] theorem nil : AllTold [] :=
  nofun

@[simp] theorem cons_iff {o : Output} {outs : List Output} :
    AllTold (o :: outs) ↔ o.IsTold ∧ AllTold outs :=
  List.forall_mem_cons

@[simp] theorem append_iff {first second : List Output} :
    AllTold (first ++ second) ↔ AllTold first ∧ AllTold second :=
  List.forall_mem_append

@[simp] theorem map {α : Type} {f : α → Output} (h : ∀ a, (f a).IsTold) (as : List α) :
    AllTold (as.map f) := by
  intro o ho
  obtain ⟨a, -, rfl⟩ := List.mem_map.mp ho
  exact h a

@[simp] theorem tell (html : String) : AllTold (tell html) := by
  unfold Story.tell
  split <;> simp

@[simp] theorem flatMap_tell (texts : List String) : AllTold (texts.flatMap Story.tell) := by
  intro o ho
  obtain ⟨text, -, ho⟩ := List.mem_flatMap.mp ho
  exact tell text o ho

end AllTold

section

variable {m : Messages} {w : World} {here name : String}

@[simp] theorem allTold_suggestion (candidates : Candidates) :
    AllTold (suggestion m candidates name) :=
  .map (fun _ => isTold_say _ _) _

@[simp] theorem allTold_notFound : AllTold (notFound m w here name) := by
  simp [notFound]

theorem perceivedItem_refusal {refusal : List Output}
    (h : perceivedItem m w here name = .error refusal) : AllTold refusal := by
  unfold perceivedItem at h
  split at h
  · cases h
    simp
  · split at h
    · cases h
      simp
    · split at h <;> cases h
      simp

theorem perceivedCharacter_refusal {id : Option String} {refusal : List Output}
    (h : perceivedCharacter m w here name id = .error refusal) : AllTold refusal := by
  unfold perceivedCharacter at h
  split at h
  · cases h
    simp
  · split at h
    · cases h
      simp
    · split at h <;> cases h
      simp

end

/-! ## Turns that leave the sections alone -/

namespace Turn

/-- Whatever the turn tells when it succeeds leaves the sections alone. -/
def Tells (t : Turn (List Output)) : Prop :=
  ∀ s outs s', t s = (.ok outs, s') → AllTold outs

namespace Tells

variable {α : Type}

theorem pure {outs : List Output} (h : AllTold outs) : Tells (Pure.pure outs) := by
  intro s outs' s' hrun
  cases hrun
  exact h

/-- What a sequence tells is up to its second part. -/
theorem after {t : Turn α} {f : α → Turn (List Output)} (hf : ∀ a, (f a).Tells) :
    (t >>= f).Tells := by
  intro s outs s' hrun
  obtain ⟨a, s₁, -, hrest⟩ := run_bind_eq_ok hrun
  exact hf a s₁ outs s' hrest

theorem bind {t : Turn (List Output)} {f : List Output → Turn (List Output)} (ht : t.Tells)
    (hf : ∀ outs, AllTold outs → (f outs).Tells) : (t >>= f).Tells := by
  intro s outs s' hrun
  obtain ⟨told, s₁, hfirst, hrest⟩ := run_bind_eq_ok hrun
  exact hf told (ht s told s₁ hfirst) s₁ outs s' hrest

end Tells

open Tells

theorem look_tells : look.Tells :=
  after fun _ => after fun _ => after fun _ => .pure (by simp)

theorem start_tells : start.Tells :=
  after fun _ => look_tells.bind fun around haround => .pure (by
    simp only [AllTold.cons_iff, AllTold.append_iff, isTold_title, haround, true_and, and_true]
    exact .map isTold_append _)

theorem go_tells (m : Messages) (name : String) : (go m name).Tells := by
  refine after fun here => after fun w => ?_
  split
  · exact after fun _ => look_tells
  · exact .pure (by simp)

theorem see_tells (m : Messages) (name : String) : (see m name).Tells := by
  refine after fun here => after fun w => ?_
  split
  · exact .pure (by simp)
  split
  · split
    · rename_i hrefused
      exact .pure (perceivedItem_refusal hrefused)
    · exact after fun _ => after fun _ => after fun _ => .pure (by simp)
  · split
    · rename_i hrefused
      exact .pure (perceivedCharacter_refusal hrefused)
    · exact after fun _ => .pure (by simp)

theorem event_tells (rules : List Rule) {plain : Output} (h : plain.IsTold) :
    (event rules plain).Tells := by
  unfold event
  split
  · exact .pure (by simp [h])
  · exact after fun _ => .pure (by simp)

theorem take_tells (m : Messages) (name : String) : (take m name).Tells := by
  refine after fun here => after fun w => ?_
  split
  · exact .pure (by simp)
  split
  · rename_i hrefused
    exact .pure (perceivedItem_refusal hrefused)
  split
  · exact .pure (by simp)
  · exact after fun _ => event_tells _ (isTold_say _ _)

theorem drop_tells (m : Messages) (name : String) : (drop m name).Tells := by
  refine after fun here => after fun w => ?_
  split
  · exact .pure (by simp)
  · exact after fun _ => event_tells _ (isTold_say _ _)

theorem use_tells (m : Messages) (name : String) : (use m name).Tells := by
  refine after fun here => after fun w => ?_
  split
  · rename_i hrefused
    exact .pure (perceivedItem_refusal hrefused)
  split
  · exact .pure (by simp)
  · refine after fun told => ?_
    split <;> exact .pure (by simp)

theorem inventory_tells (m : Messages) : (inventory m).Tells := by
  refine after fun w => ?_
  dsimp only
  split <;> exact .pure (by simp)

end Turn

namespace Dialogue

open Turn.Tells

theorem tellOptions_tells (character : String) (e : DialogueEntry) :
    (tellOptions character e).Tells :=
  after fun _ => after fun links => .pure (by split <;> simp)

theorem present_tells (character : String) (e : DialogueEntry) (fresh : Bool) :
    (present character e fresh).Tells := by
  have settled : Turn.Tells (do
      settle character e
      let offered ← tellOptions character e
      Pure.pure (speech e ++ offered)) :=
    after fun _ => (tellOptions_tells character e).bind fun offered hoffered =>
      .pure (by simp [speech, hoffered])
  rw [present_eq]
  cases fresh with
  | false => exact settled
  | true => exact after fun _ => settled

theorem talk_tells (m : Messages) (character : String) : (talk m character).Tells := by
  refine after fun w => ?_
  split
  · exact .pure (by simp)
  refine after fun repeated => ?_
  split
  · exact present_tells _ _ _
  · refine after fun _ => after fun w => after fun opened => ?_
    split
    · exact present_tells _ _ _
    · exact .pure (by simp)

theorem follow_tells (m : Messages) (character : Character) (next : Option String) :
    (follow m character next).Tells := by
  unfold follow
  split
  · exact after fun _ => .pure (by simp)
  split
  · exact present_tells _ _ _
  · exact after fun _ => .pure (by simp)

theorem choose_tells (m : Messages) (c : Choice) : (choose m c).Tells := by
  refine after fun picked => ?_
  split
  · exact .pure (by simp)
  · exact after fun _ => (follow_tells m _ _).bind fun after hafter => .pure (by simp [hafter])

end Dialogue

namespace Turn

open Tells

theorem talk_tells (m : Messages) (name : String) : (talk m name).Tells := by
  refine after fun here => after fun w => ?_
  split
  · rename_i hrefused
    exact .pure (perceivedCharacter_refusal hrefused)
  · exact Dialogue.talk_tells m _

theorem choose_tells (m : Messages) (p : Param) : (choose m p).Tells := by
  unfold choose
  dsimp only
  split
  · exact .pure (by simp)
  · refine after fun here => after fun w => ?_
    split
    · exact Dialogue.choose_tells m _
    · exact .pure (by simp)

/-- **No verb tells anything into the sections.** -/
theorem perform_tells (m : Messages) (a : Action) : (perform m a).Tells := by
  unfold perform
  split
  · exact start_tells
  · exact look_tells
  · exact go_tells m _
  · exact see_tells m _
  · exact take_tells m _
  · exact drop_tells m _
  · exact use_tells m _
  · exact talk_tells m _
  · exact choose_tells m _
  · exact inventory_tells m
  · exact .pure (by simp)

end Turn

/-! ## The close of a turn -/

/-- What the close of a turn tells in a world. -/
def closing (c : Config) (w : World) : Except StoryError (List Output) :=
  if isEnded c w then
    ((endingText c w).map fun text => .append text :: noAffordances).mapError .script
  else affordances c w

theorem Turn.conclude_run (c : Config) (s : Stage) : conclude c s = (closing c s.world, s) := by
  unfold conclude closing
  rw [Dialogue.run_world_bind]
  split
  · rw [run_bind, Dialogue.run_ofScript]
    cases endingText c s.world <;> rfl
  · rfl

theorem place_of_sectionOutput {c : Config} {w : World} {here : Location} {part : Section}
    {o : Output} (h : sectionOutput c w here part = .ok o) : o.place = some part := by
  unfold sectionOutput at h
  split at h
  · cases h
    rfl
  · obtain ⟨html, -, rfl⟩ := Except.map_eq_ok h
    rfl

theorem places_of_mapM {c : Config} {w : World} {here : Location} {parts : List Section}
    {outs : List Output} (h : parts.mapM (sectionOutput c w here) = .ok outs) :
    outs.map (·.place) = parts.map some := by
  induction parts generalizing outs with
  | nil =>
    cases h
    rfl
  | cons part parts ih =>
    rw [List.mapM_cons] at h
    obtain ⟨o, ho, h⟩ := Except.bind_eq_ok h
    obtain ⟨rest, hrest, h⟩ := Except.bind_eq_ok h
    cases h
    rw [List.map_cons, List.map_cons, place_of_sectionOutput ho, ih hrest]

theorem places_of_affordances {c : Config} {w : World} {outs : List Output}
    (h : affordances c w = .ok outs) : outs.map (·.place) = Section.affordances.map some := by
  unfold affordances at h
  split at h
  · cases h
  · rename_i here _
    cases hparts : Section.affordances.mapM (sectionOutput c w here) with
    | error fault =>
      rw [hparts] at h
      cases h
    | ok parts =>
      rw [hparts] at h
      cases h
      exact places_of_mapM hparts

/-- The sections in their order, or the ending before empty ones. -/
theorem closing_eq_ok {c : Config} {w : World} {outs : List Output} (h : closing c w = .ok outs) :
    (isEnded c w = false ∧ affordances c w = .ok outs) ∨
      isEnded c w = true ∧
        ∃ text, endingText c w = .ok text ∧ outs = .append text :: noAffordances := by
  unfold closing at h
  cases hended : isEnded c w with
  | false =>
    rw [hended] at h
    exact .inl ⟨rfl, h⟩
  | true =>
    rw [hended, if_pos rfl] at h
    cases htext : endingText c w with
    | error fault =>
      rw [htext] at h
      cases h
    | ok text =>
      rw [htext] at h
      cases h
      exact .inr ⟨rfl, text, rfl, rfl⟩

/-! ## Whole turns -/

namespace Session

/-- A story that has ended is closed again, whatever the action, and does not change. -/
theorem handle_of_isEnded {s : Session} (ended : s.isEnded = true) (a : Action) :
    s.handle a = (closing s.config s.stage.world, s) := by
  have ended : Story.isEnded s.config s.stage.world = true := ended
  have hrun : Turn.handle s.config a s.stage = Turn.conclude s.config s.stage := by
    change (if Story.isEnded s.config s.stage.world then Turn.conclude s.config
      else _ : Turn (List Output)) s.stage = _
    rw [if_pos ended]
  rw [handle, hrun, Turn.conclude_run]

/-- A story that goes on is closed behind what the action tells. -/
theorem handle_eq_ok {s s' : Session} (goes : s.isEnded = false) {a : Action} {outs : List Output}
    (h : s.handle a = (.ok outs, s')) :
    ∃ told close, outs = told ++ close ∧ AllTold told ∧
      closing s'.config s'.stage.world = .ok close := by
  rw [handle_eq_finish goes] at h
  unfold finish at h
  dsimp only at h
  rcases hrun : ((do
    let told ← Turn.perform s.config.messages a
    let close ← Turn.conclude s.config
    pure (told ++ close) : Turn (List Output)) s.stage) with ⟨result, stage⟩
  rw [hrun] at h
  obtain ⟨rfl, rfl⟩ := Prod.mk.inj h
  obtain ⟨told, s₁, htold, hrest⟩ := run_bind_eq_ok hrun
  obtain ⟨close, s₂, hclose, hrest⟩ := run_bind_eq_ok hrest
  rw [Turn.conclude_run] at hclose
  obtain ⟨hclosing, rfl⟩ := Prod.mk.inj hclose
  cases hrest
  exact ⟨told, close, rfl, Turn.perform_tells _ a _ _ _ htold, hclosing⟩

theorem after_of_isEnded {s : Session} (ended : s.isEnded = true) (actions : List Action) :
    s.after actions = s := by
  induction actions with
  | nil => rfl
  | cons a rest ih =>
    rw [after, List.foldl_cons, handle_of_isEnded ended]
    exact ih

/-- **Outputs are well formed, and the end is final.** If an action succeeds, in whatever state of a
story, its last outputs are the sections in their order, and nothing before them replaces one of them;
if the story has ended after the action, the sections are empty and the ending stands right before
them. Once the story has ended, no actions change anything any more, and all of them are answered
alike, with the ending and the empty sections or with the fault of the ending. -/
theorem batch_of_handle (s : Session) :
    (∀ a outs s', s.handle a = (.ok outs, s') →
      ∃ told sections, outs = told ++ sections ∧
        sections.map (·.place) = Section.affordances.map some ∧ AllTold told ∧
        (s'.isEnded = true → sections = noAffordances ∧
          ∃ before text, told = before ++ [.append text] ∧
            endingText s'.config s'.stage.world = .ok text)) ∧
    (s.isEnded = true → ∀ actions a,
      s.after actions = s ∧
      (s.after actions).handle a =
        (((endingText s.config s.stage.world).map fun text =>
          .append text :: noAffordances).mapError .script, s)) := by
  refine ⟨fun a outs s' hrun => ?_, fun ended actions a => ?_⟩
  · obtain ⟨told, close, rfl, htold, hclosing⟩ : ∃ told close, outs = told ++ close ∧
        AllTold told ∧ closing s'.config s'.stage.world = .ok close := by
      cases hended : s.isEnded with
      | false => exact handle_eq_ok hended hrun
      | true =>
        rw [handle_of_isEnded hended] at hrun
        obtain ⟨hclosing, rfl⟩ := Prod.mk.inj hrun
        exact ⟨[], outs, rfl, .nil, hclosing⟩
    obtain ⟨hgoes, hsections⟩ | ⟨-, text, htext, rfl⟩ := closing_eq_ok hclosing
    · refine ⟨told, close, rfl, places_of_affordances hsections, htold, fun hended => ?_⟩
      rw [isEnded, hgoes] at hended
      cases hended
    · exact ⟨told ++ [.append text], noAffordances, by simp, rfl, by simp [htold],
        fun _ => ⟨rfl, told, text, rfl, htext⟩⟩
  · have hstays := after_of_isEnded ended actions
    refine ⟨hstays, ?_⟩
    have ended' : Story.isEnded s.config s.stage.world = true := ended
    rw [hstays, handle_of_isEnded ended, closing, if_pos ended']

/-- Using the lamp ends the story, and looking around or taking the lamp changes nothing then. -/
theorem batch_of_handle_lampRoom :
    let s := new (lampRoom "game_end = true").world {}
    ∃ outs s', s.handle ⟨.use, .text "lamp"⟩ = (.ok outs, s') ∧ s'.isEnded = true ∧
      (∃ before text, outs = before ++ [.append text] ++ noAffordances) ∧
      s'.after [⟨.look, .text ""⟩, ⟨.take, .text "lamp"⟩] = s' := by
  intro s
  have answered : (s.handle ⟨.use, .text "lamp"⟩).1.isOk = true := by decide +kernel
  have ended : (s.handle ⟨.use, .text "lamp"⟩).2.isEnded = true := by decide +kernel
  obtain ⟨⟨result, s'⟩, hrun⟩ : ∃ run, s.handle ⟨.use, .text "lamp"⟩ = run := ⟨_, rfl⟩
  rw [hrun] at answered ended
  cases result with
  | error fault => cases answered
  | ok outs =>
    obtain ⟨told, sections, rfl, -, -, hend⟩ := (batch_of_handle s).1 _ outs s' hrun
    obtain ⟨rfl, before, text, rfl, -⟩ := hend ended
    exact ⟨_, s', hrun, ended, ⟨before, text, rfl⟩,
      ((batch_of_handle s').2 ended _ ⟨.look, .text ""⟩).1⟩

end Session

end Storyworld.Story
