import Storyworld.Proofs.Story.Dialogue
import Storyworld.Proofs.Story.Stage

/-! # What a turn may do

A script only calls the store, and a turn only changes the stage in the ways that
`Stage.Step` lists; while references are intact it never misses the player (`Turn.Lawful`). One
lemma for each function says so, up to `handle_lawful`, and nothing is said here about what a turn
tells.
-/

namespace Storyworld

namespace Story

open Script Script.Change

/-! ## Rules -/

theorem perform_writes (assignments : Option String) (w : World) :
    (perform assignments).Writes w := by
  unfold perform
  split
  · exact .pure ()
  · exact assign_writes _ w

theorem fire_writes (r : Rule) (w : World) : (fire r).Writes w :=
  (perform_writes _ w).bind fun _ _ => .pure _

theorem fireAll_writes (rules : List Rule) (w : World) : (fireAll rules).Writes w := by
  induction rules generalizing w with
  | nil => exact .pure []
  | cons r rest ih =>
    refine .get_bind (.lift_bind fun holds => ?_)
    split
    · exact (fire_writes r w).bind fun _ w' => (ih w').bind fun _ _ => .pure _
    · exact ih w

theorem fireFirst_writes (rules : List Rule) (w : World) : (fireFirst rules).Writes w := by
  induction rules generalizing w with
  | nil => exact .pure none
  | cons r rest ih =>
    refine .get_bind (.lift_bind fun holds => ?_)
    split
    · exact (fire_writes r w).bind fun _ _ => .pure _
    · exact ih w

/-! ## Turns -/

namespace Turn

/-- From a stage on, a turn changes it in no other ways than by steps, of which it is known whose
threads they may change, and it does not miss the player. -/
structure Lawful {α : Type} (whose : String → Prop) (t : Turn α) (s : Stage) : Prop where
  evolves : s.Evolves whose (t s).2
  placed : s.world.Intact → (t s).1 ≠ .error .playerNotPlaced

namespace Lawful

variable {whose : String → Prop} {α β : Type} {s : Stage}

theorem pure (a : α) : Lawful whose (Pure.pure a) s :=
  ⟨.refl s, fun _ h => nomatch h⟩

theorem bind {t : Turn α} {f : α → Turn β} (ht : t.Lawful whose s)
    (hf : ∀ a s', t s = (.ok a, s') → s.Evolves whose s' → (f a).Lawful whose s') :
    (t >>= f).Lawful whose s := by
  obtain ⟨hevolves, hplaced⟩ := ht
  cases h : t s with
  | mk r s' =>
    rw [h] at hevolves hplaced
    cases r with
    | error e =>
      have hrun : (t >>= f) s = (.error e, s') := by rw [run_bind, h]
      exact ⟨hrun ▸ hevolves, fun hs => by rw [hrun]; simpa using hplaced hs⟩
    | ok a =>
      have hrun : (t >>= f) s = f a s' := by rw [run_bind, h]
      have hrest := hf a s' h hevolves
      exact ⟨hrun ▸ hevolves.trans hrest.evolves,
        fun hs => hrun ▸ hrest.placed (hevolves.world.intact hs)⟩

theorem congr {t t' : Turn α} (h : t s = t' s) (ht : t'.Lawful whose s) : t.Lawful whose s :=
  ⟨h ▸ ht.evolves, h ▸ ht.placed⟩

theorem world_bind {f : World → Turn α} (h : (f s.world).Lawful whose s) :
    (world >>= f).Lawful whose s :=
  ⟨h.evolves, h.placed⟩

theorem here_run (s : Stage) :
    here s = match s.world.playerLocation? with
      | some l => (.ok l, s)
      | none => (.error .playerNotPlaced, s) := by
  unfold here
  rw [run_bind]
  change (match s.world.playerLocation? with
    | some l => Pure.pure l
    | none => throw .playerNotPlaced : Turn Location) s = _
  cases s.world.playerLocation? <;> rfl

theorem here_bind {f : Location → Turn α} (h : ∀ l, (f l).Lawful whose s) :
    (here >>= f).Lawful whose s := by
  cases hl : s.world.playerLocation? with
  | none =>
    have hrun : (here >>= f) s = (.error .playerNotPlaced, s) := by rw [run_bind, here_run, hl]
    refine ⟨hrun ▸ .refl s, fun hs => ?_⟩
    obtain ⟨l, hl'⟩ := hs.exists_playerLocation?
    rw [hl] at hl'
    cases hl'
  | some l =>
    have hrun : (here >>= f) s = f l s := by rw [run_bind, here_run, hl]
    exact ⟨hrun ▸ (h l).evolves, fun hs => hrun ▸ (h l).placed hs⟩

theorem ofScript {e : Except ScriptError α} : (Turn.ofScript e).Lawful whose s := by
  cases e <;> exact ⟨.refl s, fun _ h => nomatch h⟩

theorem ofChange {change : Change α} (h : ∀ w, change.Writes w) :
    (Turn.ofChange change).Lawful whose s := by
  refine ⟨(Stage.Step.call (h s.world)).evolves, fun _ => ?_⟩
  change (change s.world).1.mapError StoryError.script ≠ _
  cases (change s.world).1 <;> exact fun h => nomatch h

theorem ofStore {call : Store α} (h : ∀ w : World, w.Evolves (call w).2) :
    (Turn.ofStore call).Lawful whose s := by
  refine ⟨(Stage.Step.call (h s.world)).evolves, fun _ => ?_⟩
  change (call s.world).1.mapError StoryError.world ≠ _
  cases (call s.world).1 <;> exact fun h => nomatch h

theorem await {character entry : String} (mine : whose character)
    (h : isThreadOf s.world (character, entry) = true) :
    (Turn.await character entry).Lawful whose s :=
  ⟨(Stage.Step.await mine h).evolves, fun _ h => nomatch h⟩

theorem release {character : String} (mine : whose character) :
    (Turn.release character).Lawful whose s :=
  ⟨(Stage.Step.release mine).evolves, fun _ h => nomatch h⟩

end Lawful

open Lawful

variable {whose : String → Prop}

theorem look_lawful (s : Stage) : look.Lawful whose s :=
  here_bind fun _ => world_bind (Lawful.ofScript.bind fun _ _ _ _ => .pure _)

theorem start_lawful (s : Stage) : start.Lawful whose s :=
  world_bind ((look_lawful s).bind fun _ _ _ _ => .pure _)

theorem go_lawful (m : Messages) (name : String) (s : Stage) : (go m name).Lawful whose s := by
  refine here_bind fun here => world_bind ?_
  split
  · exact (Lawful.ofStore (Store.set_evolves _ _)).bind fun _ s' _ _ => look_lawful s'
  · exact .pure _

theorem countSight_lawful (id : String) (s : Stage) : (countSight id).Lawful whose s :=
  (Lawful.ofStore (Store.getOrSet_evolves _ _)).bind fun _ _ _ _ =>
    Lawful.ofStore (Store.set_evolves _ _)

theorem see_lawful (m : Messages) (name : String) (s : Stage) : (see m name).Lawful whose s := by
  refine here_bind fun here => world_bind ?_
  split
  · exact .pure _
  · split
    · split
      · exact .pure _
      · exact Lawful.ofScript.bind fun _ s₁ _ _ => (countSight_lawful _ s₁).bind fun _ s₂ _ _ =>
          (Lawful.ofChange (fireAll_writes _)).bind fun _ _ _ _ => .pure _
    · split
      · exact .pure _
      · exact Lawful.ofScript.bind fun _ _ _ _ => .pure _

theorem event_lawful (rules : List Rule) (plain : Output) (s : Stage) :
    (event rules plain).Lawful whose s := by
  unfold event
  split
  · exact .pure _
  · exact (Lawful.ofChange (fireAll_writes rules)).bind fun _ _ _ _ => .pure _

theorem take_lawful (m : Messages) (name : String) (s : Stage) : (take m name).Lawful whose s := by
  refine here_bind fun here => world_bind ?_
  split
  · exact .pure _
  · split
    · exact .pure _
    · split
      · exact .pure _
      · exact (Lawful.ofStore (Store.set_evolves _ _)).bind fun _ s' _ _ => event_lawful _ _ s'

theorem drop_lawful (m : Messages) (name : String) (s : Stage) : (drop m name).Lawful whose s := by
  refine here_bind fun here => world_bind ?_
  split
  · exact .pure _
  · exact (Lawful.ofStore (Store.set_evolves _ _)).bind fun _ s' _ _ => event_lawful _ _ s'

theorem use_lawful (m : Messages) (name : String) (s : Stage) : (use m name).Lawful whose s := by
  refine here_bind fun here => world_bind ?_
  split
  · exact .pure _
  · split
    · exact .pure _
    · refine (Lawful.ofChange (fireFirst_writes _)).bind fun told s' _ _ => ?_
      split <;> exact .pure _

theorem inventory_lawful (m : Messages) (s : Stage) : (inventory m).Lawful whose s := by
  refine world_bind ?_
  dsimp only
  split <;> exact .pure _

end Turn

/-! ## Dialogues -/

namespace Dialogue

open Turn Turn.Lawful

variable {whose : String → Prop}

/-- A character that is made to wait waits at an entry of its own. -/
theorem settle_lawful {character : String} (mine : whose character) {es : List DialogueEntry}
    {e : DialogueEntry} {s : Stage} (hes : s.world.onTalk? character = some es) (he : e ∈ es) :
    (settle character e).Lawful whose s := by
  unfold settle
  split
  · rename_i id hid
    split
    · exact .release mine
    · refine .await mine (isThreadOf_iff.mpr ⟨es, hes, e, he, ?_⟩)
      exact (Option.filter_eq_some_iff.mp hid).1
  · exact .release mine

theorem present_lawful {character : String} (mine : whose character) {es : List DialogueEntry}
    {e : DialogueEntry} (fresh : Bool) (s : Stage) (hes : s.world.onTalk? character = some es)
    (he : e ∈ es) : (present character e fresh).Lawful whose s := by
  have told : ∀ s', (tellOptions character e).Lawful whose s' := fun s' =>
    world_bind (Lawful.ofScript.bind fun _ _ _ _ => .pure _)
  have settled : ∀ s', s'.world.onTalk? character = some es → Turn.Lawful whose (do
      settle character e
      let offered ← tellOptions character e
      Pure.pure (speech e ++ offered)) s' := fun s' hes' =>
    (settle_lawful mine hes' he).bind fun _ s₁ _ _ => (told s₁).bind fun _ _ _ _ => .pure _
  rw [present_eq]
  cases fresh with
  | false => exact settled s hes
  | true =>
    exact (Lawful.ofChange (perform_writes _)).bind fun _ s' _ hs' =>
      settled s' ((hs'.world.onTalk? character).trans hes)

theorem repeatable?_lawful (c : Character) (s : Stage) : (repeatable? c).Lawful whose s :=
  .congr (repeatable?_run c s) .ofScript

theorem talk_lawful (m : Messages) {character : String} (mine : whose character) (s : Stage) :
    (talk m character).Lawful whose s := by
  refine world_bind ?_
  split
  · exact .pure _
  · rename_i c hc
    have htalk : s.world.onTalk? character = some c.onTalk := by simp [World.onTalk?, hc]
    refine (repeatable?_lawful c s).bind fun repeated s₁ hrun hs₁ => ?_
    split
    · exact present_lawful mine false s₁ ((hs₁.world.onTalk? character).trans htalk)
        (repeatable?_mem hrun)
    · refine (Lawful.release mine).bind fun _ s₂ _ hs₂ =>
        world_bind (Lawful.ofScript.bind fun opened s₃ hrun₃ hs₃ => ?_)
      split
      · exact present_lawful mine true s₃
          ((((hs₁.trans hs₂).trans hs₃).world.onTalk? character).trans htalk)
          (firstOpen?_mem (run_ofScript_eq_ok hrun₃).1)
      · exact .pure _

theorem picked?_lawful (c : Choice) (s : Stage) : (picked? c).Lawful whose s :=
  .congr (picked?_run c s) .ofScript

theorem follow_lawful (m : Messages) {character : Character} (mine : whose character.id)
    (next : Option String) (s : Stage)
    (htalk : s.world.onTalk? character.id = some character.onTalk) :
    (follow m character next).Lawful whose s := by
  unfold follow
  split
  · exact (Lawful.release mine).bind fun _ _ _ _ => .pure _
  · split
    · rename_i e hentry
      exact present_lawful mine true s htalk (entry?_mem hentry)
    · exact (Lawful.release mine).bind fun _ _ _ _ => .pure _

theorem choose_lawful (m : Messages) {c : Choice} (mine : whose c.character) (s : Stage) :
    (choose m c).Lawful whose s := by
  refine (picked?_lawful c s).bind fun picked s₁ hrun hs₁ => ?_
  split
  · exact .pure _
  · rename_i character r
    have hfound := picked?_character? hrun
    have hid : character.id = c.character := by simpa using List.find?_some hfound
    have htalk : s.world.onTalk? character.id = some character.onTalk := by
      simp [World.onTalk?, hid, hfound]
    refine (Lawful.ofChange (perform_writes _)).bind fun _ s₂ _ hs₂ => ?_
    refine (follow_lawful m (hid ▸ mine) r.next s₂ ?_).bind fun _ _ _ _ => .pure _
    exact ((hs₁.trans hs₂).world.onTalk? _).trans htalk

end Dialogue

/-! ## Whole turns -/

/-- The character whom an action addresses, to talk or to answer. -/
def Action.partner? (a : Action) (w : World) : Option String :=
  match a.verb with
  | .talk => (peopleCandidates w).resolve? a.param.words
  | .choose =>
    let choice? :=
      match a.param with
      | .choice c => some c
      | .text s => Choice.ofText? s
    choice?.map (·.character)
  | _ => none

theorem perceivedCharacter_eq_ok {m : Messages} {w : World} {here name : String}
    {id : Option String} {c : Character} (h : perceivedCharacter m w here name id = .ok c) :
    ∃ found, id = some found ∧ w.character? found = some c := by
  unfold perceivedCharacter at h
  split at h
  · cases h
  · rename_i hfound
    split at h
    · cases h
    · split at h <;> cases h
      exact Option.bind_eq_some_iff.mp hfound

theorem perceivedCharacter_id {m : Messages} {w : World} {here name : String} {id : Option String}
    {c : Character} (h : perceivedCharacter m w here name id = .ok c) : id = some c.id := by
  obtain ⟨found, rfl, hfound⟩ := perceivedCharacter_eq_ok h
  have hid : c.id = found := by simpa using List.find?_some hfound
  rw [hid]

namespace Turn

open Lawful

variable {whose : String → Prop}

theorem talk_lawful (m : Messages) {name : String} {s : Stage}
    (mine : ∀ id, (peopleCandidates s.world).resolve? name = some id → whose id) :
    (talk m name).Lawful whose s := by
  refine here_bind fun here => world_bind ?_
  split
  · exact .pure _
  · rename_i c hc
    exact Dialogue.talk_lawful m (mine _ (perceivedCharacter_id hc)) s

theorem choose_lawful (m : Messages) {p : Param} {s : Stage}
    (mine : ∀ c : Choice, (match p with
      | .choice c => some c
      | .text s => Choice.ofText? s) = some c → whose c.character) :
    (choose m p).Lawful whose s := by
  unfold choose
  dsimp only
  split
  · exact .pure _
  · rename_i c hc
    refine here_bind fun here => world_bind ?_
    split
    · exact Dialogue.choose_lawful m (mine c hc) s
    · exact .pure _

/-- An action changes the thread of no character but the one whom it addresses. -/
theorem perform_lawful (m : Messages) (a : Action) (s : Stage) :
    (perform m a).Lawful (fun character => a.partner? s.world = some character) s := by
  unfold perform
  split
  · exact start_lawful s
  · exact look_lawful s
  · exact go_lawful m _ s
  · exact see_lawful m _ s
  · exact take_lawful m _ s
  · exact drop_lawful m _ s
  · exact use_lawful m _ s
  · rename_i hverb
    exact talk_lawful m fun id hid => by simp only [Action.partner?, hverb, hid]
  · rename_i hverb
    exact choose_lawful m fun c hc => by simp only [Action.partner?, hverb, hc, Option.map_some]
  · exact inventory_lawful m s
  · exact .pure _

theorem affordances_ne_playerNotPlaced {c : Config} {w : World} (h : w.Intact) :
    affordances c w ≠ .error .playerNotPlaced := by
  obtain ⟨l, hl⟩ := h.exists_playerLocation?
  simp only [affordances, hl]
  cases Section.affordances.mapM (sectionOutput c w l) <;> exact fun h => nomatch h

theorem conclude_lawful (c : Config) (s : Stage) : (conclude c).Lawful whose s := by
  refine world_bind ?_
  split
  · exact Lawful.ofScript.bind fun _ _ _ _ => .pure _
  · exact ⟨.refl s, fun hs => affordances_ne_playerNotPlaced hs⟩

/-- **A whole turn is lawful**, whether the action succeeds or fails. -/
theorem handle_lawful (c : Config) (a : Action) (s : Stage) :
    (handle c a).Lawful (fun character => a.partner? s.world = some character) s := by
  refine world_bind ?_
  split
  · exact conclude_lawful c s
  · exact (perform_lawful _ a s).bind fun _ s' _ _ =>
      (conclude_lawful c s').bind fun _ _ _ _ => .pure _

end Turn

end Story

end Storyworld
