import Storyworld.Proofs.Story.Fault
import Storyworld.Proofs.Story.Session
import Storyworld.Proofs.Terminal.Link

/-! # What is offered and what is permitted

The sections offer what they find by tests of their own, and a verb refuses by others. Here a verb is
split into a check, which lets something through or refuses it, and what is then carried out
(`take_run`, `drop_run`, ...). For the id of an item or a person, the check lets through exactly what
the section of the verb has a link for: `permitted_iff_listed`.
-/

namespace Storyworld

namespace World

/-! ## Entities of an intact world by id -/

/-- The ids of items and people are without blanks around them, so each names what it belongs to. -/
def Tidy (w : World) : Prop :=
  ∀ id ∈ w.items.map (·.id) ++ w.characters.map (·.id), Text.trimmed id = id

theorem Step.tidy {w w' : World} (h : w.Step w') (hw : w.Tidy) : w'.Tidy := by
  cases h with
  | create v named fresh => exact hw
  | @revise _ e e' found hrev =>
    unfold Tidy at hw ⊢
    cases e' with
    | item i => rwa [replace, map_overwrite (·.id) i w.items]
    | character c => rwa [replace, map_overwrite (·.id) c w.characters]
    | _ => exact hw

theorem Tidy.item {w : World} (h : w.Tidy) {i : Item} (hi : i ∈ w.items) :
    Text.trimmed i.id = i.id :=
  h _ (List.mem_append_left _ (List.mem_map_of_mem hi))

theorem Tidy.character {w : World} (h : w.Tidy) {c : Character} (hc : c ∈ w.characters) :
    Text.trimmed c.id = c.id :=
  h _ (List.mem_append_right _ (List.mem_map_of_mem hc))

/-- No place has the id of the player. -/
theorem Intact.location_id_ne {w : World} (h : w.Intact) {l : Location} (hl : l ∈ w.locations) :
    l.id ≠ playerId := by
  obtain ⟨p, hp, hid⟩ := h.player
  intro heq
  cases h.eq_of_id (mem_locations_iff.mpr hl) (mem_characters_iff.mpr hp) (heq.trans hid.symm)

end World

namespace Story

open Terminal

/-! ## Names that are ids -/

theorem resolve?_of_mem {candidates : Candidates} {id name : String}
    (h : (id, name) ∈ candidates) (htidy : Text.trimmed id = id) :
    candidates.resolve? id = some id := by
  obtain ⟨found, hfound⟩ : ∃ found, candidates.find? (·.1 == id) = some found := by
    rw [← Option.isSome_iff_exists, List.find?_isSome]
    exact ⟨_, h, by simp⟩
  have hid : found.1 = id := by simpa using List.find?_some hfound
  simp only [Candidates.resolve?, htidy, hfound, hid]

/-- The id of an item names that item, even if it is the name of another one. -/
theorem namedItem?_self {w : World} (h : w.Intact) (htidy : w.Tidy) {i : Item} (hi : i ∈ w.items) :
    namedItem? w i.id = some i := by
  have hresolve : (itemCandidates w).resolve? i.id = some i.id :=
    resolve?_of_mem (List.mem_map_of_mem hi) (htidy.item hi)
  rw [namedItem?, hresolve, Option.bind_some, h.item?_of_mem hi]

theorem perceivedItem_self (m : Messages) {w : World} (h : w.Intact) (htidy : w.Tidy) {i : Item}
    (hi : i ∈ w.items) (here : String) :
    ∃ refusal, perceivedItem m w here i.id =
      if isReachable i here then .ok i else .error refusal := by
  rw [perceivedItem, namedItem?_self h htidy hi]
  cases hheld : i.isHeld <;> cases hvisible : i.visible <;> cases hat : i.isAt here <;>
    simp [isReachable, hheld, hvisible, hat]

/-! ## Checks and what they let through -/

/-- The item of a name that can be taken, or the answer that refuses it. -/
def takable (m : Messages) (w : World) (here name : String) : Except (List Output) Item :=
  match (namedItem? w name).filter (·.isHeld) with
  | some i => .error [say m.alreadyHeld i.name]
  | none => do
    let i ← perceivedItem m w here name
    if i.movable then pure i else throw [say m.cannotTake i.name]

def droppable (m : Messages) (w : World) (name : String) : Except (List Output) Item :=
  match (namedItem? w name).filter (·.isHeld) with
  | some i => .ok i
  | none => .error [say m.notHeld (Text.trimmed name)]

def usable (m : Messages) (w : World) (here name : String) : Except (List Output) Item := do
  let i ← perceivedItem m w here name
  if i.onUse.isEmpty then throw [say m.cannotUse i.name] else pure i

/-- What is looked at: a person, or an item under the id for which it is counted. -/
inductive Sight where
  | item (id : String) (i : Item)
  | person (c : Character)

def sighted (m : Messages) (w : World) (here name : String) : Except (List Output) Sight :=
  match (itemCandidates w ++ peopleCandidates w).resolve? name with
  | none => .error (notFound m w here name)
  | some id =>
    if (w.item? id).isSome then (perceivedItem m w here id).map (.item id)
    else (perceivedCharacter m w here name (some id)).map .person

def addressable (m : Messages) (w : World) (here name : String) :
    Except (List Output) Character :=
  perceivedCharacter m w here name ((peopleCandidates w).resolve? name)

namespace Turn

variable {α : Type}

/-- What passes a check is carried out, and what does not is refused. -/
def decided (check : Except (List Output) α) (carryOut : α → Turn (List Output)) :
    Turn (List Output) :=
  match check with
  | .error refusal => pure refusal
  | .ok a => carryOut a

def takeUp (m : Messages) (i : Item) : Turn (List Output) := do
  ofStore (Store.set (i.id ++ ":owner") (.text playerId))
  event i.onTake (say m.taken i.name)

def putDown (m : Messages) (here : String) (i : Item) : Turn (List Output) := do
  ofStore (Store.set (i.id ++ ":owner") (.text here))
  event i.onDrop (say m.dropped i.name)

/-- Carries out the rules for the use of an item. -/
def applyRules (m : Messages) (i : Item) : Turn (List Output) := do
  match ← ofChange (fireFirst i.onUse) with
  | some told => pure (told.toList.flatMap tell)
  | none => pure [.message m.nothingHappens]

def lookAt : Sight → Turn (List Output)
  | .item id i => do
    let text ← ofScript (describe (← world) i.descriptions)
    countSight id
    let told ← ofChange (fireAll i.onSee)
    pure (tell text ++ told.flatMap tell)
  | .person c => do
    let text ← ofScript (describe (← world) c.descriptions)
    pure (tell text)

variable {m : Messages} {s : Stage} {here : Location}

theorem here_world_run (h : s.world.playerLocation? = some here) (f : Location → World → Turn α) :
    (do let l ← Turn.here; let w ← world; f l w) s = f here s.world s := by
  rw [run_bind, Lawful.here_run, h]
  rfl

theorem take_run (h : s.world.playerLocation? = some here) (name : String) :
    take m name s = decided (takable m s.world here.id name) (takeUp m) s := by
  unfold take
  rw [here_world_run h, takable]
  cases (namedItem? s.world name).filter (·.isHeld) with
  | some i => rfl
  | none =>
    cases perceivedItem m s.world here.id name with
    | error refusal => rfl
    | ok i =>
      dsimp only [bind, Except.bind]
      cases i.movable <;> rfl

theorem drop_run (h : s.world.playerLocation? = some here) (name : String) :
    drop m name s = decided (droppable m s.world name) (putDown m here.id) s := by
  unfold drop
  rw [here_world_run h, droppable]
  cases (namedItem? s.world name).filter (·.isHeld) <;> rfl

theorem use_run (h : s.world.playerLocation? = some here) (name : String) :
    use m name s = decided (usable m s.world here.id name) (applyRules m) s := by
  unfold use
  rw [here_world_run h, usable]
  cases perceivedItem m s.world here.id name with
  | error refusal => rfl
  | ok i =>
    dsimp only [bind, Except.bind]
    cases i.onUse.isEmpty <;> rfl

theorem see_run (h : s.world.playerLocation? = some here) (name : String) :
    see m name s = decided (sighted m s.world here.id name) lookAt s := by
  unfold see
  rw [here_world_run h, sighted]
  cases (itemCandidates s.world ++ peopleCandidates s.world).resolve? name with
  | none => rfl
  | some id =>
    dsimp only
    split
    · cases perceivedItem m s.world here.id id <;> rfl
    · cases perceivedCharacter m s.world here.id name (some id) <;> rfl

theorem talk_run (h : s.world.playerLocation? = some here) (name : String) :
    talk m name s =
      decided (addressable m s.world here.id name) (fun c => Dialogue.talk m c.id) s := by
  unfold talk
  rw [here_world_run h, addressable]
  cases perceivedCharacter m s.world here.id name ((peopleCandidates s.world).resolve? name) <;> rfl

end Turn

/-! ## What the checks let through -/

section

variable {m : Messages} {w : World} {i : Item} {c : Character}

theorem takable_self (h : w.Intact) (htidy : w.Tidy) (hi : i ∈ w.items) {here : String}
    (hhere : here ≠ playerId) {x : Item} :
    takable m w here i.id = .ok x ↔ x = i ∧ (i.visible && i.movable && i.isAt here) = true := by
  obtain ⟨refusal, hperceived⟩ := perceivedItem_self m h htidy hi here
  rw [takable, namedItem?_self h htidy hi]
  cases hheld : i.isHeld with
  | true =>
    -- what the player holds is not at the place
    have howner : i.owner = some playerId := by simpa [Item.isHeld] using hheld
    have hat : i.isAt here = false := by simpa [Item.isAt, howner] using hhere.symm
    simp [Option.filter, hheld, hat]
  | false =>
    simp only [Option.filter, hheld, Bool.false_eq_true, if_false, hperceived]
    cases hvisible : i.visible <;> cases hmovable : i.movable <;> cases hat : i.isAt here <;>
      simp [isReachable, hheld, hvisible, hmovable, hat, bind, Except.bind, pure, Except.pure,
        throw, throwThe, MonadExceptOf.throw, eq_comm]

theorem droppable_self (h : w.Intact) (htidy : w.Tidy) (hi : i ∈ w.items) {x : Item} :
    droppable m w i.id = .ok x ↔ x = i ∧ i.isHeld = true := by
  rw [droppable, namedItem?_self h htidy hi]
  cases hheld : i.isHeld <;> simp [Option.filter, hheld, eq_comm]

theorem usable_self (h : w.Intact) (htidy : w.Tidy) (hi : i ∈ w.items) {here : String} {x : Item} :
    usable m w here i.id = .ok x ↔ x = i ∧ (!i.onUse.isEmpty && isReachable i here) = true := by
  obtain ⟨refusal, hperceived⟩ := perceivedItem_self m h htidy hi here
  rw [usable, hperceived]
  cases hreachable : isReachable i here <;> cases hrules : i.onUse.isEmpty <;>
    simp [hrules, bind, Except.bind, pure, Except.pure, throw, throwThe, MonadExceptOf.throw,
      eq_comm]

theorem sighted_self (h : w.Intact) (htidy : w.Tidy) (hi : i ∈ w.items) {here : String}
    (hreachable : isReachable i here = true) : sighted m w here i.id = .ok (.item i.id i) := by
  have hresolve : (itemCandidates w ++ peopleCandidates w).resolve? i.id = some i.id :=
    resolve?_of_mem (List.mem_append_left _ (List.mem_map_of_mem hi)) (htidy.item hi)
  obtain ⟨refusal, hperceived⟩ := perceivedItem_self m h htidy hi here
  simp [sighted, hresolve, h.item?_of_mem hi, hperceived, hreachable, Except.map]

theorem addressable_self (h : w.Intact) (htidy : w.Tidy) (hc : c ∈ w.characters)
    (hother : c.id ≠ playerId) {here : String} {x : Character} :
    addressable m w here c.id = .ok x ↔ x = c ∧ c.visible = true ∧ c.location = some here := by
  have hresolve : (peopleCandidates w).resolve? c.id = some c.id := by
    refine resolve?_of_mem (List.mem_map_of_mem (List.mem_filter.mpr ⟨hc, ?_⟩))
      (htidy.character hc)
    simpa using hother
  rw [addressable, hresolve, perceivedCharacter, Option.bind_some, h.character?_of_mem hc]
  cases hvisible : c.visible with
  | false => simp [hvisible]
  | true => by_cases hlocation : c.location = some here <;> simp [hvisible, hlocation, eq_comm]

end

/-! ## What a section lists -/

/-- A section has a link for an action. -/
def Lists (w : World) (here : Location) (part : Section) (a : Action) : Prop :=
  ∃ html, sectionText w here part = .ok html ∧ a ∈ (linksIn html).map Link.perform

section

variable {w : World} {here : Location} (part : Section) (verb : Verb)

theorem lists_iff {α : Type} {xs : List α} {param label : α → String}
    (known : ∀ typed, verb ≠ .unknown typed)
    (h : sectionText w here part =
      .ok (bulletList (xs.map fun x => actionLink verb.word (param x) (label x)))) {name : String} :
    Lists w here part ⟨verb, .text name⟩ ↔ ∃ x ∈ xs, param x = name := by
  have hlinks : (xs.map fun x => actionLink verb.word (param x) (label x)) =
      (xs.map fun x => Offer.mk verb (param x) (label x)).map Offer.html := by
    rw [List.map_map]
    rfl
  have known : ∀ o ∈ xs.map fun x => Offer.mk verb (param x) (label x), o.IsKnown := by
    intro o ho
    obtain ⟨x, -, rfl⟩ := List.mem_map.mp ho
    exact known
  have hperform := (Carries.list none known).linksIn_text
  simp only [Lists, h, hlinks, Except.ok.injEq, exists_eq_left', hperform]
  simp [Offer.action]

/-- A section of items lists those that pass its test. -/
theorem lists_item_iff (hw : w.Intact) {keep : Item → Bool}
    (known : ∀ typed, verb ≠ .unknown typed)
    (h : sectionText w here part = .ok (itemLinks w verb.word keep)) {i : Item}
    (hi : i ∈ w.items) : Lists w here part ⟨verb, .text i.id⟩ ↔ keep i = true := by
  rw [lists_iff part verb known h]
  constructor
  · rintro ⟨j, hj, hid⟩
    obtain ⟨hj, hkeep⟩ := List.mem_filter.mp hj
    cases hw.eq_of_id (World.mem_items_iff.mpr hj) (World.mem_items_iff.mpr hi) hid
    exact hkeep
  · exact fun hkeep => ⟨i, List.mem_filter.mpr ⟨hi, hkeep⟩, rfl⟩

theorem lists_talk_iff (hw : w.Intact) {c : Character} (hc : c ∈ w.characters) :
    Lists w here .characters ⟨.talk, .text c.id⟩ ↔
      c.id ≠ playerId ∧ c.visible = true ∧ c.location = some here.id := by
  rw [lists_iff .characters .talk nofun rfl]
  constructor
  · rintro ⟨d, hd, hid⟩
    simp only [World.charactersAt, List.mem_filter, Bool.and_eq_true, bne_iff_ne, beq_iff_eq] at hd
    obtain ⟨⟨hd, hother, hlocation⟩, hvisible⟩ := hd
    cases hw.eq_of_id (World.mem_characters_iff.mpr hd) (World.mem_characters_iff.mpr hc) hid
    exact ⟨hother, hvisible, hlocation⟩
  · rintro ⟨hother, hvisible, hlocation⟩
    refine ⟨c, ?_, rfl⟩
    simp [World.charactersAt, hc, hother, hvisible, hlocation]

end

/-! ## Sessions -/

namespace Session

/-- A turn that is taken in a story and ends with its close. -/
def finish (s : Session) (t : Turn (List Output)) : Except StoryError (List Output) × Session :=
  let whole : Turn (List Output) := do
    let told ← t
    let closing ← Turn.conclude s.config
    pure (told ++ closing)
  let (result, stage) := whole s.stage
  (result, { s with stage := stage })

theorem finish_congr {s : Session} {t t' : Turn (List Output)} (h : t s.stage = t' s.stage) :
    s.finish t = s.finish t' := by
  simp only [finish, run_bind, h]

theorem handle_eq_finish {s : Session} (goes : s.isEnded = false) (a : Action) :
    s.handle a = s.finish (Turn.perform s.config.messages a) := by
  have hrun : Turn.handle s.config a s.stage =
      (if Story.isEnded s.config s.stage.world then Turn.conclude s.config
        else do
          let told ← Turn.perform s.config.messages a
          let closing ← Turn.conclude s.config
          pure (told ++ closing)) s.stage := rfl
  rw [handle, hrun, show Story.isEnded s.config s.stage.world = false from goes]
  rfl

/-- While the story goes on, a turn is what its action comes to, and its close. -/
theorem handle_of_perform {s : Session} (goes : s.isEnded = false) {a : Action}
    {t : Turn (List Output)} (h : Turn.perform s.config.messages a s.stage = t s.stage) :
    s.handle a = s.finish t :=
  (handle_eq_finish goes a).trans (finish_congr h)

/-- An action comes down to a check, which lets through one thing alone, and this exactly when the
section has a link for the action. -/
structure Agrees {α : Type} (s : Session) (here : Location) (part : Section) (a : Action)
    (check : Except (List Output) α) (carryOut : α → Turn (List Output)) (x : α) : Prop where
  handled : s.handle a = s.finish (Turn.decided check carryOut)
  listed : ∀ y, check = .ok y ↔ y = x ∧ Lists s.stage.world here part a

/-- **What is offered is what is permitted.** In a story that goes on, however it was played so far,
an item is listed to be taken, dropped or used exactly if that is not refused for its id, and a person
is listed exactly if talking to its id begins or goes on with a dialogue; whatever is listed to be
seen can be looked at. -/
theorem permitted_iff_listed {s₀ s : Session} (begins : s₀.Begins) (tidy : s₀.stage.world.Tidy)
    {actions : List Action} (played : s = s₀.after actions) (goes : s.isEnded = false) :
    ∃ here, s.stage.world.playerLocation? = some here ∧
      let m := s.config.messages
      let w := s.stage.world
      (∀ i ∈ w.items,
        s.Agrees here .take ⟨.take, .text i.id⟩ (takable m w here.id i.id) (Turn.takeUp m) i ∧
        s.Agrees here .drop ⟨.drop, .text i.id⟩ (droppable m w i.id) (Turn.putDown m here.id) i ∧
        s.Agrees here .use ⟨.use, .text i.id⟩ (usable m w here.id i.id) (Turn.applyRules m) i ∧
        (Lists w here .items ⟨.see, .text i.id⟩ →
          s.handle ⟨.see, .text i.id⟩ = s.finish (Turn.lookAt (.item i.id i)))) ∧
      ∀ c ∈ w.characters, c.id ≠ playerId →
        s.Agrees here .characters ⟨.talk, .text c.id⟩ (addressable m w here.id c.id)
          (fun c => Dialogue.talk m c.id) c := by
  have hw : s.stage.world.Intact := played ▸ intact_after begins.intact actions
  have htidy : s.stage.world.Tidy := by
    rw [played]
    exact (s₀.after_evolves actions).world.keeps (fun hstep h => hstep.tidy h) tidy
  obtain ⟨here, hplace⟩ := hw.exists_playerLocation?
  have hhere : here.id ≠ playerId := hw.location_id_ne (World.mem_of_playerLocation? hplace)
  refine ⟨here, hplace, fun i hi => ⟨?take, ?drop, ?use, ?see⟩, fun c hc hother => ?talk⟩
  case take =>
    refine ⟨handle_of_perform goes (Turn.take_run hplace _), fun y => ?_⟩
    rw [takable_self hw htidy hi hhere, lists_item_iff .take .take hw nofun rfl hi]
  case drop =>
    refine ⟨handle_of_perform goes (Turn.drop_run hplace _), fun y => ?_⟩
    rw [droppable_self hw htidy hi, lists_item_iff .drop .drop hw nofun rfl hi]
  case use =>
    refine ⟨handle_of_perform goes (Turn.use_run hplace _), fun y => ?_⟩
    rw [usable_self hw htidy hi, lists_item_iff .use .use hw nofun rfl hi]
  case see =>
    intro hlisted
    have hseen : (i.visible && i.isAt here.id) = true :=
      (lists_item_iff .items .see hw nofun rfl hi).mp hlisted
    have hreachable : isReachable i here.id = true := by simp [isReachable, hseen]
    have hsighted := sighted_self (m := s.config.messages) hw htidy hi hreachable
    refine handle_of_perform goes ((Turn.see_run hplace _).trans ?_)
    rw [Action.param, Param.words, hsighted]
    rfl
  case talk =>
    refine ⟨handle_of_perform goes (Turn.talk_run hplace _), fun y => ?_⟩
    rw [addressable_self hw htidy hc hother, lists_talk_iff hw hc]
    simp [hother]

/-- The lamp, once it was taken, is offered to be dropped, and can be. -/
theorem permitted_iff_listed_lampRoom :
    let s₀ := new (lampRoom "").world {}
    let s := s₀.after [⟨.take, .text "lamp"⟩]
    s₀.Begins ∧ s₀.stage.world.Tidy ∧ s.isEnded = false ∧
      ∃ here i, s.stage.world.items = [i] ∧ i.id = "lamp" ∧ i.isHeld = true ∧
        s.Agrees here .drop ⟨.drop, .text i.id⟩ (droppable s.config.messages s.stage.world i.id)
          (Turn.putDown s.config.messages here.id) i := by
  intro s₀ s
  have begins : s₀.Begins := .new (d := lampRoom "") rfl [] {}
  have tidy : s₀.stage.world.Tidy :=
    show ∀ id ∈ ["lamp", playerId], Text.trimmed id = id by decide
  have goes : s.isEnded = false := rfl
  have taken : ∃ i, s.stage.world.items = [i] ∧ i.id = "lamp" ∧ i.isHeld = true :=
    ⟨_, rfl, rfl, rfl⟩
  obtain ⟨i, hitems, hid, hheld⟩ := taken
  obtain ⟨here, -, items, -⟩ := permitted_iff_listed begins tidy rfl goes
  exact ⟨begins, tidy, goes, here, i, hitems, hid, hheld,
    (items i (hitems ▸ List.mem_cons_self)).2.1⟩

end Session

end Story

end Storyworld
