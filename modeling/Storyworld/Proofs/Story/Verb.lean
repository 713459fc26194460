import Storyworld.Proofs.Story.Exit

/-! # What a verb changes

What an action does to the stage is up to the author where rules or a dialogue belong to it. Where
there are none, it is up to the verb: `Action.Touches` lists all there is, which is the place of the
player, the owner of the item that is named, or the count of its sightings, and
`touches_of_isPlain` says that nothing else changes, whether the action succeeds or fails.
-/

namespace Storyworld

/-! ## Counted sightings -/

/-- How often an item was seen, as its attributes tell. -/
def Item.sightings (i : Item) : Float :=
  match (Attribute.map i.attributes).read ["onSee", "count"] with
  | .ok v => v.toNumber?.getD 0.0
  | .error _ => 0.0

/-- One item turned into another by counting that it was seen: along other branches of its
attributes, everything reads as before. -/
structure Item.Counted (i i' : Item) : Prop where
  only : i' = { i with attributes := i'.attributes }
  count : (Attribute.map i'.attributes).read ["onSee", "count"] =
    .ok (.number (i.sightings + 1.0))
  elsewhere : ∀ keys, ¬["onSee", "count"] <+: keys → ¬keys <+: ["onSee", "count"] →
    (Attribute.map i'.attributes).read keys = (Attribute.map i.attributes).read keys

/-- Counting reads the count, or puts a first one, and writes the next; or it fails and has changed
nothing. -/
theorem Store.count_run {w : World} (hw : w.Intact) {i : Item} (hi : i ∈ w.items)
    (htrim : Text.trimmed i.id = i.id) :
    (∃ fault, getOrSet (i.id ++ ":onSee:count") (.number 0.0) w = (.error fault, w)) ∨
      ∃ seen w₁ i', getOrSet (i.id ++ ":onSee:count") (.number 0.0) w = (.ok seen, w₁) ∧
        set (i.id ++ ":onSee:count") (.number (seen.toNumber?.getD 0.0 + 1.0)) w₁ =
          (.ok (), w.replace (.item i')) ∧ i.Counted i' := by
  have hmem := World.mem_items_iff.mpr hi
  have hp := Path.ofText?_count (hw.ids _ (List.mem_map_of_mem hmem))
  have hfind : w.find? (Text.trimmed i.id) = some (.item i) := htrim.symm ▸ hw.find?_of_mem hmem
  have hget := getOrSet_of_attribute ⟨hp, rfl, hfind, rfl⟩ (.number 0.0)
  rcases hgot : Attributes.Change.atEnd (.getOrPut (.number 0.0)) "onSee" ["count"] i.attributes with
    ⟨result, as⟩
  simp only [inAttributes, Entity.attributes, hgot] at hget
  cases result with
  | error fault =>
    have hclean := Attributes.Change.Clean.atEnd (Attributes.Change.getOrPut_clean (.number 0.0))
      "onSee" ["count"]
    have hsame : w.replace ((Entity.item i).withAttributes as) = w := by
      rw [hclean.untouched hgot]
      exact hw.replace_of_find? hfind
    exact .inl ⟨_, hget.trans (by rw [hsame]; rfl)⟩
  | ok seen =>
    obtain ⟨bs, hput⟩ := Attributes.Change.atEnd_put_of_getOrPut hgot
      (.number (seen.toNumber?.getD 0.0 + 1.0))
    have hfind₁ : (w.replace ((Entity.item i).withAttributes as)).find? (Text.trimmed i.id) =
        some ((Entity.item i).withAttributes as) := World.find?_replace_self hfind rfl rfl
    have hset := set_of_attribute ⟨hp, rfl, hfind₁, rfl⟩ (.number (seen.toNumber?.getD 0.0 + 1.0))
    simp only [inAttributes, Entity.attributes_withAttributes, hput] at hset
    refine .inr ⟨seen, _, { i with attributes := bs }, hget, ?_, rfl, ?_, fun keys hbelow habove => ?_⟩
    · exact hset.trans (congrArg (Prod.mk _) (World.replace_replace rfl rfl))
    · have hseen : i.sightings = seen.toNumber?.getD 0.0 := by
        obtain hread | ⟨hread, rfl⟩ := Attributes.Change.read_of_atEnd_getOrPut hgot
        · rw [Item.sightings, hread]
        · rw [Item.sightings, hread]
          rfl
      rw [hseen]
      exact Attributes.Change.read_atEnd_put hput
    · have hgotten := Attributes.Change.read_atEnd_of_not_prefix
        (Attributes.Change.getOrPut_local _) hgot hbelow habove
      have hwritten := Attributes.Change.read_atEnd_of_not_prefix
        (Attributes.Change.put_local _) hput hbelow habove
      exact hwritten.trans hgotten

namespace Story

variable {m : Messages} {w w' : World} {i : Item} {here : Location}

/-! ## Changes that belong to a verb -/

/-- The item that a name is looked up as when it is to be seen. -/
def seenItem? (w : World) (name : String) : Option Item :=
  ((itemCandidates w ++ peopleCandidates w).resolve? name).bind w.item?

/-- No rules of the author belong to an action, and no dialogue. -/
def Action.IsPlain (w : World) (a : Action) : Prop :=
  match a.verb with
  | .take => ∀ i, namedItem? w a.param.words = some i → i.onTake = []
  | .drop => ∀ i, namedItem? w a.param.words = some i → i.onDrop = []
  | .see => ∀ i, seenItem? w a.param.words = some i → i.onSee = []
  | .use | .talk | .choose => False
  | .start | .look | .go | .inventory | .unknown _ => True

/-- What an action may do to a world by its verb alone, for a player at a location. -/
inductive Action.Touches (w : World) (here : Location) (a : Action) : World → Prop
  | nothing : Touches w here a w
  | goes {p : Character} {c : Connection} (verb : a.verb = .go) (player : w.player? = some p)
      (exit : c ∈ here.connections) :
      Touches w here a (w.replace (.character { p with location := some c.target }))
  | takes {i : Item} (verb : a.verb = .take) (named : namedItem? w a.param.words = some i)
      (visible : i.visible = true) (movable : i.movable = true) (near : i.isAt here.id = true) :
      Touches w here a (w.replace (.item { i with owner := some playerId }))
  | drops {i : Item} (verb : a.verb = .drop) (named : namedItem? w a.param.words = some i)
      (held : i.isHeld = true) :
      Touches w here a (w.replace (.item { i with owner := some here.id }))
  | sees {i i' : Item} (verb : a.verb = .see) (named : seenItem? w a.param.words = some i)
      (counted : i.Counted i') : Touches w here a (w.replace (.item i'))

/-! ## What the checks let through -/

theorem takable_eq_ok {here name : String} (h : takable m w here name = .ok i) :
    namedItem? w name = some i ∧ i.visible = true ∧ i.movable = true ∧ i.isAt here = true := by
  rw [takable, perceivedItem] at h
  cases hnamed : namedItem? w name with
  | none =>
    rw [hnamed] at h
    cases h
  | some j =>
    rw [hnamed] at h
    cases hheld : j.isHeld <;> cases hvisible : j.visible <;> cases hmovable : j.movable <;>
      cases hat : j.isAt here <;>
      simp [Option.filter, isReachable, hheld, hvisible, hmovable, hat, bind, Except.bind, pure,
        Except.pure, throw, throwThe, MonadExceptOf.throw] at h
    subst h
    exact ⟨rfl, hvisible, hmovable, hat⟩

theorem droppable_eq_ok {name : String} (h : droppable m w name = .ok i) :
    namedItem? w name = some i ∧ i.isHeld = true := by
  unfold droppable at h
  split at h
  · rename_i j hnamed
    cases h
    exact Option.filter_eq_some_iff.mp hnamed
  · cases h

/-- What passes the check to be seen is seen under its id. -/
theorem sighted_eq_ok {here name id : String} (hw : w.Intact) (htidy : w.Tidy)
    (h : sighted m w here name = .ok (.item id i)) :
    seenItem? w name = some i ∧ id = i.id := by
  unfold sighted at h
  cases hresolve : (itemCandidates w ++ peopleCandidates w).resolve? name with
  | none =>
    rw [hresolve] at h
    cases h
  | some found =>
    simp only [hresolve] at h
    cases hitem : w.item? found with
    | none =>
      simp only [hitem, Option.isSome_none] at h
      cases hperson : perceivedCharacter m w here name (some found) <;> rw [hperson] at h <;> cases h
    | some j =>
      simp only [hitem, Option.isSome_some, if_true] at h
      have hj : j ∈ w.items := List.mem_of_find?_eq_some hitem
      obtain rfl : j.id = found := by simpa using List.find?_some hitem
      obtain ⟨refusal, hperceived⟩ := perceivedItem_self m hw htidy hj here
      rw [hperceived] at h
      split at h <;> cases h
      exact ⟨by rw [seenItem?, hresolve, Option.bind_some, hitem], rfl⟩

theorem mem_of_seenItem? {name : String} (h : seenItem? w name = some i) : i ∈ w.items := by
  obtain ⟨id, -, hitem⟩ := Option.bind_eq_some_iff.mp h
  exact List.mem_of_find?_eq_some hitem

/-! ## The parts of a turn -/

namespace Turn

variable {α β : Type} {s : Stage}

/-- What leaves the stage as it is does not matter behind what changes it. -/
theorem bind_stage {t : Turn α} {f : α → Turn β} (h : ∀ a s, (f a s).2 = s) (s : Stage) :
    ((t >>= f) s).2 = (t s).2 := by
  rw [run_bind]
  rcases t s with ⟨result, after⟩
  cases result with
  | error fault => rfl
  | ok a => exact h a after

theorem ofStore_stage (call : Store α) (s : Stage) :
    (ofStore call s).2 = { s with world := (call s.world).2 } := rfl

theorem start_stage (s : Stage) : (start s).2 = s := by
  unfold start
  rw [Dialogue.run_world_bind]
  exact (bind_stage (fun _ _ => rfl) s).trans (look_stage s)

theorem inventory_stage (m : Messages) (s : Stage) : (inventory m s).2 = s := by
  unfold inventory
  rw [Dialogue.run_world_bind]
  split <;> rfl

theorem lookAt_person_stage (c : Character) (s : Stage) : (lookAt (.person c) s).2 = s := by
  rw [lookAt, Dialogue.run_world_bind, bind_stage (fun _ _ => rfl)]
  rfl

/-- Where an item has no rules, looking at it counts a sighting, unless it cannot be described. -/
theorem lookAt_item_stage (id : String) (rules : i.onSee = []) (s : Stage) :
    (lookAt (.item id i) s).2 = s ∨ (lookAt (.item id i) s).2 = (countSight id s).2 := by
  rw [lookAt, Dialogue.run_world_bind, run_bind, Dialogue.run_ofScript]
  cases describe s.world i.descriptions with
  | error fault => exact .inl rfl
  | ok text =>
    refine .inr (bind_stage (fun _ s => ?_) s)
    rw [rules]
    rfl

/-- A check refuses without changing anything. -/
theorem decided_stage {check : Except (List Output) α} {carryOut : α → Turn (List Output)}
    {P : Stage → Prop} (refused : P s) (passed : ∀ a, check = .ok a → P (carryOut a s).2) :
    P (decided check carryOut s).2 := by
  cases hcheck : check with
  | error refusal => exact refused
  | ok a => exact passed a hcheck

section

variable (hw : s.world.Intact) (hi : i ∈ s.world.items) (htrim : Text.trimmed i.id = i.id)

include hw hi htrim

/-- Where an item has no rules, placing it changes its owner. -/
theorem place_stage {owner : String} (howner : s.world.IsPlace owner ∨ s.world.IsPerson owner)
    {rules : List Rule} (hrules : rules = []) (plain : Output) :
    ((do ofStore (Store.set (i.id ++ ":owner") (.text owner)); event rules plain :
        Turn (List Output)) s).2 =
      { s with world := s.world.replace (.item { i with owner := some owner }) } := by
  subst hrules
  rw [bind_stage (fun _ _ => rfl), ofStore_stage, Store.set_owner_run hw hi htrim howner]

/-- Counting a sighting succeeds and counts, or fails and changes nothing. -/
theorem countSight_stage :
    (countSight i.id s).2 = s ∨
      ∃ i', i.Counted i' ∧ (countSight i.id s).2 = { s with world := s.world.replace (.item i') } := by
  unfold countSight
  rw [run_bind, ofStore]
  obtain ⟨fault, hget⟩ | ⟨seen, w₁, i', hget, hset, hcounted⟩ := Store.count_run hw hi htrim
  · rw [hget]
    exact .inl rfl
  · rw [hget]
    refine .inr ⟨i', hcounted, ?_⟩
    change (ofStore (Store.set _ _) { s with world := w₁ }).2 = _
    rw [ofStore_stage, hset]

end

/-! ## What an action does to the stage -/

section

variable (hw : s.world.Intact) (htidy : s.world.Tidy)
  (hplace : s.world.playerLocation? = some here) {a : Action} (plain : a.IsPlain s.world)

/-- What a turn for an action leaves is what the verb of the action may do. -/
def Leaves (s : Stage) (here : Location) (a : Action) (after : Stage) : Prop :=
  ∃ w', after = { s with world := w' } ∧ a.Touches s.world here w'

include hw hplace

theorem go_leaves (verb : a.verb = .go) : Leaves s here a (go m a.param.words s).2 := by
  obtain ⟨p, hp, hgo⟩ := go_stage m hw hplace a.param.words
  refine ⟨_, hgo, ?_⟩
  rw [destination]
  cases hexit : exit? s.world here a.param.words with
  | some taken => exact .goes verb hp (List.mem_of_find?_eq_some hexit)
  | none =>
    dsimp only
    rw [hw.replace_player_here hplace hp]
    exact .nothing

include htidy plain

theorem take_leaves (verb : a.verb = .take) : Leaves s here a (take m a.param.words s).2 := by
  simp only [Action.IsPlain, verb] at plain
  rw [take_run hplace]
  refine decided_stage (P := Leaves s here a) ⟨_, rfl, .nothing⟩ fun i hpassed => ?_
  obtain ⟨hnamed, hvisible, hmovable, hnear⟩ := takable_eq_ok hpassed
  have hi : i ∈ s.world.items := mem_of_namedItem? hnamed
  have hplaced := place_stage hw hi (htidy.item hi) (.inr hw.player) (plain i hnamed)
  exact ⟨_, hplaced _, .takes verb hnamed hvisible hmovable hnear⟩

theorem drop_leaves (verb : a.verb = .drop) : Leaves s here a (drop m a.param.words s).2 := by
  simp only [Action.IsPlain, verb] at plain
  rw [drop_run hplace]
  refine decided_stage (P := Leaves s here a) ⟨_, rfl, .nothing⟩ fun i hpassed => ?_
  obtain ⟨hnamed, hheld⟩ := droppable_eq_ok hpassed
  have hi : i ∈ s.world.items := mem_of_namedItem? hnamed
  have howner : s.world.IsPlace here.id := ⟨here, World.mem_of_playerLocation? hplace, rfl⟩
  have hplaced := place_stage hw hi (htidy.item hi) (.inl howner) (plain i hnamed)
  exact ⟨_, hplaced _, .drops verb hnamed hheld⟩

theorem see_leaves (verb : a.verb = .see) : Leaves s here a (see m a.param.words s).2 := by
  simp only [Action.IsPlain, verb] at plain
  rw [see_run hplace]
  refine decided_stage (P := Leaves s here a) ⟨_, rfl, .nothing⟩ fun sight hpassed => ?_
  cases sight with
  | person c =>
    rw [lookAt_person_stage]
    exact ⟨_, rfl, .nothing⟩
  | item id i =>
    obtain ⟨hseen, rfl⟩ := sighted_eq_ok hw htidy hpassed
    have hi : i ∈ s.world.items := mem_of_seenItem? hseen
    obtain hlook | hlook := lookAt_item_stage i.id (plain i hseen) s
    · exact ⟨_, hlook, .nothing⟩
    · obtain hcount | ⟨i', hcounted, hcount⟩ := countSight_stage hw hi (htidy.item hi)
      · exact ⟨_, hlook.trans hcount, .nothing⟩
      · exact ⟨_, hlook.trans hcount, .sees verb hseen hcounted⟩

/-- An action without rules and dialogue does what its verb may do. -/
theorem perform_leaves : Leaves s here a (perform m a s).2 := by
  unfold perform
  cases hverb : a.verb with
  | start => exact ⟨_, start_stage s, .nothing⟩
  | look => exact ⟨_, look_stage s, .nothing⟩
  | inventory => exact ⟨_, inventory_stage m s, .nothing⟩
  | unknown typed => exact ⟨_, rfl, .nothing⟩
  | go => exact go_leaves hw hplace hverb
  | see => exact see_leaves hw htidy hplace plain hverb
  | take => exact take_leaves hw htidy hplace plain hverb
  | drop => exact drop_leaves hw htidy hplace plain hverb
  | use | talk | choose => simp [Action.IsPlain, hverb] at plain

end

end Turn

namespace Session

/-- **Each verb changes only what it is about.** In a story that goes on, however it was played so
far, an action without rules and dialogue moves the player along an exit, takes what lies in sight,
puts down what was held, or counts what was seen; all else stays as it was, the dialogues included,
whether the action succeeds or fails. -/
theorem touches_of_isPlain {s₀ s : Session} (begins : s₀.Begins) (tidy : s₀.stage.world.Tidy)
    {actions : List Action} (played : s = s₀.after actions) (goes : s.isEnded = false) {a : Action}
    (plain : a.IsPlain s.stage.world) :
    ∃ here w', s.stage.world.playerLocation? = some here ∧
      (s.handle a).2 = { s with stage := { s.stage with world := w' } } ∧
      a.Touches s.stage.world here w' := by
  have hw : s.stage.world.Intact := played ▸ intact_after begins.intact actions
  have htidy : s.stage.world.Tidy := by
    rw [played]
    exact (s₀.after_evolves actions).world.keeps (fun hstep h => hstep.tidy h) tidy
  obtain ⟨here, hplace⟩ := hw.exists_playerLocation?
  obtain ⟨w', hafter, htouches⟩ := Turn.perform_leaves (m := s.config.messages) hw htidy hplace plain
  refine ⟨here, w', hplace, ?_, htouches⟩
  rw [handle_eq_finish goes, finish_stage, hafter]

/-- The lamp, once it was taken, is put down in the room, and nothing else changes. -/
theorem touches_of_isPlain_lampRoom :
    let s₀ := new (lampRoom "").world {}
    let s := s₀.after [⟨.take, .text "lamp"⟩]
    s₀.Begins ∧ s₀.stage.world.Tidy ∧ s.isEnded = false ∧
      Action.IsPlain s.stage.world ⟨.drop, .text "lamp"⟩ ∧
      ∃ here w', s.stage.world.playerLocation? = some here ∧
        (s.handle ⟨.drop, .text "lamp"⟩).2 = { s with stage := { s.stage with world := w' } } ∧
        Action.Touches s.stage.world here ⟨.drop, .text "lamp"⟩ w' := by
  intro s₀ s
  have begins : s₀.Begins := .new (d := lampRoom "") rfl [] {}
  have tidy : s₀.stage.world.Tidy :=
    show ∀ id ∈ ["lamp", playerId], Text.trimmed id = id by decide
  have goes : s.isEnded = false := rfl
  have plain : Action.IsPlain s.stage.world ⟨.drop, .text "lamp"⟩ := by
    rintro i hnamed
    cases (show namedItem? s.stage.world "lamp" = some _ from rfl).symm.trans hnamed
    rfl
  exact ⟨begins, tidy, goes, plain, touches_of_isPlain begins tidy rfl goes plain⟩

end Session

end Story

end Storyworld
