import Storyworld.Proofs.Story.Affordance

/-! # Things of the same name

A name is looked up among all items of the world, and only what it finds is asked whether the player
can reach it. Of several items of one name the first finds itself named (`Finds`), wherever it is: the
others can be reached by their ids alone. `found_decides` says what that comes to for every verb that
takes the name of an item.
-/

namespace Storyworld.Story

variable {m : Messages} {w : World} {here name : String} {i : Item}

/-! ## What a name finds -/

/-- Whether a name is the display name of an item, in any case. -/
def NameOf (name : String) (i : Item) : Prop :=
  Text.lowercase i.name = Text.lowercase (Text.trimmed name)

instance (name : String) (i : Item) : Decidable (NameOf name i) :=
  inferInstanceAs (Decidable (_ = _))

/-- The item that a name finds: the one that has it for an id, or else the first one that has it for a
display name, be it within reach or not. -/
inductive Finds (w : World) (name : String) (i : Item) : Prop
  | byId (mem : i ∈ w.items) (id : i.id = Text.trimmed name)
  | byName {before after : List Item} (noId : ∀ j ∈ w.items, j.id ≠ Text.trimmed name)
      (items : w.items = before ++ i :: after) (named : NameOf name i)
      (first : ∀ j ∈ before, ¬NameOf name j)

theorem Finds.mem (h : Finds w name i) : i ∈ w.items := by
  cases h with
  | byId mem id => exact mem
  | byName noId items named first => exact items ▸ List.mem_append_cons_self

/-- The name of an item finds something. -/
theorem exists_finds (hi : i ∈ w.items) (hname : NameOf name i) : ∃ found, Finds w name found := by
  by_cases hid : ∃ j ∈ w.items, j.id = Text.trimmed name
  · obtain ⟨j, hj, hid⟩ := hid
    exact ⟨j, .byId hj hid⟩
  · have noId : ∀ j ∈ w.items, j.id ≠ Text.trimmed name := fun j hj hjid => hid ⟨j, hj, hjid⟩
    have hsome : (w.items.find? fun j =>
        Text.lowercase j.name == Text.lowercase (Text.trimmed name)).isSome := by
      rw [List.find?_isSome]
      exact ⟨i, hi, beq_iff_eq.mpr hname⟩
    obtain ⟨found, hfound⟩ := Option.isSome_iff_exists.mp hsome
    obtain ⟨named, before, after, items, first⟩ := List.find?_eq_some_iff_append.mp hfound
    exact ⟨found, .byName noId items (beq_iff_eq.mp named) (by simpa [NameOf] using first)⟩

/-- A name is resolved to what it finds, among people as well unless it is the id of one. -/
theorem resolve?_of_finds (h : Finds w name i) {people : Candidates}
    (others : ∀ c ∈ people, c.1 ≠ Text.trimmed name) :
    (itemCandidates w ++ people).resolve? name = some i.id := by
  cases h with
  | byId mem id =>
    obtain ⟨found, hfound⟩ : ∃ found,
        (itemCandidates w ++ people).find? (·.1 == Text.trimmed name) = some found := by
      rw [← Option.isSome_iff_exists, List.find?_isSome]
      exact ⟨(i.id, i.name), List.mem_append_left _ (List.mem_map_of_mem mem), by simp [id]⟩
    have hid : found.1 = Text.trimmed name := by simpa using List.find?_some hfound
    simp only [Candidates.resolve?, hfound, hid, id]
  | @byName before after noId items named first =>
    have silent : (itemCandidates w ++ people).find? (·.1 == Text.trimmed name) = none := by
      rw [List.find?_eq_none]
      intro c hc
      rcases List.mem_append.mp hc with hc | hc
      · obtain ⟨j, hj, rfl⟩ := List.mem_map.mp hc
        simpa using noId j hj
      · simpa using others c hc
    have found : (itemCandidates w ++ people).find? (fun c =>
        Text.lowercase c.2 == Text.lowercase (Text.trimmed name)) = some (i.id, i.name) := by
      refine List.find?_eq_some_iff_append.mpr ⟨beq_iff_eq.mpr named,
        before.map fun j => (j.id, j.name), after.map (fun j => (j.id, j.name)) ++ people,
        by simp [itemCandidates, items], fun c hc => ?_⟩
      obtain ⟨j, hj, rfl⟩ := List.mem_map.mp hc
      simpa [NameOf] using first j hj
    simp only [Candidates.resolve?, silent, found, Option.map_some]

theorem namedItem?_of_finds (hw : w.Intact) (h : Finds w name i) : namedItem? w name = some i := by
  have hresolve : (itemCandidates w ++ []).resolve? name = some i.id :=
    resolve?_of_finds h fun _ hc => nomatch hc
  rw [List.append_nil] at hresolve
  rw [namedItem?, hresolve, Option.bind_some, hw.item?_of_mem h.mem]

/-! ## What is found is within reach or not -/

/-- An item that a name found, if the player can reach it, or else the answer that it is not here. -/
def withinReach (m : Messages) (w : World) (here name : String) (i : Item) :
    Except (List Output) Item :=
  if isReachable i here then .ok i
  else .error (if i.visible then [say m.notHere i.name] else notFound m w here name)

theorem perceivedItem_of_finds (m : Messages) (hw : w.Intact) (h : Finds w name i)
    (here : String) : perceivedItem m w here name = withinReach m w here name i := by
  rw [perceivedItem, namedItem?_of_finds hw h, withinReach]
  cases hvisible : i.visible <;> cases hheld : i.isHeld <;> cases hat : i.isAt here <;>
    simp [isReachable, hvisible, hheld, hat]

/-- An item within reach that can be taken, or the answer that it cannot. -/
def toTake (m : Messages) (i : Item) : Except (List Output) Item :=
  if i.isHeld then .error [say m.alreadyHeld i.name]
  else if i.movable then .ok i
  else .error [say m.cannotTake i.name]

/-- An item within reach that can be used, or the answer that it cannot. -/
def toUse (m : Messages) (i : Item) : Except (List Output) Item :=
  if i.onUse.isEmpty then .error [say m.cannotUse i.name] else .ok i

/-- An item that can be dropped, or the answer that it is not held. -/
def toDrop (m : Messages) (name : String) (i : Item) : Except (List Output) Item :=
  if i.isHeld then .ok i else .error [say m.notHeld (Text.trimmed name)]

theorem takable_of_finds (m : Messages) (hw : w.Intact) (h : Finds w name i) (here : String) :
    takable m w here name = withinReach m w here name i >>= toTake m := by
  rw [takable, namedItem?_of_finds hw h, perceivedItem_of_finds m hw h, withinReach]
  cases hheld : i.isHeld with
  | true =>
    have hreach : isReachable i here = true := by simp [isReachable, hheld]
    simp [Option.filter, hheld, hreach, toTake, bind, Except.bind]
  | false =>
    simp only [Option.filter, hheld, Bool.false_eq_true, if_false]
    cases hreach : isReachable i here with
    | true => simp [toTake, hheld, bind, Except.bind, pure, Except.pure, throw, throwThe,
        MonadExceptOf.throw]
    | false => rfl

theorem usable_of_finds (m : Messages) (hw : w.Intact) (h : Finds w name i) (here : String) :
    usable m w here name = withinReach m w here name i >>= toUse m := by
  rw [usable, perceivedItem_of_finds m hw h]
  rfl

theorem droppable_of_finds (m : Messages) (hw : w.Intact) (h : Finds w name i) :
    droppable m w name = toDrop m name i := by
  rw [droppable, namedItem?_of_finds hw h, toDrop]
  cases hheld : i.isHeld <;> simp [Option.filter, hheld]

/-- What is seen is found once more by its id. -/
theorem sighted_of_finds (m : Messages) (hw : w.Intact) (h : Finds w name i)
    (others : ∀ c ∈ w.characters, c.id ≠ Text.trimmed name) (htrim : Text.trimmed i.id = i.id)
    (here : String) :
    sighted m w here name = (withinReach m w here i.id i).map (.item i.id) := by
  have hresolve : (itemCandidates w ++ peopleCandidates w).resolve? name = some i.id := by
    refine resolve?_of_finds h fun c hc => ?_
    obtain ⟨p, hp, rfl⟩ := List.mem_map.mp hc
    exact others p (List.mem_filter.mp hp).1
  have again : Finds w i.id i := .byId h.mem htrim.symm
  simp only [sighted, hresolve, hw.item?_of_mem h.mem, Option.isSome_some, if_true,
    perceivedItem_of_finds m hw again]

/-! ## Sessions -/

namespace Session

/-- **What a name finds decides.** In a story that goes on, however it was played so far, the name of an
item finds one item, and whether the player can reach this one decides, whatever other items have the
name: to take, use or see it is refused as not being here exactly if it is out of reach, and to drop
it exactly if it is not held. -/
theorem found_decides {s₀ s : Session} (begins : s₀.Begins) {actions : List Action}
    (played : s = s₀.after actions) (goes : s.isEnded = false) {name : String} {i : Item}
    (hi : i ∈ s.stage.world.items) (named : NameOf name i) :
    ∃ here found, s.stage.world.playerLocation? = some here ∧ Finds s.stage.world name found ∧
      let m := s.config.messages
      let reached := withinReach m s.stage.world here.id name found
      s.handle ⟨.take, .text name⟩ = s.finish (Turn.decided (reached >>= toTake m) (Turn.takeUp m)) ∧
      s.handle ⟨.use, .text name⟩ = s.finish (Turn.decided (reached >>= toUse m) (Turn.applyRules m)) ∧
      s.handle ⟨.drop, .text name⟩ =
        s.finish (Turn.decided (toDrop m name found) (Turn.putDown m here.id)) ∧
      ((∀ c ∈ s.stage.world.characters, c.id ≠ Text.trimmed name) →
        Text.trimmed found.id = found.id →
        s.handle ⟨.see, .text name⟩ = s.finish (Turn.decided
          ((withinReach m s.stage.world here.id found.id found).map (.item found.id))
          Turn.lookAt)) := by
  have hw : s.stage.world.Intact := played ▸ intact_after begins.intact actions
  obtain ⟨here, hplace⟩ := hw.exists_playerLocation?
  obtain ⟨found, hfound⟩ := exists_finds hi named
  refine ⟨here, found, hplace, hfound, ?take, ?use, ?drop, fun others htrim => ?see⟩
  case take =>
    rw [← takable_of_finds s.config.messages hw hfound here.id]
    exact handle_of_perform goes (Turn.take_run hplace name)
  case use =>
    rw [← usable_of_finds s.config.messages hw hfound here.id]
    exact handle_of_perform goes (Turn.use_run hplace name)
  case drop =>
    rw [← droppable_of_finds s.config.messages hw hfound]
    exact handle_of_perform goes (Turn.drop_run hplace name)
  case see =>
    rw [← sighted_of_finds s.config.messages hw hfound others htrim here.id]
    exact handle_of_perform goes (Turn.see_run hplace name)

/-- A lamp that is found by its name and lies within reach is taken. -/
theorem found_decides_lampRoom :
    let s := new (lampRoom "").world {}
    s.Begins ∧ s.isEnded = false ∧
      ∃ i ∈ s.stage.world.items, NameOf " LAMP" i ∧
        s.handle ⟨.take, .text " LAMP"⟩ =
          s.finish (Turn.decided (.ok i) (Turn.takeUp s.config.messages)) := by
  intro s
  have begins : s.Begins := .new (d := lampRoom "") rfl [] {}
  have cell : s.stage.world.playerLocation?.map (·.id) = some "cell" := rfl
  have lamps : ∀ i ∈ s.stage.world.items, NameOf " LAMP" i ∧ isReachable i "cell" = true ∧
      i.isHeld = false ∧ i.movable = true := by decide +kernel
  obtain ⟨i, hi⟩ : ∃ i, i ∈ s.stage.world.items := ⟨_, List.mem_cons_self⟩
  obtain ⟨here, found, hplace, hfound, htake, -⟩ :=
    found_decides begins (show s = s.after [] from rfl) rfl hi (lamps i hi).1
  obtain ⟨named, reachable, hheld, hmovable⟩ := lamps found hfound.mem
  have hcell : here.id = "cell" := by
    rw [hplace] at cell
    exact Option.some.inj cell
  rw [withinReach, hcell, if_pos reachable] at htake
  have taken : (Except.ok found >>= toTake s.config.messages) = .ok found := by
    simp [toTake, hheld, hmovable, bind, Except.bind]
  rw [taken] at htake
  exact ⟨begins, rfl, found, hfound.mem, named, htake⟩

/-- A room with two lamps of one name, of which the first cannot be seen. -/
def pairRoom : Document :=
  { lampRoom "" with
    items := [⟨"old", "Lamp", some "cell", some (.bool false), none, [], [], [], [], [], .nil⟩,
      ⟨"lamp", "Lamp", some "cell", none, none, [], [], [], [], [], .nil⟩] }

/-- The second lamp lies in front of the player, and by its name it can neither be taken nor, once the
player has it, be dropped: what is found is the first one. -/
theorem not_found_pairRoom :
    let s := new pairRoom.world {}
    let held := s.after [⟨.take, .text "lamp"⟩]
    World.load pairRoom = .ok pairRoom.world ∧ s.isEnded = false ∧ held.isEnded = false ∧
      (∀ e ∈ s.stage.world.entities, e.id ≠ "Lamp") ∧
      (∃ i ∈ s.stage.world.items, NameOf "Lamp" i ∧ isReachable i "cell" = true) ∧
      ((s.handle ⟨.take, .text "Lamp"⟩).1.toOption.getD []).take 2 =
        [.message "There is no Lamp here.", .message "Did you mean Lamp?"] ∧
      (∃ i ∈ held.stage.world.items, NameOf "Lamp" i ∧ i.isHeld = true) ∧
      ((held.handle ⟨.drop, .text "Lamp"⟩).1.toOption.getD []).take 1 =
        [.message "You are not carrying Lamp."] :=
  ⟨rfl, rfl, by decide +kernel, by decide +kernel, by decide +kernel, by decide +kernel,
    by decide +kernel, by decide +kernel⟩

end Session

end Storyworld.Story
