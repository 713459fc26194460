import Storyworld.Proofs.Story.Answer
import Storyworld.Proofs.Story.Effects
import Storyworld.Proofs.World.Address

/-! # Why a turn fails

A turn fails as a script does that stands in the world, or because a write of its own does not
reach the item that it is for (`Unreached`). One lemma for each function says so, up to
`handle_within`, and with it that a turn creates no variable but through a script.
-/

namespace Storyworld

open Script Terminal

/-- References are intact, and all scripts are in the library. -/
structure World.Governed (lib : Library) (w : World) : Prop where
  intact : w.Intact
  covered : w.Covered lib

namespace World.Governed

variable {lib : Library} {w w' : World}

theorem evolves (h : w.Governed lib) (he : w.Evolves w') : w'.Governed lib :=
  ⟨he.intact h.intact, he.covered h.covered⟩

theorem item (h : w.Governed lib) {i : Item} (hi : i ∈ w.items) : i.Covered lib :=
  h.covered _ (mem_items_iff.mpr hi)

theorem character (h : w.Governed lib) {id : String} {c : Character}
    (hc : w.character? id = some c) : c.Covered lib :=
  h.covered _ (mem_characters_iff.mpr (List.mem_of_find?_eq_some hc))

theorem location (h : w.Governed lib) {l : Location} (hl : l ∈ w.locations) :
    ∀ d ∈ l.descriptions, d.Covered lib :=
  h.covered _ (mem_locations_iff.mpr hl)

theorem ending (h : w.Governed lib) {id : String} {e : Ending} (he : w.ending? id = some e) :
    ∀ d ∈ e.descriptions, d.Covered lib :=
  h.covered _ (mem_endings_iff.mpr (List.mem_of_find?_eq_some he))

end World.Governed

theorem World.mem_of_playerLocation? {w : World} {l : Location} (h : w.playerLocation? = some l) :
    l ∈ w.locations := by
  obtain ⟨p, -, hp⟩ := Option.bind_eq_some_iff.mp h
  obtain ⟨place, -, hplace⟩ := Option.bind_eq_some_iff.mp hp
  exact List.mem_of_find?_eq_some hplace

namespace Story

/-- A write of a turn's own does not reach the item that it is for: a path reads the id of the item
without the blanks around it and nothing has that id, or the attribute tree that is found has
something else in the place of the counter. -/
inductive Unreached (w : World) (verb : Verb) : WorldError → Prop
  | absent {i : Item} (writes : verb = .see ∨ verb = .take ∨ verb = .drop) (mem : i ∈ w.items)
      (nothing : w.find? (Text.trimmed i.id) = none) :
      Unreached w verb (.unknownEntity (Text.trimmed i.id))
  | barred {i : Item} {e : Entity} {fault : AccessFault} (counts : verb = .see) (mem : i ∈ w.items)
      (found : w.find? (Text.trimmed i.id) = some e)
      (read : (Attribute.map e.attributes).read ["onSee", "count"] = .error fault)
      (occupied : fault ≠ .absent) : Unreached w verb (fault.error (i.id ++ ":onSee:count"))

/-- The fault of a turn: one that a script of the library raises, or one of the turn's own. -/
inductive Fault (lib : Library) (own : WorldError → Prop) (w : World) : StoryError → Prop
  | script {cause : ScriptError} (raised : lib.RaisesFrom w cause) : Fault lib own w (.script cause)
  | world {cause : WorldError} (h : own cause) : Fault lib own w (.world cause)

namespace Turn

/-- What a turn may do whose scripts are all in the library. -/
def limits (lib : Library) (own : WorldError → Prop) : Limits Stage StoryError where
  step s s' := s.world.Grows lib.Creates s'.world
  fault s := Fault lib own s.world
  refl s := .refl s.world
  trans := .trans
  later hgrows h := by
    cases h with
    | script raised => exact .script (raised.later hgrows.evolves)
    | world h => exact .world h

variable {lib : Library} {own : WorldError → Prop} {α : Type} {s : Stage}

/-! ## The parts of a turn -/

theorem world_bind_within {L : Limits Stage StoryError} {f : World → Turn α}
    (h : Within L (f s.world) s) : Within L (world >>= f) s :=
  ⟨h.step, h.fault⟩

theorem here_bind_within (hs : s.world.Intact) {L : Limits Stage StoryError}
    {f : Location → Turn α} (h : ∀ l, s.world.playerLocation? = some l → Within L (f l) s) :
    Within L (here >>= f) s := by
  obtain ⟨l, hl⟩ := hs.exists_playerLocation?
  have hrun : (here >>= f) s = f l s := by rw [run_bind, Lawful.here_run, hl]
  exact ⟨hrun ▸ (h l hl).step, hrun ▸ (h l hl).fault⟩

theorem ofScript_within {e : Except ScriptError α}
    (h : ∀ cause, e = .error cause → lib.Raises s.world cause) :
    Within (limits lib own) (Turn.ofScript e) s := by
  refine ⟨.refl s.world, fun fault hfault => ?_⟩
  rw [Dialogue.run_ofScript] at hfault
  cases e <;> cases hfault
  exact .script (h _ rfl).now

theorem ofChange_within {change : Change α} (h : Within lib.changes change s.world) :
    Within (limits lib own) (Turn.ofChange change) s := by
  refine ⟨h.step, fun fault hfault => ?_⟩
  change (change s.world).1.mapError StoryError.script = _ at hfault
  cases hrun : (change s.world).1 <;> rw [hrun] at hfault <;> cases hfault
  exact .script (h.fault _ hrun)

theorem ofStore_within {call : Store α} (hgrows : s.world.Grows lib.Creates (call s.world).2)
    (h : ∀ cause, (call s.world).1 = .error cause → own cause) :
    Within (limits lib own) (Turn.ofStore call) s := by
  refine ⟨hgrows, fun fault hfault => ?_⟩
  change (call s.world).1.mapError StoryError.world = _ at hfault
  cases hrun : (call s.world).1 <;> rw [hrun] at hfault <;> cases hfault
  exact .world (h _ hrun)

theorem ofStore_eq_ok {call : Store α} {a : α} {s' : Stage}
    (h : Turn.ofStore call s = (.ok a, s')) : call s.world = (.ok a, s'.world) := by
  unfold Turn.ofStore at h
  rcases hrun : call s.world with ⟨result, w⟩
  rw [hrun] at h
  cases result <;> cases h
  rfl

theorem await_within (character entry : String) :
    Within (limits lib own) (Turn.await character entry) s :=
  ⟨.refl s.world, fun _ h => nomatch h⟩

theorem release_within (character : String) :
    Within (limits lib own) (Turn.release character) s :=
  ⟨.refl s.world, fun _ h => nomatch h⟩

/-! ## Going and looking -/

theorem look_within (hs : s.world.Governed lib) : Within (limits lib own) look s := by
  refine here_bind_within hs.intact fun here hhere => world_bind_within ?_
  have hcovered := hs.location (World.mem_of_playerLocation? hhere)
  exact (ofScript_within fun _ => raises_of_describe hcovered).bind fun _ _ _ _ => .pure _

theorem start_within (hs : s.world.Governed lib) : Within (limits lib own) start s :=
  world_bind_within ((look_within hs).bind fun _ _ _ _ => .pure _)

theorem go_within (m : Messages) (name : String) (hs : s.world.Governed lib) :
    Within (limits lib own) (go m name) s := by
  refine here_bind_within hs.intact fun here hhere => world_bind_within ?_
  split
  · rename_i c hexit
    have hplace : s.world.IsPlace c.target :=
      hs.intact.entities _ (World.mem_locations_iff.mpr (World.mem_of_playerLocation? hhere)) c
        (List.mem_of_find?_eq_some hexit)
    have hgrows : s.world.Grows lib.Creates (Store.movePlayer c.target s.world).2 :=
      Store.set_grows (by rintro p hp hkeys; cases hp; cases hkeys) _ _
    have hmoves : Within (limits lib own) (Turn.ofStore (Store.movePlayer c.target)) s := by
      refine ofStore_within hgrows fun cause hfails => ?_
      rw [Store.movePlayer_ok hs.intact hplace] at hfails
      cases hfails
    exact hmoves.bind fun _ s' _ hstep => look_within (hs.evolves hstep.evolves)
  · exact .pure _

/-! ## Items -/

theorem mem_of_namedItem? {w : World} {name : String} {i : Item} (h : namedItem? w name = some i) :
    i ∈ w.items := by
  obtain ⟨id, -, hid⟩ := Option.bind_eq_some_iff.mp h
  exact List.mem_of_find?_eq_some hid

theorem mem_of_perceivedItem {m : Messages} {w : World} {here name : String} {i : Item}
    (h : perceivedItem m w here name = .ok i) : i ∈ w.items := by
  unfold perceivedItem at h
  split at h
  · cases h
  · rename_i found hfound
    split at h
    · cases h
    · split at h <;> cases h
      exact mem_of_namedItem? hfound

theorem isId_of_mem_items {w : World} (h : w.Intact) {i : Item} (hi : i ∈ w.items) : IsId i.id :=
  h.ids i.id (List.mem_map_of_mem (World.mem_items_iff.mpr hi))

theorem setOwner_within {i : Item} {verb : Verb} {owner : String} (hs : s.world.Governed lib)
    (hi : i ∈ s.world.items) (hverb : verb = .take ∨ verb = .drop)
    (howner : s.world.IsPlace owner ∨ s.world.IsPerson owner) :
    Within (limits lib (Unreached s.world verb))
      (Turn.ofStore (Store.set (i.id ++ ":owner") (.text owner))) s := by
  have hid := isId_of_mem_items hs.intact hi
  refine ofStore_within (Store.set_grows (fun p hp hkeys => ?_) _ _) fun cause hfails => ?_
  · rw [Path.ofText?_owner hid] at hp
    cases hp
    cases hkeys
  · obtain ⟨hnothing, rfl⟩ := Store.set_owner_error hs.intact hid howner hfails
    exact .absent (.inr hverb) hi hnothing

theorem countSight_within {i : Item} (hs : s.world.Governed lib) (hi : i ∈ s.world.items) :
    Within (limits lib (Unreached s.world .see)) (countSight i.id) s := by
  have hid := isId_of_mem_items hs.intact hi
  have hlong : ∀ p, Path.ofText? (i.id ++ ":onSee:count") = some p → p.keys = [] →
      lib.Creates p.root := by
    intro p hp hkeys
    rw [Path.ofText?_count hid] at hp
    cases hp
    cases hkeys
  refine Within.bind (ofStore_within (Store.getOrSet_grows hlong _ _) fun cause hfails => ?_)
    fun seen s' hread _ => ofStore_within (Store.set_grows hlong _ _) fun cause hfails => ?_
  · obtain ⟨e, fault, hfind, hread, hoccupied, rfl⟩ := Store.getOrSet_count_error hid hfails
    exact .barred rfl hi hfind hread hoccupied
  · obtain ⟨hnothing, rfl⟩ := Store.set_count_error hid (ofStore_eq_ok hread) hfails
    exact .absent (.inl rfl) hi hnothing

theorem see_within (m : Messages) (name : String) (hs : s.world.Governed lib) :
    Within (limits lib (Unreached s.world .see)) (see m name) s := by
  refine here_bind_within hs.intact fun here _ => world_bind_within ?_
  split
  · exact .pure _
  · rename_i id hresolved
    split
    · rename_i hitem
      -- the item that is counted has the id; the one that is told is found by reading the id as a
      -- name once more, and may be another
      obtain ⟨counted, hcounted⟩ := Option.isSome_iff_exists.mp hitem
      obtain rfl : counted.id = id := by simpa using List.find?_some hcounted
      split
      · exact .pure _
      · rename_i i hperceived
        have hcovered := hs.item (mem_of_perceivedItem hperceived)
        refine (ofScript_within fun _ => raises_of_describe hcovered.descriptions).bind
          fun _ s₁ hrun _ => ?_
        obtain ⟨-, rfl⟩ := Dialogue.run_ofScript_eq_ok hrun
        exact (countSight_within hs (List.mem_of_find?_eq_some hcounted)).bind fun _ s₂ _ _ =>
          (ofChange_within (fireAll_within hcovered.onSee s₂.world)).bind fun _ _ _ _ => .pure _
    · split
      · exact .pure _
      · rename_i c hc
        obtain ⟨_, -, hfound⟩ := perceivedCharacter_eq_ok hc
        have hcovered := hs.character hfound
        exact (ofScript_within fun _ => raises_of_describe hcovered.descriptions).bind
          fun _ _ _ _ => .pure _

theorem event_within {rules : List Rule} (h : ∀ r ∈ rules, r.Covered lib) (plain : Output)
    (s : Stage) : Within (limits lib own) (event rules plain) s := by
  unfold event
  split
  · exact .pure _
  · exact (ofChange_within (fireAll_within h s.world)).bind fun _ _ _ _ => .pure _

theorem take_within (m : Messages) (name : String) (hs : s.world.Governed lib) :
    Within (limits lib (Unreached s.world .take)) (take m name) s := by
  refine here_bind_within hs.intact fun here _ => world_bind_within ?_
  split
  · exact .pure _
  · split
    · exact .pure _
    · rename_i i hitem
      have hi := mem_of_perceivedItem hitem
      split
      · exact .pure _
      · exact (setOwner_within hs hi (.inl rfl) (.inr hs.intact.player)).bind fun _ s' _ _ =>
          event_within (hs.item hi).onTake _ s'

theorem drop_within (m : Messages) (name : String) (hs : s.world.Governed lib) :
    Within (limits lib (Unreached s.world .drop)) (drop m name) s := by
  refine here_bind_within hs.intact fun here hhere => world_bind_within ?_
  split
  · exact .pure _
  · rename_i i hitem
    have hi := mem_of_namedItem? (Option.filter_eq_some_iff.mp hitem).1
    have hplace : s.world.IsPlace here.id := ⟨here, World.mem_of_playerLocation? hhere, rfl⟩
    exact (setOwner_within hs hi (.inr rfl) (.inl hplace)).bind fun _ s' _ _ =>
      event_within (hs.item hi).onDrop _ s'

theorem use_within (m : Messages) (name : String) (hs : s.world.Governed lib) :
    Within (limits lib own) (use m name) s := by
  refine here_bind_within hs.intact fun here _ => world_bind_within ?_
  split
  · exact .pure _
  · rename_i i hitem
    have hcovered := hs.item (mem_of_perceivedItem hitem)
    split
    · exact .pure _
    · refine (ofChange_within (fireFirst_within hcovered.onUse s.world)).bind fun told s' _ _ => ?_
      split <;> exact .pure _

theorem inventory_within (m : Messages) (s : Stage) :
    Within (limits lib own) (inventory m) s := by
  refine world_bind_within ?_
  dsimp only
  split <;> exact .pure _

end Turn

end Story

end Storyworld
