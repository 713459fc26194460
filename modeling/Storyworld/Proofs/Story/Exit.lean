import Storyworld.Proofs.Story.Affordance
import Storyworld.Proofs.World.Failure

/-! # Where an exit leads

The link of an exit carries its direction, and a direction that is handed in is compared with those
of all exits, and with the ids and names of their targets, one exit after the other. So a link leads
where the first exit leads that answers to the direction (`destination`), which need not be its own;
an exit whose direction has blanks around it may not even answer to itself. `go_leads_iff` says when
a link leads to the target of its exit, and that nothing but the location of the player changes.
-/

namespace Storyworld

namespace World

theorem player?_of_playerLocation? {w : World} {here : Location}
    (h : w.playerLocation? = some here) :
    ∃ p ∈ w.characters, w.player? = some p ∧ p.location = some here.id := by
  obtain ⟨p, hp, h⟩ := Option.bind_eq_some_iff.mp h
  obtain ⟨place, hlocation, hplace⟩ := Option.bind_eq_some_iff.mp h
  have hid : here.id = place := by simpa using List.find?_some hplace
  exact ⟨p, List.mem_of_find?_eq_some hp, hp, hid ▸ hlocation⟩

/-- The player moved to where the player is has not moved. -/
theorem Intact.replace_player_here {w : World} (h : w.Intact) {here : Location}
    (hplace : w.playerLocation? = some here) {p : Character} (hp : w.player? = some p) :
    w.replace (.character { p with location := some here.id }) = w := by
  obtain ⟨q, hmem, hq, hlocation⟩ := player?_of_playerLocation? hplace
  cases hp.symm.trans hq
  rw [← hlocation]
  exact h.replace_of_find? (h.find?_of_mem (mem_characters_iff.mpr hmem))

/-- The player moved to a place is there. -/
theorem playerLocation?_replace_player {w : World} {p : Character} (hp : w.player? = some p)
    {l : Location} (hl : w.location? l.id = some l) :
    (w.replace (.character { p with location := some l.id })).playerLocation? = some l := by
  have hid : p.id = playerId := by simpa using List.find?_some hp
  let moved : Character := { p with location := some l.id }
  have hmoved : (w.replace (.character moved)).player? = some moved := by
    have hfind := find?_overwrite_self Character.id moved w.characters
    rw [show moved.id = playerId from hid] at hfind
    rw [player?, character?, replace, show moved.id = playerId from hid, hfind]
    simp only [player?, character?] at hp
    rw [hp, Option.map_some]
  rw [playerLocation?, hmoved]
  exact hl

end World

namespace Story

open Terminal

variable {w : World} {here : Location} {c : Connection}

/-! ## Exits that answer to a name -/

/-- Whether an exit answers to a name: by its direction, or by the id or the name of its target. -/
def answersTo (w : World) (name : String) (c : Connection) : Bool :=
  let wanted := Text.lowercase (Text.trimmed name)
  Text.lowercase c.direction == wanted || c.target == Text.trimmed name ||
    (w.location? c.target).any (Text.lowercase ·.name == wanted)

/-- An exit answers to its direction, unless blanks around it make a difference. -/
theorem answersTo_direction (h : Text.trimmed c.direction = c.direction) :
    answersTo w c.direction c = true := by
  simp [answersTo, h]

theorem exit?_eq (w : World) (here : Location) (name : String) :
    Turn.exit? w here name = here.connections.find? (answersTo w name) :=
  rfl

/-- Where a name leads: to the target of the first exit that answers to it, or nowhere. -/
def destination (w : World) (here : Location) (name : String) : String :=
  match Turn.exit? w here name with
  | some taken => taken.target
  | none => here.id

/-- The link of an exit leads to its target: that is where the first exit leads that answers to the
direction, or, if none answers, where the player is already. -/
inductive Leads (w : World) (here : Location) (c : Connection) : Prop
  | first {before after : List Connection} {taken : Connection}
      (exits : here.connections = before ++ taken :: after)
      (skipped : ∀ d ∈ before, answersTo w c.direction d = false)
      (answers : answersTo w c.direction taken = true) (sameTarget : taken.target = c.target)
  | back (silent : ∀ d ∈ here.connections, answersTo w c.direction d = false)
      (sameTarget : here.id = c.target)

theorem leads_iff : Leads w here c ↔ destination w here c.direction = c.target := by
  rw [destination, exit?_eq]
  cases hexit : here.connections.find? (answersTo w c.direction) with
  | none =>
    have hsilent : ∀ d ∈ here.connections, answersTo w c.direction d = false := by
      simpa using List.find?_eq_none.mp hexit
    refine ⟨?_, .back hsilent⟩
    rintro (⟨exits, -, answers, -⟩ | ⟨-, hback⟩)
    · exact absurd answers (by simp [hsilent _ (exits ▸ List.mem_append_cons_self)])
    · exact hback
  | some taken =>
    constructor
    · rintro (⟨exits, skipped, answers, htarget⟩ | ⟨silent, -⟩)
      · have hfirst : here.connections.find? (answersTo w c.direction) = some _ :=
          List.find?_eq_some_iff_append.mpr ⟨answers, _, _, exits, by simpa using skipped⟩
        cases hexit.symm.trans hfirst
        exact htarget
      · have hmem := List.mem_of_find?_eq_some hexit
        exact absurd (List.find?_some hexit) (by simp [silent taken hmem])
    · intro htarget
      obtain ⟨answers, before, after, exits, skipped⟩ := List.find?_eq_some_iff_append.mp hexit
      exact .first exits (by simpa using skipped) answers htarget

/-- An exit without blanks around its direction leads to its target, unless an exit to another place
answers to the direction too. -/
theorem Leads.of_apart (hc : c ∈ here.connections) (htrim : Text.trimmed c.direction = c.direction)
    (apart : ∀ d ∈ here.connections, answersTo w c.direction d = true → d.target = c.target) :
    Leads w here c := by
  rw [leads_iff, destination, exit?_eq]
  cases hexit : here.connections.find? (answersTo w c.direction) with
  | none => exact absurd (answersTo_direction htrim) (List.find?_eq_none.mp hexit c hc)
  | some taken => exact apart taken (List.mem_of_find?_eq_some hexit) (List.find?_some hexit)

/-! ## Going -/

namespace Turn

theorem look_stage (s : Stage) : (look s).2 = s := by
  unfold look
  rw [run_bind, Lawful.here_run]
  cases s.world.playerLocation? with
  | none => rfl
  | some l =>
    change ((ofScript (describe s.world l.descriptions) >>= fun text => pure (tell text)) s).2 = s
    rw [run_bind, Dialogue.run_ofScript]
    cases describe s.world l.descriptions <;> rfl

theorem conclude_stage (c : Config) (s : Stage) : (conclude c s).2 = s := by
  unfold conclude
  rw [Dialogue.run_world_bind]
  split
  · rw [run_bind, Dialogue.run_ofScript]
    cases endingText c s.world <;> rfl
  · rfl

/-- Whatever is named, the player goes to where it leads, and nothing else changes. -/
theorem go_stage (m : Messages) {s : Stage} (hs : s.world.Intact) {here : Location}
    (hplace : s.world.playerLocation? = some here) (name : String) :
    ∃ p, s.world.player? = some p ∧ (go m name s).2 = { s with
      world := s.world.replace
        (.character { p with location := some (destination s.world here name) }) } := by
  unfold go
  rw [here_world_run hplace, destination]
  cases hexit : exit? s.world here name with
  | some taken =>
    have hmem : taken ∈ here.connections := List.mem_of_find?_eq_some hexit
    have hhere := World.mem_of_playerLocation? hplace
    have htarget : s.world.IsPlace taken.target :=
      hs.entities _ (World.mem_locations_iff.mpr hhere) taken hmem
    obtain ⟨p, hp, hrun⟩ := Store.movePlayer_run hs htarget
    refine ⟨p, hp, ?_⟩
    have hstore : ofStore (Store.movePlayer taken.target) s = (.ok (), { s with
        world := s.world.replace (.character { p with location := some taken.target }) }) := by
      rw [ofStore, hrun]
      rfl
    dsimp only
    rw [run_bind, hstore]
    exact look_stage _
  | none =>
    obtain ⟨p, -, hp, -⟩ := World.player?_of_playerLocation? hplace
    exact ⟨p, hp, by rw [hs.replace_player_here hplace hp]; rfl⟩

end Turn

namespace Session

theorem finish_stage (s : Session) (t : Turn (List Output)) :
    (s.finish t).2 = { s with stage := (t s.stage).2 } := by
  simp only [finish, run_bind]
  rcases t s.stage with ⟨result, stage⟩
  cases result with
  | error fault => rfl
  | ok told =>
    have hclose := Turn.conclude_stage s.config stage
    rcases hclosing : Turn.conclude s.config stage with ⟨closing, after⟩
    rw [hclosing] at hclose
    subst hclose
    dsimp only
    rw [hclosing]
    cases closing <;> rfl

/-- **A link leads to the target of its exit exactly if that is where its direction leads**; wherever
it leads, the player is there afterwards, and nothing else has changed. -/
theorem go_leads_iff {s₀ s : Session} (begins : s₀.Begins) {actions : List Action}
    (played : s = s₀.after actions) (goes : s.isEnded = false) :
    ∃ here p, s.stage.world.playerLocation? = some here ∧ s.stage.world.player? = some p ∧
      ∀ c ∈ here.connections,
        let s' := (s.handle ⟨.go, .text c.direction⟩).2
        Lists s.stage.world here .go ⟨.go, .text c.direction⟩ ∧
        (∃ place, s' = { s with stage := { s.stage with
          world := s.stage.world.replace (.character { p with location := some place }) } }) ∧
        ((∃ l, s'.stage.world.playerLocation? = some l ∧ l.id = c.target) ↔
          Leads s.stage.world here c) := by
  have hw : s.stage.world.Intact := played ▸ intact_after begins.intact actions
  obtain ⟨here, hplace⟩ := hw.exists_playerLocation?
  obtain ⟨p, -, hp, -⟩ := World.player?_of_playerLocation? hplace
  refine ⟨here, p, hplace, hp, fun c hc => ?_⟩
  have hhere := World.mem_of_playerLocation? hplace
  obtain ⟨p', hp', hgo⟩ := Turn.go_stage s.config.messages hw hplace c.direction
  cases hp.symm.trans hp'
  have hhandle : (s.handle ⟨.go, .text c.direction⟩).2 = { s with stage := { s.stage with
      world := s.stage.world.replace (.character { p with
        location := some (destination s.stage.world here c.direction) }) } } := by
    rw [handle_eq_finish goes, finish_stage]
    exact congrArg (fun stage => { s with stage := stage }) hgo
  obtain ⟨l, hl, hid⟩ : s.stage.world.IsPlace (destination s.stage.world here c.direction) := by
    rw [destination]
    cases hexit : Turn.exit? s.stage.world here c.direction with
    | none => exact ⟨here, hhere, rfl⟩
    | some taken =>
      exact hw.entities _ (World.mem_locations_iff.mpr hhere) taken
        (List.mem_of_find?_eq_some hexit)
  have hafter : (s.handle ⟨.go, .text c.direction⟩).2.stage.world.playerLocation? = some l := by
    rw [hhandle, ← hid]
    exact World.playerLocation?_replace_player hp (hw.location?_of_mem hl)
  refine ⟨(lists_iff .go .go nofun rfl).mpr ⟨c, hc, rfl⟩, ⟨_, hhandle⟩, ?_⟩
  rw [hafter, leads_iff, ← hid]
  simp

/-- A story of a crossroads. One of its exits has a direction that is the name of a place to which
another exit leads; one has blanks around its direction. -/
def crossroads : Document where
  metadata := ⟨"Crossroads", none, none, none, none⟩
  intro := []
  locations := [⟨"cross", "Crossroads", [],
      [⟨"North", "mill"⟩, ⟨"Mill", "pond"⟩, ⟨" Road ", "pond"⟩], .nil⟩,
    ⟨"mill", "Mill", [], [], .nil⟩, ⟨"pond", "Pond", [], [], .nil⟩]
  items := []
  characters := [⟨playerId, "Venda", some "cross", none, [], [], .nil⟩]
  endings := []
  vars := []

theorem go_leads_iff_crossroads :
    let s := new crossroads.world {}
    s.Begins ∧ s.isEnded = false ∧
      ∃ l, (s.handle ⟨.go, .text "North"⟩).2.stage.world.playerLocation? = some l ∧
        l.id = "mill" := by
  intro s
  have begins : s.Begins := .new (d := crossroads) rfl [] {}
  have played : s = s.after [] := rfl
  obtain ⟨here, p, hplace, -, exits⟩ := go_leads_iff begins played rfl
  obtain rfl : crossroads.locations.head (by decide) = here := Option.some.inj hplace
  have leads : Leads s.stage.world (crossroads.locations.head (by decide)) ⟨"North", "mill"⟩ :=
    .of_apart List.mem_cons_self (by decide) (by decide +kernel)
  exact ⟨begins, rfl, (exits ⟨"North", "mill"⟩ List.mem_cons_self).2.2.mpr leads⟩

/-- Two exits that lead to the pond, neither of which takes the player there: the direction of one is
the name of the mill, and the other does not answer to its own direction. -/
theorem not_leads_crossroads :
    let s := new crossroads.world {}
    World.load crossroads = .ok crossroads.world ∧ s.isEnded = false ∧
      s.stage.world.playerLocation?.map (·.connections) =
        some [⟨"North", "mill"⟩, ⟨"Mill", "pond"⟩, ⟨" Road ", "pond"⟩] ∧
      (s.handle ⟨.go, .text "Mill"⟩).2.stage.world.playerLocation?.map (·.id) = some "mill" ∧
      (s.handle ⟨.go, .text " Road "⟩).2.stage.world.playerLocation?.map (·.id) = some "cross" := by
  refine ⟨rfl, rfl, rfl, ?_, ?_⟩
  · rfl
  · rfl

end Session

end Story

end Storyworld
