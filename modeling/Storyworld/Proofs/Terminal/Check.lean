import Storyworld.Proofs.Story.Failure
import Storyworld.Proofs.Story.Resume

/-! # What a check is good for

A check reads the scripts of a world once, and gathers its names once. Both stay right however the
story is played, put away and taken up again (`Continues`): where a check has passed, no action ever
fails to read a script (`read_of_checkWorld`), and a name that a check does not know never comes into
being (`reference_of_unknownTest`).
-/

namespace Storyworld

open Script Terminal

/-! ## Stories in a world -/

namespace Story.Session

/-- A session that began in a world, after actions, whether they succeed or fail, and after the game
was put away and taken up again any number of times. -/
inductive Continues (w : World) : Session → Prop
  | new (c : Config) : Continues w (new w c)
  | handle {s : Session} (h : Continues w s) (a : Action) : Continues w (s.handle a).2
  | resume {s s' : Session} (h : Continues w s) {c : Config} (resumed : resume s.save c = .ok s') :
      Continues w s'

end Story.Session

namespace World

theorem ids_reread (w : World) : w.reread.ids = w.ids := by
  simp [reread, ids, entities, Function.comp_def, Entity.id, Variable.loaded]

/-- Reading variables once more changes no script. -/
theorem covered_reread {lib : Library} {w : World} (h : w.Covered lib) : w.reread.Covered lib := by
  intro e he
  cases e with
  | location l =>
    have hmem : l ∈ w.reread.locations := mem_locations_iff.mp he
    exact h _ (mem_locations_iff.mpr hmem)
  | item i =>
    have hmem : i ∈ w.reread.items := mem_items_iff.mp he
    exact h _ (mem_items_iff.mpr hmem)
  | character c =>
    have hmem : c ∈ w.reread.characters := mem_characters_iff.mp he
    exact h _ (mem_characters_iff.mpr hmem)
  | ending e =>
    have hmem : e ∈ w.reread.endings := mem_endings_iff.mp he
    exact h _ (mem_endings_iff.mpr hmem)
  | «variable» x => trivial

end World

namespace Story.Session

/-- What holds of every world that a story comes to. -/
structure Kept (lib : Library) (w w' : World) : Prop where
  governed : w'.Governed lib
  ids : ∀ id ∈ w'.ids, id ∈ w.ids ∨ lib.Creates id

variable {lib : Library} {w : World} {s : Session}

theorem Continues.kept (h : Continues w s) (hw : w.Governed lib) : Kept lib w s.stage.world := by
  induction h with
  | new c => exact ⟨hw, fun id hid => .inl hid⟩
  | @handle s h a ih =>
    have hgrows : s.stage.world.Grows lib.Creates (s.handle a).2.stage.world :=
      (Turn.handle_within s.config a ih.governed).step
    refine ⟨ih.governed.evolves hgrows.evolves, fun id hid => ?_⟩
    exact (hgrows.ids id hid).elim (ih.ids id) .inr
  | @resume s s' h c resumed ih =>
    -- a game taken up again differs in the values of variables only
    obtain ⟨w', hload, rfl⟩ := resume_eq_ok_iff.mp resumed
    obtain rfl : s.stage.world.reread = w' :=
      Except.ok.inj (ih.governed.intact.load_snapshot.symm.trans hload)
    have hcovered := World.covered_reread ih.governed.covered
    refine ⟨⟨World.intact_of_load hload, hcovered⟩, fun id hid => ?_⟩
    exact ih.ids id (World.ids_reread _ ▸ hid)

end Story.Session

/-! ## Scripts -/

namespace Terminal

open Story Story.Session

/-- A check of a world without errors has read all scripts that it has collected. -/
theorem not_unread_of_checkWorld {f : File} {w : World} {text : String}
    (passed : (checkWorld f w).outcome = .ok text) {script : ScriptSource}
    (hscript : script ∈ ScriptSource.ofWorld w) (e : ScriptError) :
    ¬Unread e script.kind script.source := by
  intro hunread
  have hreport : ∃ d ∈ diagnostics (knownNames w (ScriptSource.ofWorld w)) script,
      d.severity = .error := by
    refine ⟨.ofError script.source e, ?_, rfl⟩
    obtain ⟨origin, kind, source⟩ := script
    cases hunread with
    | condition h => simp [diagnostics, h]
    | assignments h => simp [diagnostics, h]
  obtain ⟨d, hd, hseverity⟩ := hreport
  unfold checkWorld at passed
  dsimp only at passed
  split at passed
  · cases passed
  · rename_i hnone
    refine hnone (List.countP_pos_iff.mpr ⟨d, ?_, by simp [hseverity]⟩)
    exact List.mem_flatMap.mpr ⟨_, List.mem_map_of_mem hscript, hd⟩

/-- **A check that passes is right about every script**, in every story in that world: all scripts
that stand anywhere are among those that were read, and an action that fails with a fault of a script
fails because a script that was read goes wrong when it is run, never because it cannot be read. -/
theorem read_of_checkWorld {d : Document} {w : World} (loaded : World.load d = .ok w) {f : File}
    {text : String} (passed : (checkWorld f w).outcome = .ok text) {s : Session}
    (h : s.Continues w) :
    let scripts := ScriptSource.ofWorld w
    s.stage.world.Covered (.ofList scripts) ∧
      (∀ script ∈ scripts, ∀ e, ¬Unread e script.kind script.source) ∧
      ∀ a e, (s.handle a).1 = .error (.script e) →
        e.isText = false ∧
          ∃ script ∈ scripts, ∃ w', s.stage.world.Evolves w' ∧
            FailsIn w' e script.kind script.source := by
  intro scripts
  have hw : w.Governed (.ofList scripts) := ⟨World.intact_of_load loaded, World.covered_ofWorld w⟩
  have hs := (h.kept hw).governed
  have hread : ∀ script ∈ scripts, ∀ e, ¬Unread e script.kind script.source :=
    fun script hscript e => not_unread_of_checkWorld passed hscript e
  refine ⟨hs.covered, hread, fun a e hfails => ?_⟩
  cases (Turn.handle_within s.config a hs).fault _ hfails with
  | script raised =>
    obtain ⟨w', hevolves, _, _, ⟨script, hscript, rfl, rfl⟩, hunread | hfails⟩ := raised
    · exact absurd hunread (hread script hscript e)
    · exact ⟨hfails.isText, script, hscript, w', hevolves, hfails⟩

/-- The assignment of the lamp can be read, but what it writes to is not there. -/
theorem read_of_checkWorld_lampRoom :
    let w := (lampRoom "ghost:mood = wary").world
    ∃ e, ((new w {}).handle ⟨.use, .text "lamp"⟩).1 = .error (.script e) ∧ e.isText = false ∧
      ∃ script ∈ ScriptSource.ofWorld w, ∃ w', w.Evolves w' ∧
        FailsIn w' e script.kind script.source := by
  intro w
  have loaded : World.load (lampRoom "ghost:mood = wary") = .ok w := rfl
  have passed : (checkWorld ⟨"lamp.json", .ok ""⟩ w).outcome =
      .ok (passed ⟨"lamp.json", .ok ""⟩ w (ScriptSource.ofWorld w)) := rfl
  have hfails : ((new w {}).handle ⟨.use, .text "lamp"⟩).1 =
      .error (.script (.world (.unknownEntity "ghost"))) := rfl
  obtain ⟨-, -, hread⟩ := read_of_checkWorld loaded passed (.new {})
  exact ⟨_, hfails, hread _ _ hfails⟩

/-! ## Names -/

theorem lookup_of_no_path {w : World} {path : String} (h : Path.ofText? path = none) :
    w.lookup path = .error (.invalidPath path) := by
  simp [World.lookup, World.path, h, bind, Except.bind]

/-- What a path leads to in a world whose entities do not have the name that it starts with. -/
theorem lookup_of_unknown {w : World} {path : String} {p : Path} (hp : Path.ofText? path = some p)
    (h : rootOf path ∉ w.ids) : w.lookup path = .error (.unknownPath path) := by
  rw [rootOf_of_ofText? hp] at h
  have hfind : w.find? p.root = none := by
    rw [World.find?_eq_entities, List.find?_eq_none]
    intro e he hid
    have hroot : e.id = p.root := by simpa using hid
    exact h (List.mem_map.mpr ⟨e, he, hroot⟩)
  have hvar : w.variableNamed? p.root = none := by
    rw [World.variableNamed?, List.find?_eq_none]
    intro x hx hid
    have hroot : x.id = p.root := by simpa using hid
    exact h (List.mem_map.mpr ⟨.variable x, World.mem_vars_iff.mpr hx, hroot⟩)
  rw [World.lookup, World.path_eq_ok_iff.mpr hp]
  cases hkeys : p.keys with
  | nil => simp [bind, Except.bind, hkeys, hvar]
  | cons key rest => simp [bind, Except.bind, hkeys, hfind]

theorem reference_of_unknown {w : World} {a : Atom} (h : rootOf a.path ∉ w.ids) :
    ∃ cause, a.evaluate w = .error (.reference a.path a.span cause) := by
  cases hp : Path.ofText? a.path with
  | none => exact ⟨_, by rw [Atom.evaluate, lookup_of_no_path hp]⟩
  | some p => exact ⟨_, by rw [Atom.evaluate, lookup_of_unknown hp h]⟩

/-- The names that a check knows are those of all entities there are or may come into being. -/
theorem mem_knownNames {w : World} {scripts : List ScriptSource} {id : String}
    (h : id ∈ w.ids ∨ (Library.ofList scripts).Creates id) : id ∈ knownNames w scripts := by
  refine List.mem_append.mpr (h.imp_right ?_)
  rintro ⟨source, clauses, ⟨script, hscript, hkind, rfl⟩, hparse, a, ha, rfl⟩
  refine List.mem_flatMap.mpr ⟨script, hscript, ?_⟩
  rw [if_pos hkind, hparse]
  exact List.mem_map_of_mem ha

/-- The diagnostic of a test tells the name that it is about. -/
theorem rootOf_of_unknownTest {a b : Atom} (h : unknownTest a = unknownTest b) :
    rootOf a.path = rootOf b.path := by
  have hmessage := congrArg (fun d => d.message.toList) h
  simp only [unknownTest, String.toList_append] at hmessage
  exact String.toList_inj.mp (List.append_cancel_left (List.append_cancel_right hmessage))

theorem unknown_of_mem_diagnostics {known : List String} {script : ScriptSource}
    (hkind : script.kind = .condition) {c : Condition}
    (parsed : Condition.parse script.source = .ok c) {a : Atom}
    (flagged : unknownTest a ∈ diagnostics known script) : rootOf a.path ∉ known := by
  rw [diagnostics, hkind] at flagged
  simp only [parsed] at flagged
  obtain ⟨b, hb, hsame⟩ := List.mem_map.mp flagged
  have hunknown := (List.mem_filter.mp hb).2
  rw [rootOf_of_unknownTest hsame] at hunknown
  exact of_decide_eq_true hunknown

/-- **A name that a check does not know never comes into being.** A test of a condition that a check
reports as one of an unknown name fails to find it in every world that a story in that world comes
to, those on the way of an action and those that a failed action leaves included. -/
theorem reference_of_unknownTest {d : Document} {w : World} (loaded : World.load d = .ok w)
    {script : ScriptSource} (hkind : script.kind = .condition) {c : Condition}
    (parsed : Condition.parse script.source = .ok c) {a : Atom}
    (flagged : unknownTest a ∈ diagnostics (knownNames w (ScriptSource.ofWorld w)) script)
    {s : Session} (h : s.Continues w) {w' : World} (before : w'.Evolves s.stage.world) :
    ∃ cause, a.evaluate w' = .error (.reference a.path a.span cause) := by
  have hw : w.Governed (.ofList (ScriptSource.ofWorld w)) :=
    ⟨World.intact_of_load loaded, World.covered_ofWorld w⟩
  refine reference_of_unknown fun hid => ?_
  have hknown := mem_knownNames ((h.kept hw).ids _ (before.mem_ids hid))
  exact unknown_of_mem_diagnostics hkind parsed flagged hknown

/-- A room in which the lamp works only where there is a ghost, and there is none. -/
def ghostRoom : Document :=
  { lampRoom "" with
    items := [⟨"lamp", "Lamp", some "cell", none, none, [], [], [],
      [⟨some "ghost", some "It glows.", none⟩], [], .nil⟩] }

theorem reference_of_unknownTest_ghostRoom :
    let script : ScriptSource := ⟨"item lamp onUse[0] condition", .condition, "ghost"⟩
    let a : Atom := ⟨"ghost", none, ⟨0, 5⟩⟩
    script ∈ ScriptSource.ofWorld ghostRoom.world ∧
      ∀ action, ∃ cause, a.evaluate ((new ghostRoom.world {}).handle action).2.stage.world =
        .error (.reference "ghost" ⟨0, 5⟩ cause) := by
  intro script a
  have loaded : World.load ghostRoom = .ok ghostRoom.world := rfl
  have scanned : Condition.scan "ghost" = .ok [⟨.atom "ghost", ⟨0, 5⟩⟩] := rfl
  have parsed : Condition.parse "ghost" = .ok ⟨"ghost", [.operand a]⟩ := by
    rw [Condition.parse, scanned]
    rfl
  have flagged : unknownTest a ∈
      diagnostics (knownNames ghostRoom.world (ScriptSource.ofWorld ghostRoom.world)) script := by
    simp only [diagnostics, script, parsed]
    have hunknown : rootOf "ghost" ∉
        knownNames ghostRoom.world (ScriptSource.ofWorld ghostRoom.world) := by decide
    refine List.mem_map_of_mem (List.mem_filter.mpr ⟨List.mem_singleton.mpr rfl, ?_⟩)
    exact decide_eq_true hunknown
  refine ⟨List.mem_singleton.mpr rfl, fun action => ?_⟩
  exact reference_of_unknownTest loaded rfl parsed flagged (.handle (.new {}) action) (.refl _)

end Terminal

end Storyworld
