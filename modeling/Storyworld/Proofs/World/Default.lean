import Storyworld.Proofs.World.Address
import Storyworld.Proofs.World.Failure

/-! # Reading with a default

Strict reading and reading with a default go their own ways through variables, fields and attribute
trees, and find the same: what `Reads` lists. Where that is something, a default makes no difference
and nothing is changed (`Store.getOrSet_of_lookup`). Where it is nothing, the default is given, and it
has been put where every later read finds it, unless there is no entity to put it below:
`World.getOrSet_stable`.
-/

namespace Storyworld

/-! ## Attribute trees -/

namespace Attributes.Change

open Attribute

variable {as bs : Attributes} {v : Value} {key : String} {rest : List String}

/-- Where a scalar is read, it is read with a default, and nothing is changed. -/
theorem atEnd_getOrPut_of_read (h : (Attribute.map as).read (key :: rest) = .ok v)
    (default : Value) : atEnd (getOrPut default) key rest as = (.ok v, as) := by
  induction rest generalizing key as with
  | nil =>
    rw [read_map_cons] at h
    cases hlookup : as.lookup key with
    | none =>
      rw [hlookup] at h
      cases h
    | some node =>
      rw [hlookup] at h
      cases node with
      | value found =>
        cases h
        simp only [atEnd, getOrPut, hlookup]
      | map inner => cases h
  | cons next rest ih =>
    rw [read_map_cons] at h
    cases hlookup : as.lookup key with
    | none =>
      rw [hlookup] at h
      cases h
    | some node =>
      rw [hlookup] at h
      cases node with
      | value found => cases h
      | map inner =>
        rw [atEnd, below_of_map hlookup (ih h), Entries.replace_of_lookup hlookup]

/-- What was read with a default is read there afterwards. -/
theorem read_atEnd_getOrPut {default : Value}
    (h : atEnd (getOrPut default) key rest as = (.ok v, bs)) :
    (Attribute.map bs).read (key :: rest) = .ok v := by
  induction rest generalizing key as bs with
  | nil =>
    simp only [atEnd, getOrPut] at h
    rw [read_map_cons]
    split at h
    · cases h
      rw [Keyed.lookup_put, if_pos rfl]
      rfl
    · rename_i hlookup
      cases h
      rw [hlookup]
      rfl
    · cases h
  | cons next rest ih =>
    obtain ⟨inner, inner', -, hinner, hbs⟩ := below_eq_ok h
    rw [read_map_cons, hbs, if_pos rfl]
    exact ih hinner

end Attributes.Change

/-! ## What reading finds -/

namespace World

variable {w : World} {source : String} {v : Value}

/-- A path leads to a scalar: the value of a variable, a field of an entity, or a scalar in its
attribute tree. -/
inductive Reads (w : World) (source : String) (v : Value) : Prop
  | named {p : Path} {x : Variable} (path : Path.ofText? source = some p) (bare : p.keys = [])
      (found : w.find? p.root = some (.variable x)) (value : x.value = v)
  | field {p : Path} {e : Entity} {key : String} (path : Path.ofText? source = some p)
      (keys : p.keys = [key]) (found : w.find? p.root = some e) (value : e.field? key = some v)
  | inTree {p : Path} {e : Entity} {key : String} {rest : List String}
      (h : Store.AtAttribute w source p e key rest)
      (value : (Attribute.map e.attributes).read (key :: rest) = .ok v)

theorem readBelow_eq_ok_iff {e : Entity} {key : String} {rest : List String} :
    readBelow e source key rest = .ok v ↔ rest = [] ∧ e.field? key = some v ∨
      e.field? key = none ∧ (Attribute.map e.attributes).read (key :: rest) = .ok v := by
  unfold readBelow
  cases hfield : e.field? key with
  | some found => cases rest <;> simp
  | none => cases (Attribute.map e.attributes).read (key :: rest) <;> simp [Except.mapError]

/-- **A strict read** succeeds exactly where a path leads to a scalar. -/
theorem lookup_eq_ok_iff (hw : w.Intact) : w.lookup source = .ok v ↔ Reads w source v := by
  constructor
  · intro h
    cases hpath : Path.ofText? source with
    | none => simp [lookup, path, hpath, bind, Except.bind] at h
    | some p =>
      cases hkeys : p.keys with
      | nil =>
        cases hvar : w.variableNamed? p.root with
        | none => simp [lookup, path_eq_ok_iff.mpr hpath, bind, Except.bind, hkeys, hvar] at h
        | some x =>
          rw [lookup_bare hpath hkeys hvar] at h
          have hid : x.id = p.root := by simpa using List.find?_some hvar
          have hmem := mem_vars_iff.mpr (List.mem_of_find?_eq_some hvar)
          have hfind : w.find? p.root = some (.variable x) := hid ▸ hw.find?_of_mem hmem
          exact .named hpath hkeys hfind (Except.ok.inj h)
      | cons key rest =>
        cases hfind : w.find? p.root with
        | none =>
          rw [lookup_of_absent hpath (hkeys ▸ List.cons_ne_nil key rest) hfind] at h
          cases h
        | some e =>
          rw [lookup_below hpath hkeys hfind, readBelow_eq_ok_iff] at h
          obtain ⟨rfl, hfield⟩ | ⟨hfield, hread⟩ := h
          · exact .field hpath hkeys hfind hfield
          · exact .inTree ⟨hpath, hkeys, hfind, hfield⟩ hread
  · intro h
    cases h with
    | named path bare found value =>
      exact value ▸ lookup_bare path bare (variableNamed?_of_find? found)
    | field path keys found value =>
      rw [lookup_below path keys found, readBelow_eq_ok_iff]
      exact .inl ⟨rfl, value⟩
    | inTree h value =>
      rw [lookup_below h.path h.keys h.found, readBelow_eq_ok_iff]
      exact .inr ⟨h.notField, value⟩

end World

/-! ## What reading with a default comes to -/

namespace Store

open World

variable {w w' : World} {source : String} {v : Value} {p : Path}

theorem getOrSet_of_variable (hp : Path.ofText? source = some p) (hkeys : p.keys = [])
    {x : Variable} (hfind : w.find? p.root = some (.variable x)) (default : Value) :
    getOrSet source default w = (.ok x.value, w) := by
  rw [getOrSet, run_lift_bind, path_eq_ok_iff.mpr hp]
  simp only [run_get_bind, hkeys, hfind]
  rfl

theorem getOrSet_of_fresh (hp : Path.ofText? source = some p) (hkeys : p.keys = [])
    (fresh : w.find? p.root = none) (default : Value) :
    getOrSet source default w = (.ok default, w.addVariable p.root default) := by
  rw [getOrSet, run_lift_bind, path_eq_ok_iff.mpr hp]
  simp only [run_get_bind, hkeys, fresh]
  rfl

theorem getOrSet_of_field (hp : Path.ofText? source = some p) {key : String}
    (hkeys : p.keys = [key]) {e : Entity} (hfind : w.find? p.root = some e)
    (hfield : e.field? key = some v) (default : Value) :
    getOrSet source default w = (.ok v, w) := by
  rw [getOrSet, run_lift_bind, path_eq_ok_iff.mpr hp]
  simp only [run_get_bind, hkeys, hfind, hfield]
  rfl

/-- **Where something is read, a default makes no difference**, and nothing is changed. -/
theorem getOrSet_of_lookup (hw : w.Intact) (h : w.lookup source = .ok v) (default : Value) :
    getOrSet source default w = (.ok v, w) := by
  cases (lookup_eq_ok_iff hw).mp h with
  | named path bare found value => exact value ▸ getOrSet_of_variable path bare found default
  | field path keys found value => exact getOrSet_of_field path keys found value default
  | inTree h value =>
    rw [getOrSet_of_attribute h, inAttributes,
      Attributes.Change.atEnd_getOrPut_of_read value default]
    dsimp only
    rw [Entity.withAttributes_attributes, hw.replace_of_find? h.found]
    rfl

end Store

namespace World

variable {w w' : World} {source : String} {v default : Value}

/-- A path of several segments of which the first names nothing. -/
def Rootless (w : World) (source : String) : Prop :=
  ∃ p, Path.ofText? source = some p ∧ p.keys ≠ [] ∧ w.find? p.root = none

/-- What a read with a default has come to where it succeeds, and the world that it has left. -/
inductive Got (w : World) (source : String) (default : Value) : Value → World → Prop
  | stood {v : Value} (reads : w.Reads source v) : Got w source default v w
  | rootless (h : w.Rootless source) : Got w source default default w
  | created {p : Path} (path : Path.ofText? source = some p) (bare : p.keys = [])
      (fresh : w.find? p.root = none) : Got w source default default (w.addVariable p.root default)
  | put {p : Path} {e : Entity} {key : String} {rest : List String} {as : Attributes}
      (h : Store.AtAttribute w source p e key rest)
      (run : Attributes.Change.atEnd (.getOrPut default) key rest e.attributes = (.ok default, as)) :
      Got w source default default (w.replace (e.withAttributes as))

theorem got_of_getOrSet (hw : w.Intact) (h : Store.getOrSet source default w = (.ok v, w')) :
    w.Got source default v w' := by
  cases hpath : Path.ofText? source with
  | none =>
    rw [Store.getOrSet, run_lift_bind, path, hpath] at h
    cases h
  | some p =>
    cases hkeys : p.keys with
    | nil =>
      cases hfind : w.find? p.root with
      | none =>
        rw [Store.getOrSet_of_fresh hpath hkeys hfind] at h
        cases h
        exact .created hpath hkeys hfind
      | some e =>
        cases e with
        | «variable» x =>
          rw [Store.getOrSet_of_variable hpath hkeys hfind] at h
          cases h
          exact .stood (.named hpath hkeys hfind rfl)
        | _ =>
          rw [Store.getOrSet, run_lift_bind, path_eq_ok_iff.mpr hpath] at h
          simp only [run_get_bind, hkeys, hfind] at h
          cases h
    | cons key rest =>
      cases hfind : w.find? p.root with
      | none =>
        rw [Store.getOrSet_of_absent hpath hkeys hfind] at h
        cases h
        exact .rootless ⟨p, hpath, hkeys ▸ List.cons_ne_nil key rest, hfind⟩
      | some e =>
        cases hfield : e.field? key with
        | some found =>
          cases rest with
          | nil =>
            rw [Store.getOrSet_of_field hpath hkeys hfind hfield] at h
            cases h
            exact .stood (.field hpath hkeys hfind hfield)
          | cons next rest =>
            rw [Store.getOrSet, run_lift_bind, path_eq_ok_iff.mpr hpath] at h
            simp only [run_get_bind, hkeys, hfind, hfield] at h
            cases h
        | none =>
          have below : Store.AtAttribute w source p e key rest := ⟨hpath, hkeys, hfind, hfield⟩
          rw [Store.getOrSet_of_attribute below] at h
          obtain ⟨as, run, rfl⟩ := Store.inAttributes_eq_ok h
          obtain hread | ⟨-, rfl⟩ := Attributes.Change.read_of_atEnd_getOrPut run
          · rw [Attributes.Change.atEnd_getOrPut_of_read hread] at run
            cases run
            rw [Entity.withAttributes_attributes, hw.replace_of_find? hfind]
            exact .stood (.inTree below hread)
          · exact .put below run

/-- **Where nothing is read, the default is given**, and unless there is no entity to put it below, it
is read there afterwards. -/
theorem getOrSet_of_lookup_error {fault : WorldError} (hw : w.Intact)
    (hlookup : w.lookup source = .error fault)
    (h : Store.getOrSet source default w = (.ok v, w')) :
    v = default ∧ (w.Rootless source ∧ w' = w ∨ w'.lookup source = .ok v) := by
  cases got_of_getOrSet hw h with
  | stood reads =>
    rw [(lookup_eq_ok_iff hw).mpr reads] at hlookup
    cases hlookup
  | rootless nowhere => exact ⟨rfl, .inl ⟨nowhere, rfl⟩⟩
  | created path bare fresh =>
    have hfind := find?_addVariable_self fresh v
    exact ⟨rfl, .inr (lookup_bare path bare (variableNamed?_of_find? hfind))⟩
  | @put p e key rest as below run =>
    have hfind := find?_replace_self below.found (e.kind_withAttributes as) (e.id_withAttributes as)
    refine ⟨rfl, .inr ?_⟩
    rw [lookup_below below.path below.keys hfind, readBelow_eq_ok_iff, Entity.field?_withAttributes,
      Entity.attributes_withAttributes]
    exact .inr ⟨below.notField, Attributes.Change.read_atEnd_getOrPut run⟩

theorem getOrSet_eq_ok_iff :
    w.getOrSet source default = .ok (v, w') ↔ Store.getOrSet source default w = (.ok v, w') := by
  rcases hrun : Store.getOrSet source default w with ⟨result, left⟩
  simp only [getOrSet, Store.outcome, hrun]
  cases result with
  | error fault => constructor <;> rintro ⟨⟩
  | ok found => constructor <;> rintro ⟨⟩ <;> rfl

/-- **Reading with a default is stable.** In a world that was loaded, and however it was written to
since, a path that is read strictly is read with any default alike, and nothing changes. Where it is
not, and a read with a default succeeds, that comes to the default. Then either the first of several
segments names nothing, and the world is as it was, or from now on the path is read as that value,
strictly and with whatever default, and nothing changes any more. -/
theorem getOrSet_stable {d : Document} {w₀ : World} (loaded : load d = .ok w₀)
    (calls : List Call) :
    let w := w₀.runCalls calls
    (∀ source found default, w.lookup source = .ok found →
      w.getOrSet source default = .ok (found, w)) ∧
    ∀ source fault default v w', w.lookup source = .error fault →
      w.getOrSet source default = .ok (v, w') →
      v = default ∧ (w.Rootless source ∧ w' = w ∨
        w'.lookup source = .ok v ∧ ∀ other, w'.getOrSet source other = .ok (v, w')) := by
  intro w
  have hw : w.Intact := (intact_of_load loaded).runCalls calls
  constructor
  · intro source found default hlookup
    exact getOrSet_eq_ok_iff.mpr (Store.getOrSet_of_lookup hw hlookup default)
  · intro source fault default v w' hlookup h
    have hget := getOrSet_eq_ok_iff.mp h
    obtain ⟨hv, hleft⟩ := getOrSet_of_lookup_error hw hlookup hget
    refine ⟨hv, hleft.imp_right fun hafter => ⟨hafter, fun other => ?_⟩⟩
    have hevolves : w.Evolves w' := by
      have hstore := Store.getOrSet_evolves source default w
      rwa [hget] at hstore
    exact getOrSet_eq_ok_iff.mpr (Store.getOrSet_of_lookup (hevolves.intact hw) hafter other)

/-- Whether the lamp is lit is asked, with the answer that it is. -/
theorem getOrSet_stable_lampRoom :
    let w := (lampRoom "").world
    load (lampRoom "") = .ok w ∧ ∃ w', w.getOrSet "lamp:state:lit" (.bool true) =
        .ok (.bool true, w') ∧ w'.lookup "lamp:state:lit" = .ok (.bool true) ∧
      ∀ other, w'.getOrSet "lamp:state:lit" other = .ok (.bool true, w') := by
  intro w
  have loaded : load (lampRoom "") = .ok w := rfl
  have hlookup : w.lookup "lamp:state:lit" = .error (.unknownPath "lamp:state:lit") := rfl
  obtain ⟨w', hget⟩ : ∃ w', w.getOrSet "lamp:state:lit" (.bool true) = .ok (.bool true, w') :=
    ⟨_, rfl⟩
  obtain ⟨-, ⟨⟨p, hp, -, hnothing⟩, -⟩ | hstable⟩ :=
    (getOrSet_stable loaded []).2 _ _ _ _ _ hlookup hget
  · cases hp
    cases hnothing
  · exact ⟨loaded, w', hget, hstable⟩

end World

end Storyworld
