import Storyworld.Proofs.World.Integrity

/-! # Reading what was written

A value is read where it was written, as the place keeps it, and a read along any other path comes to
what it came to before, be it a value or an error. The writing side is opened in `Store.SetResult`
only; here each of its cases meets `lookup`.
-/

namespace Storyworld

/-! ## Fields of an entity -/

namespace Entity

/-- What a value is kept as below a key of an entity: in a flag the boolean that it stands for, in a
name or a placement its text, and anywhere else the value itself. -/
def kept (e : Entity) (key : String) (v : Value) : Value :=
  if (e.field? key).isNone then v
  else if key = "visible" ∨ key = "movable" then .bool (flag (some v))
  else if key = "name" ∨ key = "owner" ∨ key = "location" then .text v.shown
  else v

theorem kept_of_not_field {e : Entity} {key : String} (h : e.field? key = none) (v : Value) :
    e.kept key v = v := by
  simp [kept, h]

@[simp] theorem field?_withAttributes (e : Entity) (as : Attributes) (key : String) :
    (e.withAttributes as).field? key = e.field? key := by
  cases e <;> rfl

@[simp] theorem kind_withAttributes (e : Entity) (as : Attributes) :
    (e.withAttributes as).kind = e.kind := by
  cases e <;> rfl

theorem Revision.kind {w : World} {e e' : Entity} (h : e.Revision w e') : e'.kind = e.kind := by
  cases h with
  | attributes e => exact e.kind_withAttributes _
  | _ => rfl

theorem Revision.id {w : World} {e e' : Entity} (h : e.Revision w e') : e'.id = e.id := by
  cases h with
  | attributes e => exact e.id_withAttributes _
  | _ => rfl

/-- A value was written to one field, and nothing else has changed. -/
structure Wrote (e : Entity) (key : String) (v : Value) (e' : Entity) : Prop where
  isField : (e.field? key).isSome
  fields : e'.fields = e.fields.map fun f => if f.1 = key then (key, e.kept key v) else f
  attributes : e'.attributes = e.attributes

theorem lookup_cons_eq_ite (k l : String) (v : Value) (fields : List (String × Value)) :
    ((l, v) :: fields).lookup k = if k = l then some v else fields.lookup k := by
  by_cases h : k = l
  · rw [if_pos h, h, List.lookup_cons_self]
  · rw [if_neg h, List.lookup_cons, beq_false_of_ne h]

theorem lookup_map_ite (key k : String) (v : Value) (fields : List (String × Value)) :
    (fields.map fun f => if f.1 = key then (key, v) else f).lookup k =
      if k = key then (fields.lookup key).map fun _ => v else fields.lookup k := by
  induction fields with
  | nil => simp
  | cons f rest ih =>
    obtain ⟨l, old⟩ := f
    rw [List.map_cons, lookup_cons_eq_ite k l, lookup_cons_eq_ite key l]
    by_cases hl : l = key
    · subst hl
      rw [if_pos rfl, lookup_cons_eq_ite, ih, if_pos rfl]
      split <;> rfl
    · rw [if_neg hl, lookup_cons_eq_ite, ih, if_neg (Ne.symm hl)]
      by_cases hk : k = l
      · rw [if_pos hk, if_neg (hk ▸ hl), if_pos hk]
      · rw [if_neg hk, if_neg hk]

theorem Wrote.field? {e e' : Entity} {key : String} {v : Value} (h : e.Wrote key v e')
    (k : String) : e'.field? k = if k = key then some (e.kept key v) else e.field? k := by
  obtain ⟨old, hold⟩ := Option.isSome_iff_exists.mp h.isField
  rw [Entity.field?, h.fields, lookup_map_ite]
  rw [Entity.field?] at hold
  rw [hold]
  rfl

end Entity

namespace World

/-- An accepted placement reads as the text that was written. -/
theorem getD_placement {w : World} {holder : String} {v : Value} {expected : Target}
    {reference : Option String} (h : w.placement holder v expected = .ok reference) :
    reference.getD "" = v.shown := by
  unfold placement at h
  dsimp only at h
  split at h
  · rename_i hempty
    cases h
    exact hempty.symm
  · split at h
    · split at h
      · cases h
        rfl
      · cases h
    · cases h

theorem FieldWrite.wrote {w : World} {key : String} {v : Value} {e e' : Entity}
    (h : FieldWrite w v key e e') : e.Wrote key v e' := by
  cases h with
  | itemOwner i placed | characterLocation c placed player =>
    refine ⟨rfl, ?_, rfl⟩
    simp [Entity.fields, Entity.kept, Entity.field?, getD_placement placed]
  | _ => exact ⟨rfl, rfl, rfl⟩

/-! ## Finding what was written -/

theorem find?_replace (w : World) (e : Entity) (id : String) :
    (w.replace e).find? id =
      (w.find? id).map fun x => if x.kind = e.kind ∧ x.id = e.id then e else x := by
  have hid : (fun x : Entity => (if x.kind = e.kind ∧ x.id = e.id then e else x).id == id) =
      fun x => x.id == id := by
    funext x
    split
    · rename_i h
      rw [h.2]
    · rfl
  rw [find?_eq_entities, find?_eq_entities, entities_replace, List.find?_map]
  simp only [Function.comp_def, hid]

theorem find?_replace_self {w : World} {id : String} {e e' : Entity} (h : w.find? id = some e)
    (hkind : e'.kind = e.kind) (hid : e'.id = e.id) : (w.replace e').find? id = some e' := by
  simp [find?_replace, h, hkind, hid]

theorem find?_replace_of_ne {w : World} {id : String} {e : Entity} (hne : id ≠ e.id) :
    (w.replace e).find? id = w.find? id := by
  rw [find?_replace]
  cases hfind : w.find? id with
  | none => rfl
  | some x =>
    have hx : x.id ≠ e.id := by rwa [id_of_find? hfind]
    simp [hx]

theorem find?_addVariable_self {w : World} {id : String} (h : w.find? id = none) (v : Value) :
    (w.addVariable id v).find? id = some (.variable ⟨id, v, .nil⟩) := by
  rw [find?_eq_entities] at h ⊢
  rw [entities_addVariable, List.find?_append, h]
  simp [Entity.id]

theorem find?_addVariable_of_ne {w : World} {id other : String} (hne : other ≠ id) (v : Value) :
    (w.addVariable id v).find? other = w.find? other := by
  simp [find?_eq_entities, entities_addVariable, List.find?_append, Entity.id, Ne.symm hne]

theorem variableNamed?_of_find? {w : World} {id : String} {x : Variable}
    (h : w.find? id = some (.variable x)) : w.variableNamed? id = some x := by
  unfold find? at h
  cases hl : w.location? id <;> cases hi : w.item? id <;> cases hc : w.character? id <;>
    cases he : w.ending? id <;> cases hv : w.variableNamed? id <;> simp_all

theorem variableNamed?_replace_of_ne {w : World} {id : String} {e : Entity} (hne : id ≠ e.id) :
    (w.replace e).variableNamed? id = w.variableNamed? id := by
  cases e with
  | «variable» x => exact find?_overwrite_of_ne (·.id) hne w.vars
  | _ => rfl

theorem variableNamed?_addVariable_of_ne {w : World} {id other : String} (hne : other ≠ id)
    (v : Value) : (w.addVariable id v).variableNamed? other = w.variableNamed? other := by
  simp [variableNamed?, addVariable, List.find?_append, Ne.symm hne]

/-! ## Reading -/

section

variable {w w' : World} {source key : String} {rest : List String} {p : Path} {e e' : Entity}

theorem lookup_bare (h : Path.ofText? source = some p) (hkeys : p.keys = []) {x : Variable}
    (hx : w.variableNamed? p.root = some x) : w.lookup source = .ok x.value := by
  simp [lookup, path_eq_ok_iff.mpr h, bind, Except.bind, hkeys, hx]

theorem lookup_below (h : Path.ofText? source = some p) (hkeys : p.keys = key :: rest)
    (hfind : w.find? p.root = some e) : w.lookup source = readBelow e source key rest := by
  simp [lookup, path_eq_ok_iff.mpr h, bind, Except.bind, hkeys, hfind]

/-- What is read depends on the entity and the variable of the root. -/
theorem lookup_congr (h : Path.ofText? source = some p) (hfind : w'.find? p.root = w.find? p.root)
    (hvar : w'.variableNamed? p.root = w.variableNamed? p.root) :
    w'.lookup source = w.lookup source := by
  simp only [lookup, path_eq_ok_iff.mpr h, bind, Except.bind, hfind, hvar]

theorem lookup_of_invalid (h : Path.ofText? source = none) :
    w'.lookup source = w.lookup source := by
  simp only [lookup, path, h, bind, Except.bind]

/-- What is read below a key of an entity depends on the field and the attributes of that key. -/
theorem readBelow_congr (hfield : e'.field? key = e.field? key)
    (hread : (Attribute.map e'.attributes).read (key :: rest) =
      (Attribute.map e.attributes).read (key :: rest)) :
    readBelow e' source key rest = readBelow e source key rest := by
  simp only [readBelow, hfield, hread]

end

/-- What a value is kept as where a path leads. -/
def kept (w : World) (p : Path) (v : Value) : Value :=
  match p.keys, w.find? p.root with
  | [key], some e => e.kept key v
  | _, _ => v

end World

/-! ## Writing, then reading -/

namespace Store

open World

variable {w w' : World} {source : String} {v : Value} {p : Path}

theorem inAttributes_eq_ok {α : Type} {e : Entity} {change : Attributes.Change α} {a : α}
    (h : inAttributes e source change w = (.ok a, w')) :
    ∃ as, change e.attributes = (.ok a, as) ∧ w' = w.replace (e.withAttributes as) := by
  rcases hrun : change e.attributes with ⟨result, as⟩
  simp only [inAttributes, hrun] at h
  cases result <;> cases h
  exact ⟨as, rfl, rfl⟩

theorem exists_path_of_set (h : set source v w = (.ok (), w')) :
    ∃ p, Path.ofText? source = some p := by
  have hresult := set_result source v w
  generalize set source v w = left at hresult h
  cases hresult with
  | refused => cases h
  | assigned path | created path | field path => exact ⟨_, path⟩
  | inTree below => exact ⟨_, below.path⟩

/-- Writing to a bare path changes the variable of that name, or adds it. -/
theorem set_bare (h : set source v w = (.ok (), w')) (hp : Path.ofText? source = some p)
    (hkeys : p.keys = []) :
    (∃ x, w.find? p.root = some (.variable x) ∧
      w' = w.replace (.variable { x with value := v })) ∨
    w.find? p.root = none ∧ w' = w.addVariable p.root v := by
  have hresult := set_result source v w
  generalize set source v w = left at hresult h
  cases hresult with
  | refused => cases h
  | assigned path bare found =>
    obtain rfl := Option.some.inj (hp.symm.trans path)
    cases h
    exact .inl ⟨_, found, rfl⟩
  | created path bare fresh =>
    obtain rfl := Option.some.inj (hp.symm.trans path)
    cases h
    exact .inr ⟨fresh, rfl⟩
  | field path keys =>
    obtain rfl := Option.some.inj (hp.symm.trans path)
    rw [hkeys] at keys
    cases keys
  | inTree below =>
    obtain rfl := Option.some.inj (hp.symm.trans below.path)
    have keys := below.keys
    rw [hkeys] at keys
    cases keys

/-- Writing to a longer path revises the entity of its root. What was written is read there, and
what lies along other branches of the entity reads as before. -/
theorem set_below {key : String} {rest : List String} (h : set source v w = (.ok (), w'))
    (hp : Path.ofText? source = some p) (hkeys : p.keys = key :: rest) :
    ∃ e e', w.find? p.root = some e ∧ e'.kind = e.kind ∧ e'.id = e.id ∧ w' = w.replace e' ∧
      readBelow e' source key rest = .ok (w.kept p v) ∧
      ∀ other k r, ¬key :: rest <+: k :: r → ¬k :: r <+: key :: rest →
        readBelow e' other k r = readBelow e other k r := by
  have hresult := set_result source v w
  generalize set source v w = left at hresult h
  cases hresult with
  | refused => cases h
  | assigned path bare | created path bare =>
    obtain rfl := Option.some.inj (hp.symm.trans path)
    rw [hkeys] at bare
    cases bare
  | field path keys found isField written =>
    obtain rfl := Option.some.inj (hp.symm.trans path)
    rw [hkeys] at keys
    cases keys
    cases h
    have hcases := writeField_cases written
    have hwrote := hcases.wrote
    refine ⟨_, _, found, hcases.revision.kind, hcases.revision.id, rfl, ?_, ?_⟩
    · simp [readBelow, hwrote.field?, kept, hkeys, found]
    · intro other k r hbelow _
      have hk : k ≠ key := by
        rintro rfl
        exact hbelow (List.prefix_append [k] r)
      exact readBelow_congr (by rw [hwrote.field?, if_neg hk]) (by rw [hwrote.attributes])
  | inTree below =>
    obtain rfl := Option.some.inj (hp.symm.trans below.path)
    have keys := below.keys
    rw [hkeys] at keys
    cases keys
    obtain ⟨as, hput, rfl⟩ := inAttributes_eq_ok h
    refine ⟨_, _, below.found, Entity.kind_withAttributes _ _, Entity.id_withAttributes _ _, rfl,
      ?_, ?_⟩
    · have hread := Attributes.Change.read_atEnd_put hput
      have hkept : w.kept p v = v := by
        cases rest with
        | nil => simp [kept, hkeys, below.found, Entity.kept_of_not_field below.notField]
        | cons next rest => simp [kept, hkeys]
      simp only [readBelow, Entity.field?_withAttributes, Entity.attributes_withAttributes,
        below.notField, hread, hkept]
      rfl
    · intro other k r hbelow habove
      refine readBelow_congr (Entity.field?_withAttributes _ _ _) ?_
      rw [Entity.attributes_withAttributes]
      exact Attributes.Change.read_atEnd_of_not_prefix (Attributes.Change.put_local v) hput hbelow
        habove

/-- What is written is read. -/
theorem lookup_set_self (h : set source v w = (.ok (), w')) (hp : Path.ofText? source = some p) :
    w'.lookup source = .ok (w.kept p v) := by
  cases hkeys : p.keys with
  | nil =>
    have hkept : w.kept p v = v := by simp [kept, hkeys]
    rw [hkept]
    rcases set_bare h hp hkeys with ⟨x, hfind, rfl⟩ | ⟨hfresh, rfl⟩
    · have hnew : (w.replace (.variable { x with value := v })).find? p.root =
          some (.variable { x with value := v }) := find?_replace_self hfind rfl rfl
      exact lookup_bare hp hkeys (variableNamed?_of_find? hnew)
    · exact lookup_bare hp hkeys (variableNamed?_of_find? (find?_addVariable_self hfresh v))
  | cons key rest =>
    obtain ⟨e, e', hfind, hkind, hid, rfl, hread, -⟩ := set_below h hp hkeys
    rw [lookup_below hp hkeys (find?_replace_self hfind hkind hid), hread]

/-- Writing leaves the entities and variables of other roots alone. -/
theorem set_elsewhere (h : set source v w = (.ok (), w')) (hp : Path.ofText? source = some p)
    {id : String} (hid : id ≠ p.root) :
    w'.find? id = w.find? id ∧ w'.variableNamed? id = w.variableNamed? id := by
  cases hkeys : p.keys with
  | nil =>
    rcases set_bare h hp hkeys with ⟨x, hfind, rfl⟩ | ⟨-, rfl⟩
    · have hne : id ≠ (Entity.variable { x with value := v }).id := id_of_find? hfind ▸ hid
      exact ⟨find?_replace_of_ne hne, variableNamed?_replace_of_ne hne⟩
    · exact ⟨find?_addVariable_of_ne hid v, variableNamed?_addVariable_of_ne hid v⟩
  | cons key rest =>
    obtain ⟨e, e', hfind, -, heq, rfl, -, -⟩ := set_below h hp hkeys
    have hne : id ≠ e'.id := by rwa [heq, id_of_find? hfind]
    exact ⟨find?_replace_of_ne hne, variableNamed?_replace_of_ne hne⟩

/-- A write below another root leaves a variable alone, also where it fails. -/
theorem variableNamed?_set {id : String} (h : ∀ p, Path.ofText? source = some p → p.root ≠ id) :
    (set source v w).2.variableNamed? id = w.variableNamed? id := by
  have hresult := set_result source v w
  generalize hset : set source v w = left at hresult
  cases hresult with
  | refused => rfl
  | assigned path | created path | field path =>
    exact (set_elsewhere hset path (Ne.symm (h _ path))).2
  | @inTree p e key rest below =>
    have hne : id ≠ e.id := (id_of_find? below.found).symm ▸ Ne.symm (h _ below.path)
    simp only [inAttributes]
    exact variableNamed?_replace_of_ne (by rwa [Entity.id_withAttributes])

/-- Reads along other branches come to the same. -/
theorem lookup_set_of_not_prefix (h : set source v w = (.ok (), w')) {other : String}
    (hbelow : ¬Path.segments source <+: Path.segments other)
    (habove : ¬Path.segments other <+: Path.segments source) :
    w'.lookup other = w.lookup other := by
  cases hq : Path.ofText? other with
  | none => exact lookup_of_invalid hq
  | some q =>
    obtain ⟨p, hp⟩ := exists_path_of_set h
    rw [(Path.segments_of_ofText? hp).1, (Path.segments_of_ofText? hq).1] at hbelow habove
    by_cases hroot : q.root = p.root
    · rw [hroot, List.cons_prefix_cons, not_and] at hbelow habove
      have hbelow := hbelow rfl
      have habove := habove rfl
      -- a bare path is above every other path of its root
      obtain ⟨key, rest, hkeys⟩ := List.exists_cons_of_ne_nil fun hnil : p.keys = [] =>
        hbelow (hnil ▸ List.nil_prefix)
      obtain ⟨k, r, hk⟩ := List.exists_cons_of_ne_nil fun hnil : q.keys = [] =>
        habove (hnil ▸ List.nil_prefix)
      rw [hkeys, hk] at hbelow habove
      obtain ⟨e, e', hfind, hkind, hid, rfl, -, hothers⟩ := set_below h hp hkeys
      rw [lookup_below hq hk (hroot ▸ find?_replace_self hfind hkind hid),
        lookup_below hq hk (hroot ▸ hfind)]
      exact hothers other k r hbelow habove
    · obtain ⟨hfind, hvar⟩ := set_elsewhere h hp hroot
      exact lookup_congr hq hfind hvar

end Store

namespace World

theorem set_eq_ok_iff {w w' : World} {source : String} {v : Value} :
    w.set source v = .ok w' ↔ Store.set source v w = (.ok (), w') := by
  rcases hrun : Store.set source v w with ⟨result, left⟩
  simp only [set, Store.outcome, hrun]
  cases result with
  | error fault => constructor <;> rintro ⟨⟩
  | ok u => constructor <;> rintro ⟨⟩ <;> rfl

/-- **What is written is read, and nothing else is changed.** -/
theorem lookup_of_set {w w' : World} {source : String} {v : Value} (h : w.set source v = .ok w') :
    (∃ p, Path.ofText? source = some p ∧ w'.lookup source = .ok (w.kept p v)) ∧
      ∀ other, ¬Path.segments source <+: Path.segments other →
        ¬Path.segments other <+: Path.segments source → w'.lookup other = w.lookup other := by
  have hset := set_eq_ok_iff.mp h
  obtain ⟨p, hp⟩ := Store.exists_path_of_set hset
  exact ⟨⟨p, hp, Store.lookup_set_self hset hp⟩, fun other hbelow habove =>
    Store.lookup_set_of_not_prefix hset hbelow habove⟩

theorem lookup_of_set_lampRoom :
    ∃ w', (lampRoom "").world.set "lamp:owner" (.text playerId) = .ok w' ∧
      w'.lookup "lamp:owner" = .ok (.text playerId) ∧
      w'.lookup "lamp:name" = (lampRoom "").world.lookup "lamp:name" := by
  obtain ⟨w', hset⟩ : ∃ w', (lampRoom "").world.set "lamp:owner" (.text playerId) = .ok w' :=
    ⟨_, rfl⟩
  obtain ⟨⟨p, hp, hself⟩, hothers⟩ := lookup_of_set hset
  refine ⟨w', hset, ?_, hothers "lamp:name" (by decide) (by decide)⟩
  cases hp
  exact hself

end World

end Storyworld
