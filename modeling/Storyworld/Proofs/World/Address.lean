import Storyworld.Proofs.World.ReadWrite

/-! # Addresses of entities

A path that is made of an id and keys below it leads to the entity of that id, but for the blanks
around the id, which no path keeps. Here is when a write to an owner, to a location and to a counter
in an attribute tree reaches what it is meant for, and with which fault it stops where it does not.
-/

namespace Storyworld

namespace Path

/-- What is written below an id is cut apart behind the id, which loses the blanks around it. -/
theorem segments_below {id : String} (h : IsId id) (rest : String) :
    segments (id ++ ":" ++ rest) = Text.trimmed id :: segments rest := by
  have hlist : (id ++ ":" ++ rest).toList = id.toList ++ ':' :: rest.toList := by simp
  rw [segments, hlist, Text.splitAt_append h.2]
  rfl

/-- Keys below an id are found below the id without the blanks around it. -/
theorem ofText?_of_isId {id rest : String} {keys : List String} (h : IsId id)
    (hrest : segments rest = keys) (hkeys : "" ∉ keys) :
    ofText? (id ++ ":" ++ rest) = some ⟨Text.trimmed id, keys⟩ := by
  have hroot : Text.trimmed id ≠ "" := Text.trimmed_ne_empty h.1
  simp [ofText?, segments_below h, hrest, hroot, hkeys]

/-- A path below an id leads below the id without the blanks around it. -/
theorem root_of_below {id rest : String} (h : IsId id) {p : Path}
    (hp : ofText? (id ++ ":" ++ rest) = some p) : p.root = Text.trimmed id ∧ p.keys ≠ [] := by
  have hsegments := (segments_of_ofText? hp).1
  rw [segments_below h] at hsegments
  obtain ⟨hroot, hkeys⟩ := List.cons.inj hsegments
  refine ⟨hroot.symm, hkeys ▸ fun hnil => ?_⟩
  exact Text.splitAt_ne_nil ':' rest.toList (List.map_eq_nil_iff.mp hnil)

theorem ofText?_owner {id : String} (h : IsId id) :
    ofText? (id ++ ":owner") = some ⟨Text.trimmed id, ["owner"]⟩ := by
  have hpath := ofText?_of_isId h (show segments "owner" = ["owner"] by decide) (by decide)
  rwa [String.append_assoc, show ":" ++ "owner" = ":owner" by decide] at hpath

theorem ofText?_count {id : String} (h : IsId id) :
    ofText? (id ++ ":onSee:count") = some ⟨Text.trimmed id, ["onSee", "count"]⟩ := by
  have hpath := ofText?_of_isId h (show segments "onSee:count" = ["onSee", "count"] by decide)
    (by decide)
  rwa [String.append_assoc, show ":" ++ "onSee:count" = ":onSee:count" by decide] at hpath

end Path

namespace World

/-- What alone has its key is found by its key. -/
theorem find?_of_unique {α : Type} (key : α → String) {a : α} {xs : List α} (ha : a ∈ xs)
    (h : ∀ x ∈ xs, key x = key a → x = a) : xs.find? (key · == key a) = some a := by
  obtain ⟨x, hx⟩ : ∃ x, xs.find? (key · == key a) = some x := by
    rw [← Option.isSome_iff_exists, List.find?_isSome]
    exact ⟨a, ha, by simp⟩
  rw [hx, h x (List.mem_of_find?_eq_some hx) (by simpa using List.find?_some hx)]

section

variable {w : World} (h : w.Intact)

include h

theorem Intact.eq_of_id {e e' : Entity} (he : e ∈ w.entities) (he' : e' ∈ w.entities)
    (hid : e.id = e'.id) : e = e' :=
  List.inj_on_of_nodup_map h.distinct he he' hid

/-- In an intact world an entity is found by its id. -/
theorem Intact.find?_of_mem {e : Entity} (he : e ∈ w.entities) : w.find? e.id = some e := by
  rw [find?_eq_entities]
  exact find?_of_unique Entity.id he fun x hx hid => h.eq_of_id hx he hid

theorem Intact.item?_of_mem {i : Item} (hi : i ∈ w.items) : w.item? i.id = some i :=
  find?_of_unique Item.id hi fun _ hj hid =>
    Entity.item.inj (h.eq_of_id (mem_items_iff.mpr hj) (mem_items_iff.mpr hi) hid)

theorem Intact.character?_of_mem {c : Character} (hc : c ∈ w.characters) :
    w.character? c.id = some c :=
  find?_of_unique Character.id hc fun _ hd hid =>
    Entity.character.inj (h.eq_of_id (mem_characters_iff.mpr hd) (mem_characters_iff.mpr hc) hid)

theorem Intact.location?_of_mem {l : Location} (hl : l ∈ w.locations) :
    w.location? l.id = some l :=
  find?_of_unique Location.id hl fun _ hm hid =>
    Entity.location.inj (h.eq_of_id (mem_locations_iff.mpr hm) (mem_locations_iff.mpr hl) hid)

end

theorem Intact.ne_empty_of_find? {w : World} (h : w.Intact) {id : String} {e : Entity}
    (hfind : w.find? id = some e) : id ≠ "" := by
  rw [← id_of_find? hfind]
  exact (h.ids _ (List.mem_map_of_mem (mem_of_find? hfind))).ne_empty

/-- An entity of an expected kind is accepted as a placement. -/
theorem Intact.placement_of_find? {w : World} (h : w.Intact) {target : String} {e : Entity}
    (hfind : w.find? target = some e) {expected : Target} (hkind : expected.admits e.kind = true)
    (holder : String) : w.placement holder (.text target) expected = .ok (some target) := by
  simp [placement, Value.shown, h.ne_empty_of_find? hfind, hfind, hkind]

theorem Intact.placement_location {w : World} (h : w.Intact) {place : String}
    (hplace : w.IsPlace place) (holder : String) :
    w.placement holder (.text place) .location = .ok (some place) := by
  obtain ⟨l, hl, rfl⟩ := hplace
  exact h.placement_of_find? (h.find?_of_mem (mem_locations_iff.mpr hl)) rfl holder

theorem Intact.placement_locationOrCharacter {w : World} (h : w.Intact) {owner : String}
    (howner : w.IsPlace owner ∨ w.IsPerson owner) (holder : String) :
    w.placement holder (.text owner) .locationOrCharacter = .ok (some owner) := by
  obtain ⟨l, hl, rfl⟩ | ⟨c, hc, rfl⟩ := howner
  · exact h.placement_of_find? (h.find?_of_mem (mem_locations_iff.mpr hl)) rfl holder
  · exact h.placement_of_find? (h.find?_of_mem (mem_characters_iff.mpr hc)) rfl holder

end World

namespace Store

open World

section

variable {w : World} {source key : String} {rest : List String} {p : Path} {e e' : Entity}

/-! ## Where a call leads -/

theorem set_of_absent (hp : Path.ofText? source = some p) (hkeys : p.keys = key :: rest)
    (habsent : w.find? p.root = none) (v : Value) :
    set source v w = (.error (.unknownEntity p.root), w) := by
  rw [set, run_lift_bind, path_eq_ok_iff.mpr hp]
  simp only [run_get_bind, hkeys, habsent]
  rfl

theorem set_of_variable (hp : Path.ofText? source = some p) (hkeys : p.keys = []) {x : Variable}
    (hfind : w.find? p.root = some (.variable x)) (v : Value) :
    set source v w = (.ok (), w.replace (.variable { x with value := v })) := by
  rw [set, run_lift_bind, path_eq_ok_iff.mpr hp]
  simp only [run_get_bind, hkeys, hfind]
  rfl

theorem set_of_field (hp : Path.ofText? source = some p) (hkeys : p.keys = [key])
    (hfind : w.find? p.root = some e) (hfield : (e.field? key).isSome) {v : Value}
    (hwrite : w.writeField source v key e = .ok e') :
    set source v w = (.ok (), w.replace e') := by
  obtain ⟨old, hold⟩ := Option.isSome_iff_exists.mp hfield
  rw [set, run_lift_bind, path_eq_ok_iff.mpr hp]
  simp only [run_get_bind, hkeys, hfind, hold]
  rw [run_lift_bind, hwrite]
  rfl

theorem set_of_attribute (h : AtAttribute w source p e key rest) (v : Value) :
    set source v w = inAttributes e source (.atEnd (.put v) key rest) w := by
  rw [set, run_lift_bind, path_eq_ok_iff.mpr h.path]
  simp only [run_get_bind, h.keys, h.found, h.notField]

theorem getOrSet_of_absent (hp : Path.ofText? source = some p) (hkeys : p.keys = key :: rest)
    (habsent : w.find? p.root = none) (default : Value) :
    getOrSet source default w = (.ok default, w) := by
  rw [getOrSet, run_lift_bind, path_eq_ok_iff.mpr hp]
  simp only [run_get_bind, hkeys, habsent]
  rfl

theorem getOrSet_of_attribute (h : AtAttribute w source p e key rest) (default : Value) :
    getOrSet source default w = inAttributes e source (.atEnd (.getOrPut default) key rest) w := by
  rw [getOrSet, run_lift_bind, path_eq_ok_iff.mpr h.path]
  simp only [run_get_bind, h.keys, h.found, h.notField]

end

/-! ## Placements -/

variable {w : World} {id : String} {cause : WorldError}

/-- **An owner that is there can be written**, unless nothing has the id that the path comes to. -/
theorem set_owner_error (hw : w.Intact) (hid : IsId id) {owner : String}
    (howner : w.IsPlace owner ∨ w.IsPerson owner)
    (h : (set (id ++ ":owner") (.text owner) w).1 = .error cause) :
    w.find? (Text.trimmed id) = none ∧ cause = .unknownEntity (Text.trimmed id) := by
  have hp := Path.ofText?_owner hid
  cases hfind : w.find? (Text.trimmed id) with
  | none =>
    rw [set_of_absent hp rfl hfind] at h
    cases h
    exact ⟨rfl, rfl⟩
  | some x =>
    cases x with
    | item i =>
      have hwrite : w.writeField (id ++ ":owner") (.text owner) "owner" (.item i) =
          .ok (.item { i with owner := some owner }) := by
        simp [writeField, hw.placement_locationOrCharacter howner, bind, Except.bind, pure,
          Except.pure]
      rw [set_of_field hp rfl hfind rfl hwrite] at h
      cases h
    | _ =>
      rw [set_of_attribute ⟨hp, rfl, hfind, rfl⟩] at h
      cases h

/-- Placing an item whose id has no blanks around it writes its owner, and nothing else. -/
theorem set_owner_run (hw : w.Intact) {i : Item} (hi : i ∈ w.items)
    (htrim : Text.trimmed i.id = i.id) {owner : String} (howner : w.IsPlace owner ∨ w.IsPerson owner) :
    set (i.id ++ ":owner") (.text owner) w =
      (.ok (), w.replace (.item { i with owner := some owner })) := by
  have hmem := mem_items_iff.mpr hi
  have hp := Path.ofText?_owner (hw.ids _ (List.mem_map_of_mem hmem))
  have hfind : w.find? (Text.trimmed i.id) = some (.item i) := htrim.symm ▸ hw.find?_of_mem hmem
  have hwrite : w.writeField (i.id ++ ":owner") (.text owner) "owner" (.item i) =
      .ok (.item { i with owner := some owner }) := by
    simp [writeField, hw.placement_locationOrCharacter howner, bind, Except.bind, pure, Except.pure]
  exact set_of_field hp rfl hfind rfl hwrite

/-- Moving the player writes its location, and nothing else. -/
theorem movePlayer_run (hw : w.Intact) {place : String} (hplace : w.IsPlace place) :
    ∃ p, w.player? = some p ∧
      movePlayer place w = (.ok (), w.replace (.character { p with location := some place })) := by
  have hp : Path.ofText? (playerId ++ ":location") = some ⟨playerId, ["location"]⟩ := by decide
  obtain ⟨c, hc, hid⟩ := hw.player
  have hfind : w.find? playerId = some (.character c) := by
    rw [← hid]
    exact hw.find?_of_mem (mem_characters_iff.mpr hc)
  have hwrite : w.writeField (playerId ++ ":location") (.text place) "location" (.character c) =
      .ok (.character { c with location := some place }) := by
    simp [writeField, hw.placement_location hplace, bind, Except.bind, pure, Except.pure]
  have hplayer : w.character? playerId = some c := hid ▸ hw.character?_of_mem hc
  exact ⟨c, hplayer, set_of_field hp rfl hfind rfl hwrite⟩

/-- **The player can go to every place.** -/
theorem movePlayer_ok (hw : w.Intact) {place : String} (hplace : w.IsPlace place) :
    (movePlayer place w).1 = .ok () := by
  obtain ⟨p, -, hrun⟩ := movePlayer_run hw hplace
  rw [hrun]

/-! ## Counters -/

/-- A counter cannot be read only where the attribute tree has something else in its place. -/
theorem getOrSet_count_error (hid : IsId id) {default : Value}
    (h : (getOrSet (id ++ ":onSee:count") default w).1 = .error cause) :
    ∃ e fault, w.find? (Text.trimmed id) = some e ∧
      (Attribute.map e.attributes).read ["onSee", "count"] = .error fault ∧ fault ≠ .absent ∧
      cause = fault.error (id ++ ":onSee:count") := by
  have hp := Path.ofText?_count hid
  cases hfind : w.find? (Text.trimmed id) with
  | none =>
    rw [getOrSet_of_absent hp rfl hfind] at h
    cases h
  | some e =>
    have hfield : e.field? "onSee" = none := by cases e <;> rfl
    rw [getOrSet_of_attribute ⟨hp, rfl, hfind, hfield⟩] at h
    rcases hrun : Attributes.Change.atEnd (.getOrPut default) "onSee" ["count"] e.attributes with
      ⟨result, as⟩
    simp only [inAttributes, hrun] at h
    cases result with
    | ok a => cases h
    | error fault =>
      cases h
      obtain ⟨hread, habsent⟩ := Attributes.Change.read_of_atEnd_getOrPut_error hrun
      exact ⟨e, fault, rfl, hread, habsent, rfl⟩

/-- A counter that was read can be written, unless nothing has the id that the path comes to. -/
theorem set_count_error (hid : IsId id) {default old new : Value} {w' : World}
    (hread : getOrSet (id ++ ":onSee:count") default w = (.ok old, w'))
    (h : (set (id ++ ":onSee:count") new w').1 = .error cause) :
    w.find? (Text.trimmed id) = none ∧ cause = .unknownEntity (Text.trimmed id) := by
  have hp := Path.ofText?_count hid
  cases hfind : w.find? (Text.trimmed id) with
  | none =>
    rw [getOrSet_of_absent hp rfl hfind] at hread
    cases hread
    rw [set_of_absent hp rfl hfind] at h
    cases h
    exact ⟨rfl, rfl⟩
  | some e =>
    have hfield : e.field? "onSee" = none := by cases e <;> rfl
    rw [getOrSet_of_attribute ⟨hp, rfl, hfind, hfield⟩] at hread
    -- reading has left a container where the counter goes, and the entity where it was
    obtain ⟨as, hgot, rfl⟩ := inAttributes_eq_ok hread
    obtain ⟨bs, hput⟩ := Attributes.Change.atEnd_put_of_getOrPut hgot new
    have hfind' := find?_replace_self hfind (e.kind_withAttributes as) (e.id_withAttributes as)
    rw [set_of_attribute ⟨hp, rfl, hfind', (e.field?_withAttributes as _).trans hfield⟩] at h
    simp only [inAttributes, Entity.attributes_withAttributes, hput] at h
    cases h

end Store

namespace World

/-! ## Entities by their ids -/

/-- One world turned into another by changing one entity, which keeps its kind and its id. -/
def Alters (w : World) (e : Entity) (w' : World) : Prop :=
  ∃ e', e'.kind = e.kind ∧ e'.id = e.id ∧ w' = w.replace e'

/-- An entity can be addressed by its id: its id is read there, and what is written below changes
this entity and no other. -/
structure Addresses (w : World) (e : Entity) : Prop where
  read : w.lookup (e.id ++ ":id") = .ok (.text e.id)
  written : ∀ below v w', w.set (e.id ++ ":" ++ below) v = .ok w' → w.Alters e w'

theorem field?_id (e : Entity) : e.field? "id" = some (.text e.id) := by
  cases e <;> rfl

section

variable {w w' : World} {id : String}

theorem lookup_of_absent {source : String} {p : Path} (hp : Path.ofText? source = some p)
    (hkeys : p.keys ≠ []) (habsent : w.find? p.root = none) :
    w.lookup source = .error (.unknownPath source) := by
  obtain ⟨key, rest, hcons⟩ := List.exists_cons_of_ne_nil hkeys
  simp [lookup, path_eq_ok_iff.mpr hp, bind, Except.bind, hcons, habsent]

/-- Below an id, the id is read of what has it without the blanks around it. -/
theorem lookup_id_eq_ok_iff (h : IsId id) {v : Value} :
    w.lookup (id ++ ":id") = .ok v ↔ (w.find? (Text.trimmed id)).map (.text ·.id) = some v := by
  have hp : Path.ofText? (id ++ ":id") = some ⟨Text.trimmed id, ["id"]⟩ := by
    rw [show id ++ ":id" = id ++ ":" ++ "id" by rw [String.append_assoc]; rfl]
    exact Path.ofText?_of_isId h (show Path.segments "id" = ["id"] by decide) (by decide)
  cases hfind : w.find? (Text.trimmed id) with
  | none => simp [lookup_of_absent hp (List.cons_ne_nil _ _) hfind]
  | some x => simp [lookup_below hp rfl hfind, readBelow, field?_id]

/-- A write below an id changes what has the id without the blanks around it. -/
theorem alters_of_set_below (h : IsId id) {below : String} {v : Value}
    (hset : w.set (id ++ ":" ++ below) v = .ok w') :
    ∃ x, w.find? (Text.trimmed id) = some x ∧ w.Alters x w' := by
  have hset := set_eq_ok_iff.mp hset
  obtain ⟨p, hp⟩ := Store.exists_path_of_set hset
  obtain ⟨hroot, hkeys⟩ := Path.root_of_below h hp
  obtain ⟨key, rest, hcons⟩ := List.exists_cons_of_ne_nil hkeys
  obtain ⟨x, x', hfind, hkind, hid, hafter, -, -⟩ := Store.set_below hset hp hcons
  exact ⟨x, hroot ▸ hfind, x', hkind, hid, hafter⟩

/-- An entity can be addressed by its id exactly if the id has no blanks around it. -/
theorem Intact.addresses_iff (hw : w.Intact) {e : Entity} (he : e ∈ w.entities) :
    w.Addresses e ↔ Text.trimmed e.id = e.id := by
  have hid : IsId e.id := hw.ids _ (List.mem_map_of_mem he)
  constructor
  · intro haddresses
    obtain ⟨x, hfind, hx⟩ :=
      Option.map_eq_some_iff.mp ((lookup_id_eq_ok_iff hid).mp haddresses.read)
    rw [← id_of_find? hfind]
    exact Value.text.inj hx
  · intro htrim
    have hfind : w.find? (Text.trimmed e.id) = some e := htrim.symm ▸ hw.find?_of_mem he
    refine ⟨(lookup_id_eq_ok_iff hid).mpr (by rw [hfind]; rfl), fun below v w' hset => ?_⟩
    obtain ⟨x, hx, halters⟩ := alters_of_set_below hid hset
    cases hfind.symm.trans hx
    exact halters

end

/-- **Which entities can be addressed by their ids.** In a world that was loaded, and however it was
written to since, these are the entities whose ids have no blanks around them. Below any other id,
what is written changes the entity that has the id without the blanks. -/
theorem addresses_iff_of_load {d : Document} {w₀ : World} (loaded : load d = .ok w₀)
    (calls : List Call) :
    let w := w₀.runCalls calls
    ∀ e ∈ w.entities, (w.Addresses e ↔ Text.trimmed e.id = e.id) ∧
      ∀ below v w', w.set (e.id ++ ":" ++ below) v = .ok w' →
        ∃ x ∈ w.entities, x.id = Text.trimmed e.id ∧ w.Alters x w' := by
  intro w e he
  have hw : w.Intact := (intact_of_load loaded).runCalls calls
  refine ⟨hw.addresses_iff he, fun below v w' hset => ?_⟩
  obtain ⟨x, hfind, halters⟩ := alters_of_set_below (hw.ids _ (List.mem_map_of_mem he)) hset
  exact ⟨x, mem_of_find? hfind, id_of_find? hfind, halters⟩

theorem addresses_iff_of_load_lampRoom :
    load (lampRoom "") = .ok (lampRoom "").world ∧
      ∃ e ∈ (lampRoom "").world.entities, e.id = "lamp" ∧ (lampRoom "").world.Addresses e := by
  obtain ⟨i, hi, hid⟩ : ∃ i ∈ (lampRoom "").world.items, i.id = "lamp" :=
    ⟨_, List.mem_cons_self, rfl⟩
  have hmem := mem_items_iff.mpr hi
  refine ⟨rfl, .item i, hmem, hid, ?_⟩
  refine ((addresses_iff_of_load (d := lampRoom "") rfl []) (.item i) hmem).1.mpr ?_
  rw [show (Entity.item i).id = "lamp" from hid]
  decide

/-- A story of a room with two lamps, whose ids differ by a blank. -/
def twoLamps : Document :=
  { lampRoom "" with
    items := [⟨"lamp", "Lamp", some "cell", none, none, [], [], [], [], [], .nil⟩,
      ⟨" lamp", "Old lamp", some "cell", none, none, [], [], [], [], [], .nil⟩] }

/-- Below the id of the second lamp, the id of the first is read, and the first is taken. -/
theorem not_alters_twoLamps :
    load twoLamps = .ok twoLamps.world ∧ ∃ e ∈ twoLamps.world.entities, e.id = " lamp" ∧
      twoLamps.world.lookup (e.id ++ ":id") = .ok (.text "lamp") ∧
      ∃ w', twoLamps.world.set (e.id ++ ":owner") (.text playerId) = .ok w' ∧
        w'.items.map (fun i => (i.id, i.owner)) = [("lamp", some playerId), (" lamp", some "cell")] ∧
        ¬twoLamps.world.Alters e w' := by
  obtain ⟨i, hi, hid⟩ : ∃ i ∈ twoLamps.world.items, i.id = " lamp" :=
    ⟨_, List.mem_cons_of_mem _ List.mem_cons_self, rfl⟩
  obtain ⟨w', hset, hitems⟩ : ∃ w', twoLamps.world.set (" lamp" ++ ":owner") (.text playerId) =
      .ok w' ∧
      w'.items.map (fun i => (i.id, i.owner)) = [("lamp", some playerId), (" lamp", some "cell")] :=
    ⟨_, rfl, rfl⟩
  refine ⟨rfl, .item i, mem_items_iff.mpr hi, hid, ?_, w', ?_, hitems, ?_⟩
  · rw [show (Entity.item i).id = " lamp" from hid]
    rfl
  · rw [show (Entity.item i).id = " lamp" from hid, hset]
  · rintro ⟨e', hkind, hid', rfl⟩
    cases e' <;> cases hkind
    rename_i j
    have hj : j.id = " lamp" := hid'.trans hid
    simp [replace, hj, twoLamps, lampRoom, Document.world, ItemDraft.item, playerId, placed] at hitems

end World

end Storyworld
