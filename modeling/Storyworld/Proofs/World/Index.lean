import Storyworld.Proofs.Keyed
import Storyworld.Proofs.World.Address
import Storyworld.World.Index

/-! # The index of a world

`Exact` says that the index finds an id at a slot exactly if an entity with that id stands there. It
holds of an index that is made from an intact world, and what a call puts at a slot keeps it, as does
a new variable. While it holds, a call by the index is the call that searches (`set_mirrors`,
`getOrSet_mirrors`): no slot is ever out of range, and `indexed_of_load` follows for every run.
-/

namespace Storyworld

namespace World

/-! ## Slots -/

theorem kind_of_at? {w : World} {s : Slot} {e : Entity} (h : w.at? s = some e) :
    e.kind = s.kind := by
  obtain ⟨kind, n⟩ := s
  cases kind <;>
  · obtain ⟨x, -, rfl⟩ := Option.map_eq_some_iff.mp h
    rfl

theorem mem_slotsOf {kind : Kind} {ids : List String} {id : String} {s : Slot} :
    (id, s) ∈ slotsOf kind ids ↔ s.kind = kind ∧ ids[s.position]? = some id := by
  obtain ⟨k, n⟩ := s
  simp only [slotsOf, List.mem_map, Prod.mk.injEq, Slot.mk.injEq, Prod.exists,
    List.mk_mem_zipIdx_iff_getElem?]
  constructor
  · rintro ⟨_, _, h, rfl, rfl, rfl⟩
    exact ⟨rfl, h⟩
  · rintro ⟨rfl, h⟩
    exact ⟨_, _, h, rfl, rfl, rfl⟩

/-- Each id is listed with the slot where its entity stands. -/
theorem mem_slots {w : World} {id : String} {s : Slot} :
    (id, s) ∈ w.slots ↔ (w.at? s).map (·.id) = some id := by
  obtain ⟨kind, n⟩ := s
  cases kind <;> simp [slots, mem_slotsOf, at?, Entity.id]

theorem keys_slots (w : World) : w.slots.map Prod.fst = w.ids := by
  have hkeys : ∀ kind ids, (slotsOf kind ids).map Prod.fst = ids := by
    intro kind ids
    rw [slotsOf, List.map_map]
    exact List.zipIdx_map_fst 0 ids
  simp [slots, hkeys, ids, entities, Entity.id, Function.comp_def]

theorem mem_entities_of_at? {w : World} {s : Slot} {e : Entity} (h : w.at? s = some e) :
    e ∈ w.entities := by
  obtain ⟨kind, n⟩ := s
  cases kind <;>
  · obtain ⟨x, hx, rfl⟩ := Option.map_eq_some_iff.mp h
    have hmem := List.mem_of_getElem? hx
    simp [entities, hmem]

/-! ## Putting an entity at a slot -/

theorem getElem?_set_key {α : Type} (key : α → String) {a b : α} {xs : List α} {n : Nat}
    (hb : xs[n]? = some b) (hkey : key a = key b) (m : Nat) :
    (xs.set n a)[m]?.map key = xs[m]?.map key := by
  rw [List.getElem?_set]
  split
  · rename_i hn
    subst hn
    have hlt : n < xs.length := (List.getElem?_eq_some_iff.mp hb).1
    rw [if_pos hlt, hb, Option.map_some, Option.map_some, hkey]
  · rfl

/-- Where keys are distinct, putting an element at a position overwrites by its key. -/
theorem set_eq_overwrite {α : Type} (key : α → String) {a b : α} {xs : List α} {n : Nat}
    (hnodup : (xs.map key).Nodup) (hb : xs[n]? = some b) (hkey : key a = key b) :
    xs.set n a = xs.map fun x => if key x = key a then a else x := by
  induction xs generalizing n with
  | nil => cases hb
  | cons x xs ih =>
    rw [List.map_cons, List.nodup_cons] at hnodup
    cases n with
    | zero =>
      cases hb
      have hrest : xs.map (fun y => if key y = key a then a else y) = xs := by
        refine map_overwrite_self key fun y hy hya => ?_
        exact absurd (List.mem_map_of_mem hy) ((hya.trans hkey) ▸ hnodup.1)
      rw [List.set_cons_zero, List.map_cons, if_pos hkey.symm, hrest]
    | succ n =>
      have hmem : key b ∈ xs.map key := List.mem_map_of_mem (List.mem_of_getElem? hb)
      have hne : key x ≠ key a := fun hxa => hnodup.1 (hxa.trans hkey ▸ hmem)
      rw [List.set_cons_succ, List.map_cons, if_neg hne, ih hnodup.2 hb]

section

variable {w : World} {s : Slot} {e e' : Entity}

theorem at?_putAt (hat : w.at? s = some e) (hkind : e'.kind = e.kind) (hid : e'.id = e.id)
    (t : Slot) : ((w.putAt s.position e').at? t).map (·.id) = (w.at? t).map (·.id) := by
  obtain ⟨kind, n⟩ := s
  obtain ⟨kind', m⟩ := t
  cases kind <;> obtain ⟨x, hx, rfl⟩ := Option.map_eq_some_iff.mp hat <;> cases e' <;> cases hkind <;>
    cases kind' <;> simp only [putAt, at?, Option.map_map]
  · exact getElem?_set_key Location.id hx hid m
  · exact getElem?_set_key Item.id hx hid m
  · exact getElem?_set_key Character.id hx hid m
  · exact getElem?_set_key Ending.id hx hid m
  · exact getElem?_set_key Variable.id hx hid m

theorem Intact.putAt_eq_replace (hw : w.Intact) (hat : w.at? s = some e) (hkind : e'.kind = e.kind)
    (hid : e'.id = e.id) : w.putAt s.position e' = w.replace e' := by
  have hids := hw.distinct
  simp only [World.ids, World.entities, List.map_append, List.map_map, List.nodup_append] at hids
  obtain ⟨⟨⟨⟨hlocations, hitems, -⟩, hcharacters, -⟩, hendings, -⟩, hvars, -⟩ := hids
  obtain ⟨kind, n⟩ := s
  cases kind <;> obtain ⟨x, hx, rfl⟩ := Option.map_eq_some_iff.mp hat <;> cases e' <;> cases hkind <;>
    simp only [putAt, replace]
  · rw [set_eq_overwrite Location.id hlocations hx hid]
  · rw [set_eq_overwrite Item.id hitems hx hid]
  · rw [set_eq_overwrite Character.id hcharacters hx hid]
  · rw [set_eq_overwrite Ending.id hendings hx hid]
  · rw [set_eq_overwrite Variable.id hvars hx hid]

end

theorem at?_addVariable (w : World) (id : String) (v : Value) (t : Slot) :
    (w.addVariable id v).at? t =
      if t = ⟨.variable, w.vars.length⟩ then some (.variable ⟨id, v, .nil⟩) else w.at? t := by
  obtain ⟨kind, n⟩ := t
  cases kind with
  | «variable» =>
    simp only [at?, addVariable, Slot.mk.injEq, true_and, List.getElem?_append]
    rcases Nat.lt_trichotomy n w.vars.length with hlt | heq | hgt
    · simp [hlt, Nat.ne_of_lt hlt]
    · simp [heq]
    · have hrange : ¬n < w.vars.length := Nat.lt_asymm hgt
      have hpast : n - w.vars.length ≠ 0 := Nat.sub_ne_zero_of_lt hgt
      simp [hrange, Nat.ne_of_gt hgt, hpast]
  | _ => simp [at?, addVariable]

end World

/-! ## Exact indexes -/

namespace Indexed

/-- The index leads to an id at a slot exactly if an entity with that id stands there. -/
def Exact (x : Indexed) : Prop :=
  ∀ id s, x.index.lookup id = some s ↔ (x.world.at? s).map (·.id) = some id

theorem exact_ofWorld {w : World} (h : w.Intact) : (ofWorld w).Exact := by
  intro id s
  have hnodup : (w.slots.map Prod.fst).Nodup := by
    rw [World.keys_slots]
    exact h.distinct
  exact (Keyed.lookup_ofList hnodup).trans World.mem_slots

section

variable {x : Indexed} {s : Slot} {e e' : Entity} {id : String}

theorem Exact.putAt (h : x.Exact) (hat : x.world.at? s = some e) (hkind : e'.kind = e.kind)
    (hid : e'.id = e.id) : Exact { x with world := x.world.putAt s.position e' } := by
  intro id t
  rw [World.at?_putAt hat hkind hid]
  exact h id t

theorem Exact.create (h : x.Exact) (fresh : x.index.lookup id = none) (v : Value) : Exact {
    world := x.world.addVariable id v
    index := x.index.put id ⟨.variable, x.world.vars.length⟩ } := by
  intro other t
  rw [Keyed.lookup_put, World.at?_addVariable]
  by_cases hnew : t = ⟨.variable, x.world.vars.length⟩
  · -- nothing stood at the new slot, so no id led there
    have hfree : x.world.at? t = none := by simp [hnew, World.at?]
    have hnone : x.index.lookup other ≠ some t := by
      rw [ne_eq, h other t, hfree]
      exact nofun
    by_cases hother : other = id
    · simp [hnew, hother, Entity.id]
    · rw [if_neg hother, if_pos hnew]
      simp [hnone, Entity.id, Ne.symm hother]
  · rw [if_neg hnew, ← h other t]
    by_cases hother : other = id
    · subst hother
      simp [fresh, Ne.symm hnew]
    · rw [if_neg hother]

/-- By an exact index an entity is found where it stands, or nowhere. -/
theorem Exact.find_cases (h : x.Exact) (hw : x.world.Intact) (id : String) :
    x.index.lookup id = none ∧ x.world.find? id = none ∨
      ∃ s e, x.index.lookup id = some s ∧ x.world.at? s = some e ∧ x.world.find? id = some e := by
  cases hs : x.index.lookup id with
  | some s =>
    obtain ⟨e, hat, rfl⟩ := Option.map_eq_some_iff.mp ((h id s).mp hs)
    exact .inr ⟨s, e, rfl, hat, hw.find?_of_mem (World.mem_entities_of_at? hat)⟩
  | none =>
    refine .inl ⟨rfl, ?_⟩
    cases hfind : x.world.find? id with
    | none => rfl
    | some e =>
      have hmem : id ∈ x.world.slots.map Prod.fst := by
        rw [World.keys_slots, ← World.id_of_find? hfind]
        exact List.mem_map_of_mem (World.mem_of_find? hfind)
      obtain ⟨⟨_, s⟩, hslot, rfl⟩ := List.mem_map.mp hmem
      rw [(h _ s).mpr (World.mem_slots.mp hslot)] at hs
      cases hs

theorem Exact.entity?_eq_find? (h : x.Exact) (hw : x.world.Intact) (id : String) :
    x.entity? id = x.world.find? id := by
  rcases h.find_cases hw id with ⟨hlookup, hfind⟩ | ⟨s, e, hlookup, hat, hfind⟩
  · rw [entity?, hlookup, hfind, Option.bind_none]
  · rw [entity?, hlookup, hfind, Option.bind_some, hat]

theorem Exact.placement_eq (h : x.Exact) (hw : x.world.Intact) (holder : String) (v : Value)
    (expected : Target) : x.placement holder v expected = x.world.placement holder v expected := by
  unfold placement World.placement
  rcases h.find_cases hw v.shown with ⟨hlookup, hfind⟩ | ⟨s, e, hlookup, hat, hfind⟩
  · simp only [hlookup, hfind]
  · simp only [hlookup, hfind, World.kind_of_at? hat]

theorem Exact.writeField_eq (h : x.Exact) (hw : x.world.Intact) (source : String) (v : Value)
    (key : String) (e : Entity) :
    x.writeField source v key e = x.world.writeField source v key e := by
  cases e with
  | item i =>
    simp only [writeField, h.placement_eq hw]
    split
    · rename_i hkey
      subst hkey
      rfl
    · rfl
  | character c =>
    simp only [writeField, h.placement_eq hw]
    split
    · rename_i hkey
      subst hkey
      rfl
    · rfl
  | _ => rfl

end

/-! ## Calls by the index -/

/-- A call by the index comes to what a call of the store comes to, without running out of range, and
leaves an exact index of the same world. -/
def Mirrors {α : Type} (access : Access α) (call : Store α) (x : Indexed) : Prop :=
  ∃ x', access x = some ((call x.world).1, x') ∧ x'.world = (call x.world).2 ∧ x'.Exact

end Indexed

namespace Access

open Indexed

variable {α β : Type} {x : Indexed} {s : Slot} {e e' : Entity} {id source : String}

theorem run_lift_bind (r : Except WorldError α) (f : α → Access β) (x : Indexed) :
    ((liftM r : Access α) >>= f) x = match r with
      | .ok a => f a x
      | .error fault => some (.error fault, x) := by
  cases r <;> rfl

theorem run_get_bind (f : Indexed → Access α) (x : Indexed) :
    ((get : Access Indexed) >>= f) x = f x x :=
  rfl

theorem find_bind_of_none (h : x.index.lookup id = none)
    (f : Option (Slot × Entity) → Access α) : (find id >>= f) x = f none x := by
  have hrun : find id x = some (.ok none, x) := by rw [find, h]
  change (find id x).bind _ = _
  rw [hrun]
  rfl

theorem find_bind_of_at? (h : x.index.lookup id = some s) (hat : x.world.at? s = some e)
    (f : Option (Slot × Entity) → Access α) : (find id >>= f) x = f (some (s, e)) x := by
  have hrun : find id x = some (.ok (some (s, e)), x) := by rw [find, h]; simp [hat]
  change (find id x).bind _ = _
  rw [hrun]
  rfl

theorem put_mirrors (h : x.Exact) (hw : x.world.Intact) (hat : x.world.at? s = some e)
    (hkind : e'.kind = e.kind) (hid : e'.id = e.id) :
    Mirrors (put s e') (modify (·.replace e') : Store Unit) x :=
  ⟨_, rfl, hw.putAt_eq_replace hat hkind hid, h.putAt hat hkind hid⟩

theorem create_mirrors (h : x.Exact) (fresh : x.index.lookup id = none) (v : Value) :
    Mirrors (create id v) (modify (·.addVariable id v) : Store Unit) x :=
  ⟨_, rfl, rfl, h.create fresh v⟩

theorem inAttributes_mirrors (h : x.Exact) (hw : x.world.Intact) (hat : x.world.at? s = some e)
    (source : String) (change : Attributes.Change α) :
    Mirrors (inAttributes s e source change) (Store.inAttributes e source change) x := by
  obtain ⟨x', hput, hworld, hexact⟩ := put_mirrors h hw hat
    (e.kind_withAttributes (change e.attributes).2) (e.id_withAttributes (change e.attributes).2)
  refine ⟨x', ?_, hworld, hexact⟩
  cases hput
  rcases hrun : change e.attributes with ⟨result, as⟩
  simp only [inAttributes, Store.inAttributes, hrun]
  cases result <;> rfl

/-- Two calls at one path mirror each other if they do where nothing has its root, and for the
entity that has it. -/
theorem mirrors_at (h : x.Exact) (hw : x.world.Intact) (source : String)
    {f : Path → Option (Slot × Entity) → Access α} {g : Path → World → Store α}
    (absent : ∀ p, x.index.lookup p.root = none → x.world.find? p.root = none →
      Mirrors (f p none) (g p x.world) x)
    (present : ∀ p s e, x.world.at? s = some e → x.world.find? p.root = some e →
      Mirrors (f p (some (s, e))) (g p x.world) x) :
    Mirrors (do let p ← World.path source; let found ← find p.root; f p found)
      (do let p ← World.path source; let w ← get; g p w) x := by
  unfold Mirrors
  rw [run_lift_bind, Storyworld.run_lift_bind]
  cases World.path source with
  | error fault => exact ⟨x, rfl, rfl, h⟩
  | ok p =>
    simp only [Storyworld.run_get_bind]
    rcases h.find_cases hw p.root with ⟨hlookup, hfind⟩ | ⟨s, e, hlookup, hat, hfind⟩
    · rw [find_bind_of_none hlookup]
      exact absent p hlookup hfind
    · rw [find_bind_of_at? hlookup hat]
      exact present p s e hat hfind

theorem throw_mirrors (h : x.Exact) (fault : WorldError) :
    Mirrors (throw fault : Access α) (throw fault : Store α) x :=
  ⟨x, rfl, rfl, h⟩

theorem pure_mirrors (h : x.Exact) (a : α) : Mirrors (pure a : Access α) (pure a : Store α) x :=
  ⟨x, rfl, rfl, h⟩

/-- **Writing by the index writes.** -/
theorem set_mirrors (h : x.Exact) (hw : x.world.Intact) (source : String) (v : Value) :
    Mirrors (set source v) (Store.set source v) x := by
  unfold set Store.set
  refine mirrors_at h hw source (fun p hlookup hfind => ?_) fun p s e hat hfind => ?_
  · rw [hfind]
    cases p.keys with
    | nil => exact create_mirrors h hlookup v
    | cons key rest => exact throw_mirrors h _
  · rw [hfind]
    cases p.keys with
    | nil =>
      cases e with
      | «variable» y => exact put_mirrors h hw hat rfl rfl
      | _ => exact throw_mirrors h _
    | cons key rest =>
      cases hfield : e.field? key with
      | none =>
        simp only [hfield]
        exact inAttributes_mirrors h hw hat source _
      | some old =>
        cases rest with
        | cons next rest => simp only [hfield]; exact throw_mirrors h _
        | nil =>
          unfold Mirrors
          simp only [hfield, run_get_bind, h.writeField_eq hw]
          rw [run_lift_bind, Storyworld.run_lift_bind]
          cases hwrite : x.world.writeField source v key e with
          | error fault => exact throw_mirrors h fault
          | ok e' =>
            have hrev := (World.writeField_cases hwrite).revision
            exact put_mirrors h hw hat hrev.kind hrev.id

/-- **Reading with a default by the index reads with a default.** -/
theorem getOrSet_mirrors (h : x.Exact) (hw : x.world.Intact) (source : String) (default : Value) :
    Mirrors (getOrSet source default) (Store.getOrSet source default) x := by
  unfold getOrSet Store.getOrSet
  refine mirrors_at h hw source (fun p hlookup hfind => ?_) fun p s e hat hfind => ?_
  · rw [hfind]
    cases p.keys with
    | nil => exact ⟨_, rfl, rfl, h.create hlookup default⟩
    | cons key rest => exact pure_mirrors h default
  · rw [hfind]
    cases p.keys with
    | nil =>
      cases e with
      | «variable» y => exact pure_mirrors h y.value
      | _ => exact throw_mirrors h _
    | cons key rest =>
      cases hfield : e.field? key with
      | none =>
        simp only [hfield]
        exact inAttributes_mirrors h hw hat source _
      | some old =>
        cases rest with
        | cons next rest => simp only [hfield]; exact throw_mirrors h _
        | nil => simp only [hfield]; exact pure_mirrors h old

end Access

/-! ## Runs of calls -/

namespace Indexed

open World

/-- What a call by the index leaves, unless it runs out of range. -/
def call (x : Indexed) : Call → Option Indexed
  | .set path v => (Access.set path v x).map Prod.snd
  | .getOrSet path default => (Access.getOrSet path default x).map Prod.snd
  | .movePlayer location => (Access.movePlayer location x).map Prod.snd

def runCalls (x : Indexed) (calls : List Call) : Option Indexed :=
  calls.foldlM call x

theorem Mirrors.leaves {α : Type} {access : Access α} {call : Store α} {x : Indexed}
    (h : Mirrors access call x) :
    ∃ x', (access x).map Prod.snd = some x' ∧ x'.world = (call x.world).2 ∧ x'.Exact := by
  obtain ⟨x', hrun, hworld, hexact⟩ := h
  exact ⟨x', by rw [hrun]; rfl, hworld, hexact⟩

theorem Exact.call {x : Indexed} (h : x.Exact) (hw : x.world.Intact) (c : Call) :
    ∃ x', x.call c = some x' ∧ x'.world = c.run x.world ∧ x'.Exact := by
  cases c with
  | set path v => exact (Access.set_mirrors h hw path v).leaves
  | getOrSet path default => exact (Access.getOrSet_mirrors h hw path default).leaves
  | movePlayer location => exact (Access.set_mirrors h hw _ _).leaves

theorem Exact.runCalls {x : Indexed} (h : x.Exact) (hw : x.world.Intact) (calls : List Call) :
    ∃ x', x.runCalls calls = some x' ∧ x'.world = x.world.runCalls calls ∧ x'.Exact := by
  induction calls generalizing x with
  | nil => exact ⟨x, rfl, rfl, h⟩
  | cons c calls ih =>
    obtain ⟨x₁, hcall, hworld, hexact⟩ := h.call hw c
    have hw₁ : x₁.world.Intact := hworld ▸ (c.run_evolves x.world).intact hw
    obtain ⟨x', hrun, hworld', hexact'⟩ := ih hexact hw₁
    refine ⟨x', ?_, ?_, hexact'⟩
    · rw [Indexed.runCalls, List.foldlM_cons, hcall]
      exact hrun
    · rw [hworld', hworld]
      rfl

end Indexed

namespace World

/-- **The index is exact in every reachable world.** However a world was written to and read since it
was loaded, no call by the index runs out of range, and the world is the one that searching calls
leave; ids are distinct, the index finds what a search through all entities in order finds, and every
slot that it holds is that of an entity with the id. -/
theorem indexed_of_load {d : Document} {w : World} (loaded : load d = .ok w) (calls : List Call) :
    ∃ x, (Indexed.ofWorld w).runCalls calls = some x ∧ x.world = w.runCalls calls ∧
      x.world.ids.Nodup ∧
      (∀ id, x.entity? id = x.world.entities.find? (·.id == id)) ∧
      ∀ id s, x.index.lookup id = some s ↔ (x.world.at? s).map (·.id) = some id := by
  have hw := intact_of_load loaded
  obtain ⟨x, hrun, hworld, hexact⟩ := (Indexed.exact_ofWorld hw).runCalls hw calls
  have hintact : x.world.Intact := hworld ▸ hw.runCalls calls
  refine ⟨x, hrun, hworld, hintact.distinct, fun id => ?_, hexact⟩
  rw [hexact.entity?_eq_find? hintact, find?_eq_entities]

theorem indexed_of_load_lampRoom :
    load (lampRoom "") = .ok (lampRoom "").world ∧
      ∃ x, (Indexed.ofWorld (lampRoom "").world).runCalls
          [.set "oil" (.number 1.0), .getOrSet "lamp:glow" (.bool true)] = some x ∧
        x.index.lookup "oil" = some ⟨.variable, 0⟩ := by
  refine ⟨rfl, ?_⟩
  obtain ⟨x, hrun, hworld, -, -, exact⟩ := indexed_of_load (d := lampRoom "") rfl
    [.set "oil" (.number 1.0), .getOrSet "lamp:glow" (.bool true)]
  refine ⟨x, hrun, (exact _ _).mpr ?_⟩
  rw [hworld]
  rfl

end World

end Storyworld
