import Storyworld.Proofs.Attribute.Change
import Storyworld.Proofs.Json.Record
import Storyworld.Proofs.Keyed

/-! # Attribute trees in documents

A tree is restored from a document if and only if it is not nested too deeply and all of its numbers
read back: `Attribute.restores_iff`. What holds of all trees is shown by `Attribute.induction`, from
the entries of a container to the container.
-/

namespace Storyworld

open Json

/-! ## Values -/

namespace Value

/-- The number that a value is, if it is one. -/
def numbers : Value → List Float
  | .number x => [x]
  | _ => []

theorem toJson_eq_number {x : Float} {n : Number.Numeral} (h : Number.stored? x = some n) :
    (number x).toJson = .number n := by
  simp only [toJson, h]

theorem toJson_eq_null {x : Float} (h : Number.stored? x = none) : (number x).toJson = .null := by
  simp only [toJson, h]

theorem plain_toJson (v : Value) : v.toJson.Plain := by
  cases v with
  | bool b => exact .bool b
  | number x =>
    cases h : Number.stored? x with
    | none => exact toJson_eq_null h ▸ .null
    | some n => exact toJson_eq_number h ▸ .number (Number.stored?_proper h)
  | text s => exact .whole s

theorem restores_iff {depth : Nat} {v : Value} :
    Restores (Value.decode depth v.toJson) v ↔ ∀ x ∈ v.numbers, Number.ReadsBack x := by
  cases v with
  | bool b =>
    refine iff_of_true ⟨.bool b, rfl, ?_⟩ fun x hx => absurd hx List.not_mem_nil
    exact BEq.rfl (a := b)
  | text s =>
    refine iff_of_true ⟨.text s, rfl, ?_⟩ fun x hx => absurd hx List.not_mem_nil
    exact BEq.rfl (a := s)
  | number x =>
    rw [numbers, List.forall_mem_singleton]
    cases h : Number.stored? x with
    | none =>
      rw [toJson_eq_null h]
      refine iff_of_false (fun ⟨w, hw, _⟩ => nomatch hw) fun ⟨n, hn, _⟩ => ?_
      rw [h] at hn
      cases hn
    | some n =>
      rw [toJson_eq_number h]
      constructor
      · intro hread
        obtain ⟨w, hw, hsame⟩ := hread
        obtain ⟨y, hy, rfl⟩ := Option.map_eq_some_iff.mp hw
        exact ⟨n, h, y, hy, hsame⟩
      · intro hreads
        obtain ⟨m, hm, y, hy, hsame⟩ := hreads
        rw [h] at hm
        cases hm
        exact ⟨.number y, by rw [Value.decode, hy]; rfl, hsame⟩

end Value

/-! ## Trees -/

namespace Attribute

mutual

/-- The number of containers that lie within each other. -/
def depth : Attribute → Nat
  | .value _ => 0
  | .map entries => entriesDepth entries + 1

/-- The depth of the deepest entry. -/
def entriesDepth {bound : Option String} : Entries Attribute bound → Nat
  | .nil => 0
  | .cons _ node _ rest => max node.depth (entriesDepth rest)

end

mutual

/-- The numbers of a tree in order. -/
def numbers : Attribute → List Float
  | .value v => v.numbers
  | .map entries => entriesNumbers entries

/-- The numbers of the entries of a container. -/
def entriesNumbers {bound : Option String} : Entries Attribute bound → List Float
  | .nil => []
  | .cons _ node _ rest => node.numbers ++ entriesNumbers rest

end

/-- What holds of scalars, and of a container if it holds of its entries, holds of all trees. -/
@[elab_as_elim, induction_eliminator]
theorem induction {P : Attribute → Prop} (value : ∀ v, P (.value v))
    (map : ∀ entries : Attributes, (∀ e ∈ entries, P e.2) → P (.map entries)) (a : Attribute) :
    P a := by
  refine @Attribute.rec P (fun _ entries => ∀ e ∈ entries, P e.2) value map ?_ ?_ a
  · exact fun e he => absurd he (Entries.not_mem_nil e)
  · intro _ key node above rest hnode hrest e he
    rcases Entries.mem_cons.mp he with rfl | he
    · exact hnode
    · exact hrest e he

theorem sameEntries_eq_beq {bound bound' : Option String} (as : Entries Attribute bound)
    (bs : Entries Attribute bound') : sameEntries as bs = (as.toList == bs.toList) := by
  induction as generalizing bound' with
  | nil => cases bs <;> rfl
  | cons k a above as ih =>
    cases bs with
    | nil => rfl
    | cons l b above' bs =>
      rw [sameEntries, ih, Entries.toList, Entries.toList, List.cons_beq_cons]
      rfl

theorem map_beq_map (as bs : Attributes) :
    (Attribute.map as == Attribute.map bs) = (as == bs) :=
  sameEntries_eq_beq as bs

end Attribute

/-! ## Trees in documents -/

namespace Attribute

/-- The reader of one member of a container. -/
def decodeMember (depth : Nat) (m : Option String × Json) : Option (String × Attribute) := do
  pure (← m.1, ← decode depth m.2)

theorem decode_object (depth : Nat) (members : List (Option String × Json)) :
    decode (depth + 1) (.object members) =
      (members.mapM (decodeMember depth)).map fun entries => .map (Keyed.ofList entries) := by
  rw [decode]
  rfl

theorem entriesToJson_eq_map {bound : Option String} (entries : Entries Attribute bound) :
    entriesToJson entries = entries.toList.map fun e => (some e.1, e.2.toJson) := by
  induction entries with
  | nil => rfl
  | cons key node above rest ih => rw [entriesToJson, ih, Entries.toList, List.map_cons]

theorem plain_toJson (a : Attribute) : a.toJson.Plain := by
  induction a with
  | value v => exact v.plain_toJson
  | map entries ih =>
    rw [toJson, entriesToJson_eq_map]
    refine .object (fun m hm => ?_) fun m hm => ?_
    · obtain ⟨e, -, rfl⟩ := List.mem_map.mp hm
      rfl
    · obtain ⟨e, he, rfl⟩ := List.mem_map.mp hm
      exact ih e he

theorem entriesDepth_le_iff {bound : Option String} {n : Nat} {entries : Entries Attribute bound} :
    entriesDepth entries ≤ n ↔ ∀ e ∈ entries, e.2.depth ≤ n := by
  induction entries with
  | nil => simp [entriesDepth]
  | cons key node above rest ih =>
    rw [entriesDepth, Nat.max_le, ih]
    simp

theorem mem_entriesNumbers {bound : Option String} {x : Float}
    {entries : Entries Attribute bound} :
    x ∈ entriesNumbers entries ↔ ∃ e ∈ entries, x ∈ e.2.numbers := by
  induction entries with
  | nil => simp [entriesNumbers]
  | cons key node above rest ih => simp [entriesNumbers, ih]

theorem decode_value (n : Nat) (v : Value) :
    decode n v.toJson = (Value.decode n v.toJson).map .value := by
  cases v with
  | bool b => cases n <;> rfl
  | number x =>
    cases h : Number.stored? x with
    | none => rw [Value.toJson_eq_null h]; cases n <;> rfl
    | some k => rw [Value.toJson_eq_number h]; cases n <;> rfl
  | text s => cases n <;> rfl

/-- What the entries of a container read as has the keys of the container. -/
theorem keys_of_mapM {n : Nat} {entries read : List (String × Attribute)}
    (h : entries.mapM (fun e => (decode n e.2.toJson).map (e.1, ·)) = some read) :
    read.map Prod.fst = entries.map Prod.fst := by
  induction entries generalizing read with
  | nil =>
    cases h
    rfl
  | cons e rest ih =>
    rw [List.mapM_cons] at h
    simp only [Option.bind_eq_bind, Option.bind_eq_some_iff, Option.map_eq_some_iff] at h
    obtain ⟨_, ⟨node, -, rfl⟩, others, hothers, h⟩ := h
    cases h
    rw [List.map_cons, List.map_cons, ih hothers]

theorem decodeMember_entry (n : Nat) (e : String × Attribute) :
    decodeMember n (some e.1, e.2.toJson) = (decode n e.2.toJson).map (e.1, ·) := by
  unfold decodeMember
  cases decode n e.2.toJson <;> rfl

/-- A container reads as what its entries read as, one by one. -/
theorem decode_map_toJson (n : Nat) (entries : Attributes) :
    decode (n + 1) (Attribute.map entries).toJson =
      (entries.toList.mapM fun e => (decode n e.2.toJson).map (e.1, ·)).map
        fun read => .map (Keyed.ofList read) := by
  have hmember : (decodeMember n ∘ fun e : String × Attribute => (some e.1, e.2.toJson)) =
      fun e => (decode n e.2.toJson).map (e.1, ·) := funext (decodeMember_entry n)
  rw [toJson, decode_object, entriesToJson_eq_map, List.mapM_map, hmember]

theorem restores_entry_iff {n : Nat} (e : String × Attribute) :
    Restores ((decode n e.2.toJson).map (e.1, ·)) e ↔ Restores (decode n e.2.toJson) e.2 := by
  obtain ⟨key, node⟩ := e
  cases decode n node.toJson with
  | none => exact iff_of_false (not_restores_none _) (not_restores_none _)
  | some b =>
    have hbeq : ((key, b) == (key, node)) = (b == node) := by
      change (key == key && b == node) = _
      rw [beq_self_eq_true, Bool.true_and]
    simp [Restores, hbeq]

theorem restores_map_iff {n : Nat} {entries : Attributes} :
    Restores (decode (n + 1) (Attribute.map entries).toJson) (.map entries) ↔
      ∀ e ∈ entries, Restores (decode n e.2.toJson) e.2 := by
  have hentries : Restores (decode (n + 1) (Attribute.map entries).toJson) (.map entries) ↔
      Restores (entries.toList.mapM fun e => (decode n e.2.toJson).map (e.1, ·))
        entries.toList := by
    rw [decode_map_toJson]
    cases hread : entries.toList.mapM fun e => (decode n e.2.toJson).map (e.1, ·) with
    | none => exact iff_of_false (not_restores_none _) (not_restores_none _)
    | some read =>
      -- the keys are those of a collection, so gathering the entries changes nothing
      have hsorted : (read.map Prod.fst).Pairwise (· < ·) :=
        keys_of_mapM hread ▸ entries.sorted_toList
      simp [Restores, map_beq_map, Entries.beq_eq, Keyed.toList_ofList hsorted]
  rw [hentries, restores_mapM_iff]
  exact forall₂_congr fun e _ => restores_entry_iff e

/-- **A tree is restored** if and only if it is not nested too deeply and its numbers read back. -/
theorem restores_iff {a : Attribute} {n : Nat} :
    Restores (decode n a.toJson) a ↔
      a.depth ≤ n ∧ ∀ x ∈ a.numbers, Number.ReadsBack x := by
  induction a generalizing n with
  | value v =>
    rw [toJson, decode_value, depth, numbers, ← @Value.restores_iff n v]
    cases Value.decode n v.toJson with
    | none => exact iff_of_false (not_restores_none _) fun h => not_restores_none _ h.2
    | some w =>
      have hbeq : (Attribute.value w == Attribute.value v) = (w == v) := rfl
      simp [Restores, hbeq]
  | map entries ih =>
    cases n with
    | zero =>
      refine iff_of_false ?_ fun h => absurd h.1 (Nat.not_succ_le_zero _)
      rintro ⟨b, hb, -⟩
      cases hb
    | succ n =>
      rw [restores_map_iff, depth, numbers, Nat.add_le_add_iff_right, entriesDepth_le_iff]
      constructor
      · intro hall
        refine ⟨fun e he => ((ih e he).mp (hall e he)).1, fun x hx => ?_⟩
        obtain ⟨e, he, hxe⟩ := mem_entriesNumbers.mp hx
        exact ((ih e he).mp (hall e he)).2 x hxe
      · intro hparts e he
        obtain ⟨hdepth, hnumbers⟩ := hparts
        exact (ih e he).mpr ⟨hdepth e he, fun x hx =>
          hnumbers x (mem_entriesNumbers.mpr ⟨e, he, hx⟩)⟩

end Attribute

namespace Attributes

/-- What is written for a root container: nothing if it is empty. -/
def member : Attributes → Option Json
  | .nil => none
  | entries => some (Attribute.map entries).toJson

theorem toJson_eq_slot (name : String) (as : Attributes) :
    as.toJson name = slot name as.member := by
  cases as <;> rfl

@[simp] theorem plain_member (as : Attributes) : PlainSlot as.member := by
  cases as with
  | nil => exact fun j hj => nomatch hj
  | cons key node above rest =>
    intro j hj
    cases hj
    exact Attribute.plain_toJson _

/-- What a root container reads as, when `depth` containers may still be entered. -/
def reread (depth : Nat) (as : Attributes) : Option Attributes :=
  as.member.elim (some .nil) (decode depth)

theorem decode_object (ms : List (Option String × Json)) (n : Nat) :
    decode (n + 1) (.object ms) =
      (ms.mapM (Attribute.decodeMember n)).map Keyed.ofList := by
  unfold decode
  rw [Attribute.decode_object]
  cases ms.mapM (Attribute.decodeMember n) <;> rfl

/-- A root container is restored as the tree below it is. -/
theorem restores_reread_iff {as : Attributes} {n : Nat} :
    Restores (as.reread (n + 1)) as ↔ (Attribute.map as).depth ≤ n + 1 ∧
      ∀ x ∈ (Attribute.map as).numbers, Number.ReadsBack x := by
  cases has : as with
  | nil =>
    refine iff_of_true ⟨.nil, rfl, rfl⟩ ⟨Nat.succ_le_succ (Nat.zero_le n), fun x hx => ?_⟩
    cases hx
  | cons key node above rest =>
    rw [← has, ← Attribute.restores_iff]
    have hdecode : as.reread (n + 1) = ((Attribute.entriesToJson as).mapM
        (Attribute.decodeMember n)).map Keyed.ofList := by
      rw [has]
      exact decode_object _ n
    rw [hdecode, Attribute.toJson, Attribute.decode_object]
    cases (Attribute.entriesToJson as).mapM (Attribute.decodeMember n) with
    | none => exact iff_of_false (not_restores_none _) (not_restores_none _)
    | some read => simp [Restores, Attribute.map_beq_map]

end Attributes

end Storyworld
