import Storyworld.Json.Decoder
import Storyworld.Proofs.Json.Text

/-! # Records and their readers

A record is written with its fields in order, some of them left out: `written` joins the names of the
fields with what is written for each, if anything. `fields?_written` gives a reader back exactly the
fields that were written, so what a field reads as depends on what was written for it alone.

`Restores` compares a value with what its reader made of it, by the equality of values, for which the
two zeros are the same.
-/

namespace Storyworld.Json

/-! ## Plain records -/

theorem plain_record {members : List (String × Json)} (h : ∀ m ∈ members, m.2.Plain) :
    (record members).Plain := by
  refine .object ?_ ?_
  · intro m hm
    obtain ⟨n, -, rfl⟩ := List.mem_map.mp hm
    rfl
  · intro m hm
    obtain ⟨n, hn, rfl⟩ := List.mem_map.mp hm
    exact h n hn

theorem plain_array {α : Type} {toJson : α → Json} {as : List α} (h : ∀ a ∈ as, (toJson a).Plain) :
    (Json.array (as.map toJson)).Plain := by
  refine .array fun j hj => ?_
  obtain ⟨a, ha, rfl⟩ := List.mem_map.mp hj
  exact h a ha

/-! ## Written fields -/

/-- The member of one field, if it is written. -/
def slot (name : String) (j : Option Json) : List (String × Json) :=
  (j.map (name, ·)).toList

/-- The members of a record, from the names of its fields and what is written for each. -/
def written (names : List String) (slots : List (Option Json)) : List (String × Json) :=
  (names.zip slots).flatMap fun s => slot s.1 s.2

/-- What is written for a field, if anything. -/
def slot? (names : List String) (slots : List (Option Json)) (name : String) : Option Json :=
  ((names.zip slots).lookup name).join

/-- What is written for a list that is left out if it is empty. -/
def listSlot {α : Type} (toJson : α → Json) : List α → Option Json
  | [] => none
  | as => some (.array (as.map toJson))

@[simp] theorem optional_eq_slot {α : Type} (name : String) (toJson : α → Json) (a : Option α) :
    optional name toJson a = slot name (a.map toJson) := by
  cases a <;> rfl

@[simp] theorem nonempty_eq_slot {α : Type} (name : String) (toJson : α → Json) (as : List α) :
    nonempty name toJson as = slot name (listSlot toJson as) := by
  cases as <;> rfl

theorem written_nil : written [] [] = [] :=
  rfl

theorem written_cons (name : String) (names : List String) (j : Option Json)
    (slots : List (Option Json)) :
    written (name :: names) (j :: slots) = slot name j ++ written names slots :=
  rfl

@[simp] theorem slot_some (name : String) (j : Json) : slot name (some j) = [(name, j)] :=
  rfl

@[simp] theorem slot?_cons (name key : String) (names : List String) (j : Option Json)
    (slots : List (Option Json)) :
    slot? (key :: names) (j :: slots) name = if name = key then j else slot? names slots name := by
  unfold slot?
  by_cases h : name = key
  · simp [h]
  · have hbeq : (name == key) = false := beq_false_of_ne h
    simp [List.lookup_cons, hbeq, h]

theorem mem_written {names : List String} {slots : List (Option Json)} {m : String × Json}
    (h : m ∈ written names slots) : m.1 ∈ names ∧ some m.2 ∈ slots := by
  simp only [written, slot, List.mem_flatMap, Option.mem_toList, Option.map_eq_some_iff] at h
  obtain ⟨⟨name, o⟩, hmem, j, hj, rfl⟩ := h
  exact ⟨(List.of_mem_zip hmem).1, hj ▸ (List.of_mem_zip hmem).2⟩

/-- Whether what is written for a field is plain. -/
def PlainSlot (o : Option Json) : Prop :=
  ∀ j ∈ o, j.Plain

theorem plain_written {names : List String} {slots : List (Option Json)}
    (h : ∀ o ∈ slots, PlainSlot o) : (record (written names slots)).Plain :=
  plain_record fun m hm => h _ (mem_written hm).2 m.2 rfl

@[simp] theorem plainSlot_some {j : Json} : PlainSlot (some j) ↔ j.Plain := by
  simp [PlainSlot]

@[simp] theorem plainSlot_map {α : Type} {toJson : α → Json} {o : Option α} :
    PlainSlot (o.map toJson) ↔ ∀ a ∈ o, (toJson a).Plain := by
  simp [PlainSlot]

@[simp] theorem plain_whole (s : String) : (whole s).Plain :=
  .whole s

theorem plainSlot_listSlot {α : Type} {toJson : α → Json} {as : List α}
    (h : ∀ a ∈ as, (toJson a).Plain) : PlainSlot (listSlot toJson as) := by
  cases as with
  | nil => exact fun j hj => nomatch hj
  | cons a as => exact plainSlot_some.mpr (plain_array h)

theorem keys_written_sublist (names : List String) (slots : List (Option Json)) :
    ((written names slots).map Prod.fst).Sublist names := by
  induction names generalizing slots with
  | nil => exact List.Sublist.slnil
  | cons name names ih =>
    rcases slots with _ | ⟨_ | j, slots⟩
    · exact List.nil_sublist _
    · exact (ih slots).cons name
    · exact (ih slots).cons_cons name

theorem named?_record (members : List (String × Json)) :
    named? (members.map fun (name, j) => (some name, j)) = some members := by
  induction members with
  | nil => rfl
  | cons m members ih =>
    simp only [named?, List.map_cons, List.mapM_cons] at ih ⊢
    rw [ih]
    rfl

/-- A reader that knows the names of a record finds what was written. -/
theorem fields?_written {names : List String} (h : names.Nodup) (slots : List (Option Json))
    (depth : Nat) :
    fields? names (depth + 1) (record (written names slots)) =
      some ⟨depth, written names slots⟩ := by
  have hknown : (written names slots).filter (fun m => names.contains m.1) =
      written names slots := by
    refine List.filter_eq_self.mpr fun m hm => ?_
    rw [List.contains_iff_mem]
    exact (mem_written hm).1
  have hnodup : ((written names slots).map Prod.fst).Nodup :=
    h.sublist (keys_written_sublist names slots)
  simp only [fields?, record, named?_record, hknown, if_pos hnodup]

/-- A reader that knows the names of a record goes on with what was written. -/
theorem fields?_written_bind {α : Type} {names : List String} (h : names.Nodup)
    (slots : List (Option Json)) (depth : Nat) (next : Fields → Option α) :
    (fields? names (depth + 1) (record (written names slots)) >>= next) =
      next ⟨depth, written names slots⟩ := by
  rw [fields?_written h]
  rfl

theorem lookup_written {names : List String} (h : names.Nodup) (slots : List (Option Json))
    (name : String) : (written names slots).lookup name = slot? names slots name := by
  induction names generalizing slots with
  | nil => rfl
  | cons key names ih =>
    rw [List.nodup_cons] at h
    obtain ⟨hkey, h⟩ := h
    rcases slots with _ | ⟨j, slots⟩
    · rfl
    rw [slot?_cons, written_cons, ← ih h]
    by_cases heq : name = key
    · subst heq
      have hnone : (written names slots).lookup name = none := by
        rw [List.lookup_eq_none_iff]
        intro m hm
        refine bne_iff_ne.mpr fun heq => hkey ?_
        rw [heq]
        exact (mem_written hm).1
      cases j <;> simp [slot, hnone]
    · have hbeq : (name == key) = false := beq_false_of_ne heq
      cases j <;> simp [slot, List.lookup_cons, hbeq, heq]

/-! ## What fields read as -/

section Fields

variable {α : Type} {names : List String} {slots : List (Option Json)} {depth : Nat} {name : String}
  {item : Decoder α}

@[simp] theorem required_written (h : names.Nodup) :
    Fields.required ⟨depth, written names slots⟩ name item =
      (slot? names slots name).bind (item depth) := by
  rw [Fields.required, lookup_written h]

@[simp] theorem withDefault_written (h : names.Nodup) (default : α) :
    Fields.withDefault ⟨depth, written names slots⟩ name default item =
      (slot? names slots name).elim (some default) (item depth) := by
  rw [Fields.withDefault, lookup_written h]
  cases slot? names slots name <;> rfl

@[simp] theorem optional_written (h : names.Nodup) :
    Fields.optional ⟨depth, written names slots⟩ name item =
      (slot? names slots name).elim (some none) (item.nullable depth) :=
  withDefault_written h none

@[simp] theorem list_written (h : names.Nodup) :
    Fields.list ⟨depth, written names slots⟩ name item =
      (slot? names slots name).elim (some []) (Decoder.list item depth) :=
  withDefault_written h []

end Fields

@[simp] theorem text_whole (depth : Nat) (s : String) : Decoder.text depth (whole s) = some s :=
  rfl

@[simp] theorem elim_nullable_text (depth : Nat) (s : Option String) :
    s.elim (some none) (Decoder.text.nullable depth ∘ whole) = some s := by
  cases s <;> rfl

section List

variable {α : Type} {toJson : α → Json} {item : Decoder α} {depth : Nat}

@[simp] theorem list_array (as : List α) :
    Decoder.list item (depth + 1) (.array (as.map toJson)) =
      as.mapM fun a => item depth (toJson a) := by
  simp only [Decoder.list, List.mapM_map]
  rfl

/-- A list reads alike whether it is left out or written empty. -/
@[simp] theorem list_listSlot (as : List α) :
    (listSlot toJson as).elim (some []) (Decoder.list item (depth + 1)) =
      as.mapM fun a => item depth (toJson a) := by
  cases as with
  | nil => rfl
  | cons a as => exact list_array (a :: as)

end List

theorem mapM_eq_some_self {α : Type} {f : α → Option α} {as : List α}
    (h : ∀ a ∈ as, f a = some a) : as.mapM f = some as := by
  induction as with
  | nil => rfl
  | cons a as ih =>
    rw [List.mapM_cons, h a List.mem_cons_self, ih fun b hb => h b (List.mem_cons_of_mem _ hb)]
    rfl

/-! ## Values restored -/

/-- Whether what was read is equal to what was written. -/
def Restores {α : Type} [BEq α] (read : Option α) (a : α) : Prop :=
  ∃ b, read = some b ∧ (b == a) = true

theorem not_restores_none {α : Type} [BEq α] (a : α) : ¬Restores none a :=
  fun ⟨_, h, _⟩ => nomatch h

@[simp] theorem restores_some_iff {α : Type} [BEq α] {a b : α} :
    Restores (some b) a ↔ (b == a) = true := by
  simp [Restores]

/-- A record is restored if its only field that may be read otherwise is. -/
theorem restores_field_iff {α β : Type} [BEq α] [BEq β] {read : Option α} {f : α → β} {a : α}
    {b : β} (h : ∀ x, (f x == b) = (x == a)) :
    Restores (do let x ← read; pure (f x)) b ↔ Restores read a := by
  cases read with
  | none => exact iff_of_false (not_restores_none _) (not_restores_none _)
  | some x =>
    change Restores (some (f x)) b ↔ _
    rw [restores_some_iff, restores_some_iff, h]

theorem restores_mapM_iff {α : Type} [BEq α] {f : α → Option α} {as : List α} :
    Restores (as.mapM f) as ↔ ∀ a ∈ as, Restores (f a) a := by
  induction as with
  | nil =>
    refine ⟨fun _ a ha => absurd ha List.not_mem_nil, fun _ => ⟨[], rfl, rfl⟩⟩
  | cons a as ih =>
    rw [List.forall_mem_cons, ← ih, List.mapM_cons]
    constructor
    · intro hread
      obtain ⟨cs, hcs, heq⟩ := hread
      simp only [Option.bind_eq_bind, Option.bind_eq_some_iff] at hcs
      obtain ⟨b, hb, bs, hbs, hcs⟩ := hcs
      cases hcs
      rw [List.cons_beq_cons, Bool.and_eq_true] at heq
      exact ⟨⟨b, hb, heq.1⟩, bs, hbs, heq.2⟩
    · intro hboth
      obtain ⟨⟨b, hb, hab⟩, bs, hbs, habs⟩ := hboth
      refine ⟨b :: bs, by rw [hb, hbs]; rfl, ?_⟩
      rw [List.cons_beq_cons, hab, habs]
      rfl

end Storyworld.Json
