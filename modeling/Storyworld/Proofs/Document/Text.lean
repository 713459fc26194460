import Storyworld.Proofs.Document.Codec
import Storyworld.Proofs.Number.Whole

/-! # Documents and their texts

The text of a document reads as its tree (`ofText?_text`), so nothing is lost on the way but what the
tree loses. How deep the tree is nested, and with it whether a reader gets through it, depends on
the attribute trees alone (`Document.depth_toJson_le_iff`): everything else is at most seven
containers deep, and a tree has three around it.
-/

namespace Storyworld

/-! ## Nesting -/

namespace Json

mutual

/-- The number of containers that lie within each other. -/
def depth : Json → Nat
  | .array js => itemsDepth js + 1
  | .object ms => membersDepth ms + 1
  | _ => 0

/-- The depth of the deepest item. -/
def itemsDepth : List Json → Nat
  | [] => 0
  | j :: js => max j.depth (itemsDepth js)

/-- The depth of the deepest member. -/
def membersDepth : List (Option String × Json) → Nat
  | [] => 0
  | (_, j) :: ms => max j.depth (membersDepth ms)

end

theorem itemsDepth_le_iff {n : Nat} {js : List Json} :
    itemsDepth js ≤ n ↔ ∀ j ∈ js, j.depth ≤ n := by
  induction js with
  | nil => simp [itemsDepth]
  | cons j js ih => rw [itemsDepth, Nat.max_le, ih, List.forall_mem_cons]

theorem membersDepth_le_iff {n : Nat} {ms : List (Option String × Json)} :
    membersDepth ms ≤ n ↔ ∀ m ∈ ms, m.2.depth ≤ n := by
  induction ms with
  | nil => simp [membersDepth]
  | cons m ms ih =>
    obtain ⟨name, j⟩ := m
    rw [membersDepth, Nat.max_le, ih, List.forall_mem_cons]

@[simp] theorem depth_whole (s : String) : (whole s).depth = 0 :=
  rfl

theorem depth_array_le_iff {α : Type} {toJson : α → Json} {as : List α} {n : Nat} :
    (Json.array (as.map toJson)).depth ≤ n + 1 ↔ ∀ a ∈ as, (toJson a).depth ≤ n := by
  rw [depth, Nat.add_le_add_iff_right, itemsDepth_le_iff, List.forall_mem_map]

/-- Whether what is written for a field is at most so deep. -/
def ShallowSlot (n : Nat) (o : Option Json) : Prop :=
  ∀ j ∈ o, j.depth ≤ n

/-- A record is one container around its fields. -/
theorem depth_written_le_iff {names : List String} {slots : List (Option Json)} {n : Nat}
    (h : names.length = slots.length) :
    (record (written names slots)).depth ≤ n + 1 ↔ ∀ o ∈ slots, ShallowSlot n o := by
  have members : (record (written names slots)).depth ≤ n + 1 ↔
      ∀ m ∈ written names slots, m.2.depth ≤ n := by
    rw [record, depth, Nat.add_le_add_iff_right, membersDepth_le_iff, List.forall_mem_map]
  rw [members]
  clear members
  induction names generalizing slots with
  | nil =>
    cases slots with
    | nil => exact iff_of_true (List.forall_mem_nil _) (List.forall_mem_nil _)
    | cons o slots => cases h
  | cons name names ih =>
    cases slots with
    | nil => cases h
    | cons o slots =>
      have slot : (∀ m ∈ slot name o, m.2.depth ≤ n) ↔ ShallowSlot n o := by
        simp [Json.slot, ShallowSlot]
      rw [written_cons, List.forall_mem_append, List.forall_mem_cons]
      exact and_congr slot (ih (Nat.succ.inj h))

@[simp] theorem shallowSlot_some {n : Nat} {j : Json} : ShallowSlot n (some j) ↔ j.depth ≤ n := by
  simp [ShallowSlot]

@[simp] theorem shallowSlot_map {α : Type} {toJson : α → Json} {n : Nat} {o : Option α} :
    ShallowSlot n (o.map toJson) ↔ ∀ a ∈ o, (toJson a).depth ≤ n := by
  simp [ShallowSlot]

@[simp] theorem shallowSlot_listSlot {α : Type} {toJson : α → Json} {n : Nat} {as : List α} :
    ShallowSlot (n + 1) (listSlot toJson as) ↔ ∀ a ∈ as, (toJson a).depth ≤ n := by
  cases as with
  | nil => exact iff_of_true (fun j hj => nomatch hj) fun a ha => nomatch ha
  | cons a as => exact shallowSlot_some.trans depth_array_le_iff

end Json

open Json

@[simp] theorem Value.depth_toJson (v : Value) : v.toJson.depth = 0 := by
  cases v with
  | bool b => rfl
  | text s => rfl
  | number x =>
    cases h : Number.stored? x with
    | none => rw [toJson_eq_null h, Json.depth.eq_def]
    | some n => rw [toJson_eq_number h, Json.depth.eq_def]

namespace Attribute

theorem depth_toJson_le_iff {a : Attribute} {n : Nat} : a.toJson.depth ≤ n ↔ a.depth ≤ n := by
  induction n generalizing a with
  | zero =>
    cases a with
    | value v => rw [toJson, Value.depth_toJson, depth]
    | map entries => simp [toJson, Json.depth, depth]
  | succ n ih =>
    cases a with
    | value v => rw [toJson, Value.depth_toJson, depth]
    | map entries =>
      rw [toJson, Json.depth, depth, Nat.add_le_add_iff_right, Nat.add_le_add_iff_right,
        membersDepth_le_iff, entriesDepth_le_iff, entriesToJson_eq_map, List.forall_mem_map]
      exact forall₂_congr fun e _ => ih

end Attribute

/-- The empty tree is not written, and is no deeper than any container. -/
@[simp] theorem Attributes.shallowSlot_member {as : Attributes} {n : Nat} :
    ShallowSlot (n + 1) as.member ↔ (Attribute.map as).depth ≤ n + 1 := by
  cases as with
  | nil => exact iff_of_true (fun j hj => nomatch hj) (Nat.succ_le_succ (Nat.zero_le n))
  | cons key node above rest => exact shallowSlot_some.trans Attribute.depth_toJson_le_iff

/-! ## Parts of documents -/

section

variable (n : Nat)

@[simp] theorem Description.depth_toJson (d : Description) : d.toJson.depth ≤ n + 1 := by
  rw [toJson_eq, depth_written_le_iff rfl]
  simp

@[simp] theorem Connection.depth_toJson (c : Connection) : c.toJson.depth ≤ n + 1 := by
  rw [toJson_eq, depth_written_le_iff rfl]
  simp

@[simp] theorem Rule.depth_toJson (r : Rule) : r.toJson.depth ≤ n + 1 := by
  rw [toJson_eq, depth_written_le_iff rfl]
  simp

@[simp] theorem Response.depth_toJson (r : Response) : r.toJson.depth ≤ n + 1 := by
  rw [toJson_eq, depth_written_le_iff rfl]
  simp

@[simp] theorem DialogueEntry.depth_toJson (e : DialogueEntry) : e.toJson.depth ≤ n + 3 := by
  rw [toJson_eq, depth_written_le_iff rfl]
  simp

@[simp] theorem Metadata.depth_toJson (m : Metadata) : m.toJson.depth ≤ n + 1 := by
  rw [toJson_eq, depth_written_le_iff rfl]
  simp

@[simp] theorem depth_pageToJson (page : String) : (pageToJson page).depth ≤ n + 1 := by
  rw [pageToJson_eq, depth_written_le_iff rfl]
  simp

end

section

variable {n : Nat}

@[simp] theorem Location.depth_toJson_le_iff {l : Location} :
    l.toJson.depth ≤ n + 3 ↔ (Attribute.map l.attributes).depth ≤ n + 2 := by
  rw [toJson_eq, depth_written_le_iff rfl]
  simp [depth_array_le_iff]

@[simp] theorem ItemDraft.depth_toJson_le_iff {i : ItemDraft} :
    i.toJson.depth ≤ n + 3 ↔ (Attribute.map i.attributes).depth ≤ n + 2 := by
  rw [toJson_eq, depth_written_le_iff rfl]
  simp [depth_array_le_iff]

@[simp] theorem CharacterDraft.depth_toJson_le_iff {c : CharacterDraft} :
    c.toJson.depth ≤ n + 5 ↔ (Attribute.map c.attributes).depth ≤ n + 4 := by
  rw [toJson_eq, depth_written_le_iff rfl]
  simp

@[simp] theorem Ending.depth_toJson_le_iff {e : Ending} :
    e.toJson.depth ≤ n + 3 ↔ (Attribute.map e.attributes).depth ≤ n + 2 := by
  rw [toJson_eq, depth_written_le_iff rfl]
  simp [depth_array_le_iff]

@[simp] theorem Variable.depth_toJson_le_iff {v : Variable} :
    v.toJson.depth ≤ n + 2 ↔ (Attribute.map v.attributes).depth ≤ n + 1 := by
  rw [toJson_eq, depth_written_le_iff rfl]
  simp

end

namespace Document

/-- **How deep a document is nested**: seven containers at least are allowed for, and three lie around
each tree. -/
theorem depth_toJson_le_iff {d : Document} {n : Nat} :
    d.toJson.depth ≤ n + 7 ↔ ∀ as ∈ d.trees, (Attribute.map as).depth ≤ n + 4 := by
  rw [toJson_eq, depth_written_le_iff rfl]
  simp only [trees, List.forall_mem_append, List.forall_mem_map]
  simp [depth_array_le_iff, and_assoc]

/-! ## Texts -/

/-- The text of a document reads as its tree. -/
theorem ofText?_text (d : Document) : ofText? d.text = decode nestingLimit d.toJson := by
  rw [ofText?, text, parse?_pretty d.plain_toJson]
  rfl

/-- Whether the text of a document reads as an equal document. -/
def ReadsBack (d : Document) : Prop :=
  ∃ d', ofText? d.text = some d' ∧ (d' == d) = true

/-- **Which documents can be lost.** The text of a document reads as an equal document if and only if
every number in it reads back and at most 127 containers lie within each other. Whole numbers below
9.0e15 do; where the other finite numbers do as well, the first means that all numbers are finite. -/
theorem readsBack_text_iff (d : Document) :
    (d.ReadsBack ↔ (∀ x ∈ d.numbers, Number.ReadsBack x) ∧ d.toJson.depth ≤ 127) ∧
    ((∀ x ∈ d.numbers, Number.isFinite x = true → Number.integer? x = none →
        Number.ReadsBack x) →
      (d.ReadsBack ↔ (∀ x ∈ d.numbers, Number.isFinite x = true) ∧ d.toJson.depth ≤ 127)) := by
  have hreads : d.ReadsBack ↔
      (∀ x ∈ d.numbers, Number.ReadsBack x) ∧ d.toJson.depth ≤ 127 := by
    have hrestores : d.ReadsBack ↔ Restores (decode nestingLimit d.toJson) d := by
      rw [ReadsBack, ofText?_text]
      rfl
    rw [hrestores, show nestingLimit = 120 + 7 from rfl, restores_iff, ← depth_toJson_le_iff]
  refine ⟨hreads, fun hexact => hreads.trans (and_congr_left' ?_)⟩
  refine forall₂_congr fun x hx => ⟨fun h => h.isFinite, fun hfinite => ?_⟩
  cases hinteger : Number.integer? x with
  | none => exact hexact x hx hfinite hinteger
  | some i => exact Number.readsBack_of_integer? hinteger

/-- A document with a fraction, a number that is stored as an integer and an empty container. -/
def inkwell : Document :=
  { metadata := .untitled, intro := [], locations := [], items := [], characters := [],
    endings := [],
    vars := [⟨"ink", .number 0.5,
      .ofList [("pens", .value (.number 3.0)), ("jar", .map .nil)]⟩] }

theorem readsBack_inkwell : inkwell.ReadsBack :=
  ((readsBack_text_iff inkwell).2 (by decide +kernel)).mpr ⟨by decide +kernel, by decide +kernel⟩

end Document

end Storyworld
