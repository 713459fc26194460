import Storyworld.Proofs.World.Integrity

/-! # Names that come into being

The entities of a world are never fewer, and a new one is a variable whose name some call has
written as a path of one segment. Calls for longer paths add nothing (`Store.set_grows`).
-/

namespace Storyworld

namespace World

/-- One world that writes turn into another, whose new names are all of a kind. -/
structure Grows (named : String → Prop) (w w' : World) : Prop where
  evolves : w.Evolves w'
  ids : ∀ id ∈ w'.ids, id ∈ w.ids ∨ named id

variable {named : String → Prop}

theorem Grows.refl (w : World) : w.Grows named w :=
  ⟨.refl w, fun _ hid => .inl hid⟩

theorem Grows.trans {u v w : World} (h₁ : u.Grows named v) (h₂ : v.Grows named w) :
    u.Grows named w := by
  refine ⟨h₁.evolves.trans h₂.evolves, fun id hid => ?_⟩
  rcases h₂.ids id hid with hid | hnamed
  · exact h₁.ids id hid
  · exact .inr hnamed

theorem mem_ids_addVariable_iff {w : World} {id x : String} {v : Value} :
    x ∈ (w.addVariable id v).ids ↔ x ∈ w.ids ∨ x = id := by
  rw [ids_addVariable, List.mem_append, List.mem_singleton]

/-- No entity ever goes away. -/
theorem Evolves.mem_ids {w w' : World} (h : w.Evolves w') {id : String} (hid : id ∈ w.ids) :
    id ∈ w'.ids := by
  refine h.keeps (P := fun w => id ∈ w.ids) (fun hstep hid => ?_) hid
  cases hstep with
  | create v named fresh => exact mem_ids_addVariable_iff.mpr (.inl hid)
  | revise found hrev => rwa [ids_replace]

end World

namespace Store

open World

variable {named : String → Prop} {source : String}

theorem ids_inAttributes {α : Type} (e : Entity) (source : String) (change : Attributes.Change α)
    (w : World) : (inAttributes e source change w).2.ids = w.ids :=
  ids_replace _ _

theorem set_grows (h : ∀ p, Path.ofText? source = some p → p.keys = [] → named p.root) (v : Value)
    (w : World) : w.Grows named (set source v w).2 := by
  refine ⟨set_evolves source v w, fun id hid => ?_⟩
  have hresult := set_result source v w
  generalize set source v w = left at hresult hid
  cases hresult with
  | refused => exact .inl hid
  | assigned | field => exact .inl (ids_replace _ _ ▸ hid)
  | created path bare fresh =>
    obtain hid | rfl := mem_ids_addVariable_iff.mp hid
    · exact .inl hid
    · exact .inr (h _ path bare)
  | inTree => exact .inl (ids_inAttributes _ _ _ _ ▸ hid)

theorem getOrSet_grows (h : ∀ p, Path.ofText? source = some p → p.keys = [] → named p.root)
    (default : Value) (w : World) : w.Grows named (getOrSet source default w).2 := by
  refine ⟨getOrSet_evolves source default w, fun id hid => ?_⟩
  have hresult := getOrSet_result source default w
  generalize getOrSet source default w = left at hresult hid
  cases hresult with
  | unchanged => exact .inl hid
  | created path bare fresh =>
    obtain hid | rfl := mem_ids_addVariable_iff.mp hid
    · exact .inl hid
    · exact .inr (h _ path bare)
  | inTree => exact .inl (ids_inAttributes _ _ _ _ ▸ hid)

end Store

end Storyworld
