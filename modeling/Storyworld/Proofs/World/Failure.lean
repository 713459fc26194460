import Storyworld.Proofs.World.Integrity

/-! # Calls that fail

A call of the store changes a world in place, and where it fails it may already have gone down an
attribute tree and put back what it found. In an intact world that comes to nothing: an entity that
is put back is the only one with its id, and a change that fails has made no container
(`Attributes.Change.Clean`).
-/

namespace Storyworld

@[simp] theorem Entity.withAttributes_attributes (e : Entity) :
    e.withAttributes e.attributes = e := by
  cases e <;> rfl

namespace World

/-- Putting an entity back where it was found changes nothing. -/
theorem Intact.replace_of_find? {w : World} (h : w.Intact) {id : String} {e : Entity}
    (hfind : w.find? id = some e) : w.replace e = w := by
  have honly : ∀ x ∈ w.entities, x.id = e.id → x = e := fun x hx hid =>
    List.inj_on_of_nodup_map h.distinct hx (mem_of_find? hfind) hid
  cases e with
  | location l =>
    have hsame := map_overwrite_self (·.id) fun x hx hid =>
      Entity.location.inj (honly (.location x) (mem_locations_iff.mpr hx) hid)
    simp only [replace, hsame]
  | item i =>
    have hsame := map_overwrite_self (·.id) fun x hx hid =>
      Entity.item.inj (honly (.item x) (mem_items_iff.mpr hx) hid)
    simp only [replace, hsame]
  | character c =>
    have hsame := map_overwrite_self (·.id) fun x hx hid =>
      Entity.character.inj (honly (.character x) (mem_characters_iff.mpr hx) hid)
    simp only [replace, hsame]
  | ending e =>
    have hsame := map_overwrite_self (·.id) fun x hx hid =>
      Entity.ending.inj (honly (.ending x) (mem_endings_iff.mpr hx) hid)
    simp only [replace, hsame]
  | «variable» v =>
    have hsame := map_overwrite_self (·.id) fun x hx hid =>
      Entity.variable.inj (honly (.variable x) (mem_vars_iff.mpr hx) hid)
    simp only [replace, hsame]

end World

namespace Store

variable {w w' : World} {source : String} {fault : WorldError}

theorem inAttributes_untouched {α : Type} {id : String} {e : Entity} (hw : w.Intact)
    (hfind : w.find? id = some e) {change : Attributes.Change α} (hclean : change.Clean)
    (h : inAttributes e source change w = (.error fault, w')) : w' = w := by
  rcases hrun : change e.attributes with ⟨result, as⟩
  simp only [inAttributes, hrun] at h
  cases result with
  | ok a => cases h
  | error cause =>
    cases h
    rw [hclean.untouched hrun, Entity.withAttributes_attributes]
    exact hw.replace_of_find? hfind

/-- **A write that fails leaves the world as it was.** -/
theorem set_untouched {v : Value} (hw : w.Intact) (h : set source v w = (.error fault, w')) :
    w' = w := by
  have hresult := set_result source v w
  generalize set source v w = left at hresult h
  cases hresult with
  | refused => cases h; rfl
  | assigned | created | field => cases h
  | inTree below =>
    exact inAttributes_untouched hw below.found
      (Attributes.Change.Clean.atEnd (Attributes.Change.put_clean v) _ _) h

/-- **A read with a default that fails leaves the world as it was.** -/
theorem getOrSet_untouched {default : Value} (hw : w.Intact)
    (h : getOrSet source default w = (.error fault, w')) : w' = w := by
  have hresult := getOrSet_result source default w
  generalize getOrSet source default w = left at hresult h
  cases hresult with
  | unchanged => cases h; rfl
  | created => cases h
  | inTree below =>
    exact inAttributes_untouched hw below.found
      (Attributes.Change.Clean.atEnd (Attributes.Change.getOrPut_clean default) _ _) h

end Store

end Storyworld
