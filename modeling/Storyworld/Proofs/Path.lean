import Storyworld.Path
import Storyworld.Proofs.Document.Check
import Storyworld.Proofs.Text.Blank

/-! # Segments of a path

What a written path is cut into: no segment holds a colon or consists of blanks, so the root of a
path may always be the id of a new variable.
-/

namespace Storyworld

namespace Path

theorem isId_of_mem_segments {source segment : String} (h : segment ∈ segments source)
    (hne : segment ≠ "") : IsId segment := by
  obtain ⟨piece, hpiece, rfl⟩ := List.mem_map.mp h
  constructor
  · rw [Text.isBlankText, String.toList_ofList, ← Bool.not_eq_true]
    intro hblank
    exact hne (by rw [Text.trim_eq_nil_of_all_blank hblank, String.ofList_nil])
  · rw [String.toList_ofList]
    exact fun hm => Text.not_mem_of_mem_splitAt hpiece (Text.mem_of_mem_trim hm)

theorem segments_of_ofText? {source : String} {p : Path} (h : ofText? source = some p) :
    segments source = p.root :: p.keys ∧ p.root ≠ "" ∧ "" ∉ p.keys := by
  unfold ofText? at h
  split at h
  · cases h
  · rename_i root keys hsegments
    split at h
    · cases h
    · rename_i hne
      cases h
      exact ⟨hsegments, not_or.mp hne⟩

/-- The root of a path may be an id. -/
theorem isId_root {source : String} {p : Path} (h : ofText? source = some p) : IsId p.root := by
  obtain ⟨hsegments, hroot, -⟩ := segments_of_ofText? h
  exact isId_of_mem_segments (hsegments ▸ List.mem_cons_self) hroot

end Path

end Storyworld
