import Storyworld.Text.Blank
import Storyworld.Text.Numeric

/-! # Blanks

Cutting and trimming take nothing but separators and blanks away, and no blank is a letter or a
number, which the tables of Unicode have to be compared for.
-/

namespace Storyworld.Text

theorem not_mem_of_mem_splitAt {sep : Char} {cs piece : List Char}
    (h : piece ∈ splitAt sep cs) : sep ∉ piece := by
  induction cs generalizing piece with
  | nil => simp_all [splitAt]
  | cons c cs ih =>
    unfold splitAt at h
    split at h
    · rename_i hnone
      cases cs with
      | nil => simp [splitAt] at hnone
      | cons d ds =>
        unfold splitAt at hnone
        split at hnone
        · cases hnone
        · split at hnone <;> cases hnone
    · rename_i first others hsplit
      rw [hsplit] at ih
      split at h
      · rcases List.mem_cons.mp h with rfl | hm
        · exact List.not_mem_nil
        · exact ih hm
      · rename_i hne
        rcases List.mem_cons.mp h with rfl | hm
        · simp only [List.mem_cons, not_or]
          exact ⟨Ne.symm hne, ih List.mem_cons_self⟩
        · exact ih (List.mem_cons_of_mem _ hm)

theorem splitAt_ne_nil (sep : Char) (cs : List Char) : splitAt sep cs ≠ [] := by
  cases cs with
  | nil => exact List.cons_ne_nil _ _
  | cons c cs =>
    unfold splitAt
    split
    · exact List.cons_ne_nil _ _
    · split <;> exact List.cons_ne_nil _ _

/-- A text is cut at a separator, and what follows it is cut on its own. -/
theorem splitAt_append {sep : Char} {cs : List Char} (h : sep ∉ cs) (rest : List Char) :
    splitAt sep (cs ++ sep :: rest) = cs :: splitAt sep rest := by
  induction cs with
  | nil =>
    rw [List.nil_append, splitAt]
    cases hrest : splitAt sep rest with
    | nil => exact absurd hrest (splitAt_ne_nil sep rest)
    | cons piece pieces => simp
  | cons c cs ih =>
    have hc : c ≠ sep := Ne.symm (List.ne_of_not_mem_cons h)
    rw [List.cons_append, splitAt, ih (List.not_mem_of_not_mem_cons h)]
    simp [hc]

theorem splitAt_of_not_mem {sep : Char} {cs : List Char} (h : sep ∉ cs) : splitAt sep cs = [cs] := by
  induction cs with
  | nil => rfl
  | cons c cs ih =>
    have hc : c ≠ sep := Ne.symm (List.ne_of_not_mem_cons h)
    rw [splitAt, ih (List.not_mem_of_not_mem_cons h)]
    simp [hc]

theorem trimEnd_sublist (cs : List Char) : (trimEnd cs).Sublist cs := by
  rw [trimEnd, ← List.reverse_sublist, List.reverse_reverse]
  exact List.dropWhile_sublist isBlank

theorem trim_sublist (cs : List Char) : (trim cs).Sublist cs :=
  (trimEnd_sublist _).trans (List.dropWhile_sublist isBlank)

theorem mem_of_mem_trim {c : Char} {cs : List Char} (h : c ∈ trim cs) : c ∈ cs :=
  (trim_sublist cs).mem h

theorem trimStart_cons {c : Char} (h : isBlank c = false) (cs : List Char) :
    trimStart (c :: cs) = c :: cs := by
  rw [trimStart, List.dropWhile_cons_of_neg (by simp [h])]

theorem trimEnd_concat {c : Char} (h : isBlank c = false) (cs : List Char) :
    trimEnd (cs ++ [c]) = cs ++ [c] := by
  rw [trimEnd, List.reverse_concat, List.dropWhile_cons_of_neg (by simp [h])]
  simp

theorem trimEnd_append {after : List Char} (h : after.all isBlank = true) (cs : List Char) :
    trimEnd (cs ++ after) = trimEnd cs := by
  have hreverse : after.reverse.all isBlank = true := List.all_reverse.trans h
  rw [trimEnd, List.reverse_append, List.dropWhile_append_of_pos (List.all_eq_true.mp hreverse)]
  rfl

/-- Nothing in front of a character that is not blank is trimmed at the end. -/
theorem prefix_trimEnd {c : Char} (h : isBlank c = false) {before cs : List Char}
    (hfront : before ++ [c] <+: cs) : before ++ [c] <+: trimEnd cs := by
  obtain ⟨after, rfl⟩ := hfront
  rw [trimEnd, List.reverse_append, List.dropWhile_append]
  split
  · rw [List.reverse_append, List.reverse_singleton, List.singleton_append,
      List.dropWhile_cons_of_neg (by simp [h])]
    simp
  · rw [List.reverse_append, List.reverse_reverse]
    exact List.prefix_append _ _

/-- Blanks around a text that neither starts nor ends with one are all that trimming takes away. -/
theorem trim_between (before after : List Char) {cs : List Char} {c : Char}
    (hbefore : before.all isBlank = true) (hafter : after.all isBlank = true)
    (hc : isBlank c = false) (hend : trimEnd (c :: cs) = c :: cs) : trim (before ++ c :: cs ++ after) = c :: cs := by
  have hstart : trimStart (before ++ c :: cs ++ after) = c :: cs ++ after := by
    rw [trimStart, List.append_assoc, List.dropWhile_append_of_pos (List.all_eq_true.mp hbefore)]
    exact trimStart_cons hc _
  rw [trim, hstart, trimEnd_append hafter, hend]

theorem trimEnd_of_no_blank {cs : List Char} (h : ∀ c ∈ cs, isBlank c = false) :
    trimEnd cs = cs := by
  by_cases hne : cs = []
  · rw [hne]
    rfl
  · have hend := trimEnd_concat (h _ (List.getLast_mem hne)) cs.dropLast
    rwa [List.dropLast_concat_getLast hne] at hend

/-- A text without blanks stays as it is between blanks. -/
theorem trim_of_no_blank {before after cs : List Char} (hbefore : before.all isBlank = true)
    (hafter : after.all isBlank = true) (h : ∀ c ∈ cs, isBlank c = false) (hne : cs ≠ []) :
    trim (before ++ cs ++ after) = cs := by
  obtain ⟨c, rest, rfl⟩ := List.exists_cons_of_ne_nil hne
  exact trim_between before after hbefore hafter (h c List.mem_cons_self) (trimEnd_of_no_blank h)

/-- A trimmed text ends with a character that is not blank, if it has one at all. -/
theorem trim_eq_nil_of_all_blank {cs : List Char} (h : (trim cs).all isBlank = true) :
    trim cs = [] := by
  simp only [trim, trimEnd, List.all_reverse, List.reverse_eq_nil_iff] at h ⊢
  have hhead := List.head?_dropWhile_not isBlank (trimStart cs).reverse
  cases hd : (trimStart cs).reverse.dropWhile isBlank with
  | nil => rfl
  | cons c rest =>
    rw [hd] at h hhead
    simp_all

/-- What is trimmed at the end is blank. -/
theorem exists_trimEnd (cs : List Char) :
    ∃ after, cs = trimEnd cs ++ after ∧ after.all isBlank = true := by
  refine ⟨(cs.reverse.takeWhile isBlank).reverse, ?_, ?_⟩
  · rw [trimEnd, ← List.reverse_append, List.takeWhile_append_dropWhile, List.reverse_reverse]
  · rw [List.all_reverse]
    exact List.all_takeWhile

theorem trimEnd_trimEnd (cs : List Char) : trimEnd (trimEnd cs) = trimEnd cs := by
  obtain ⟨after, hcs, hafter⟩ := exists_trimEnd cs
  conv => rhs; rw [hcs]
  exact (trimEnd_append hafter _).symm

/-- Of a trimmed text, nothing is trimmed. -/
theorem trim_trim (cs : List Char) : trim (trim cs) = trim cs := by
  unfold trim
  cases hstart : trimStart cs with
  | nil => rfl
  | cons c rest =>
    have hc : isBlank c = false := by
      have hhead := List.head?_dropWhile_not isBlank cs
      rw [← trimStart, hstart] at hhead
      simpa using hhead
    have hfront : [] ++ [c] <+: c :: rest := ⟨rest, rfl⟩
    obtain ⟨more, hmore⟩ := prefix_trimEnd hc hfront
    have hsame : trimStart (trimEnd (c :: rest)) = trimEnd (c :: rest) := by
      rw [← hmore]
      exact trimStart_cons hc more
    rw [hsame, trimEnd_trimEnd]

/-- A text is the blanks it starts with, its trimmed form, and more blanks. -/
theorem exists_takeWhile_trim (cs : List Char) :
    ∃ after, cs = cs.takeWhile isBlank ++ trim cs ++ after ∧ after.all isBlank = true := by
  obtain ⟨after, hend, hafter⟩ := exists_trimEnd (trimStart cs)
  refine ⟨after, ?_, hafter⟩
  rw [trim, List.append_assoc, ← hend, trimStart, List.takeWhile_append_dropWhile]

/-- A text is its trimmed form between blanks. -/
theorem exists_trim (cs : List Char) : ∃ before after, cs = before ++ trim cs ++ after ∧
    before.all isBlank = true ∧ after.all isBlank = true := by
  obtain ⟨after, hcs, hafter⟩ := exists_takeWhile_trim cs
  exact ⟨_, after, hcs, List.all_takeWhile, hafter⟩

/-- Trimming takes blanks away and nothing else. -/
theorem mem_trim_of_not_isBlank {c : Char} (hc : isBlank c = false) {cs : List Char} (h : c ∈ cs) :
    c ∈ trim cs := by
  obtain ⟨before, after, hcs, hbefore, hafter⟩ := exists_trim cs
  rw [hcs, List.mem_append, List.mem_append] at h
  obtain (h | h) | h := h
  · simp [List.all_eq_true.mp hbefore c h] at hc
  · exact h
  · simp [List.all_eq_true.mp hafter c h] at hc

theorem trimmed_ne_empty {s : String} (h : isBlankText s = false) : trimmed s ≠ "" := by
  intro hempty
  obtain ⟨before, after, hs, hbefore, hafter⟩ := exists_trim s.toList
  have htrim : trim s.toList = [] := by simpa [trimmed] using hempty
  have hblank : isBlankText s = true := by
    rw [isBlankText, hs, htrim, List.append_nil, List.all_append, hbefore, hafter, Bool.and_self]
  rw [hblank] at h
  cases h

/-! ## Blanks among the characters -/

/-- The blank characters. -/
def blank : CharRanges := [
  (0x09, 0x0D), (0x20, 0x20), (0x85, 0x85), (0xA0, 0xA0), (0x1680, 0x1680), (0x2000, 0x200A),
  (0x2028, 0x2029), (0x202F, 0x202F), (0x205F, 0x205F), (0x3000, 0x3000)]

theorem blank_has {c : Char} (h : isBlank c = true) : blank.has c = true := by
  simp only [isBlank, Bool.or_eq_true, Bool.and_eq_true, decide_eq_true_eq, beq_iff_eq] at h
  simp only [blank, CharRanges.has, List.any_cons, List.any_nil, Bool.or_eq_true,
    Bool.and_eq_true, decide_eq_true_eq, Bool.or_false]
  omega

/-- Whether two sets have no character in common, by their ranges. -/
def CharRanges.apart (first second : CharRanges) : Bool :=
  first.all fun r => second.all fun s => r.2.blt s.1 || s.2.blt r.1

theorem CharRanges.not_has_of_apart {first second : CharRanges} (h : first.apart second = true)
    {c : Char} (hc : first.has c = true) : second.has c = false := by
  obtain ⟨r, hr, hlow, hhigh⟩ := (has_iff first c).mp hc
  rw [← Bool.not_eq_true, has_iff]
  rintro ⟨s, hs, hlow', hhigh'⟩
  have happart := List.all_eq_true.mp (List.all_eq_true.mp h r hr) s hs
  simp only [Bool.or_eq_true, Nat.blt_eq] at happart
  omega

theorem blank_apart_alphabetic : ∀ table ∈ [alphabeticTo07FF, alphabeticTo0FFF,
    alphabeticTo9FFF, alphabeticToFFFF, alphabeticTo11FFF, alphabeticTo10FFFF],
    blank.apart table = true := by
  decide +kernel

theorem blank_apart_numeric : blank.apart numeric = true := by
  decide +kernel

/-- Of the first characters, a blank is none of those that can be seen. -/
theorem toNat_le_of_isBlank {c : Char} (h : isBlank c = true) (hascii : c.toNat < 0x80) :
    c.toNat ≤ 0x20 := by
  simp only [isBlank, Bool.or_eq_true, Bool.and_eq_true, decide_eq_true_eq, beq_iff_eq] at h
  omega

theorem isAlphabetic_of_isBlank {c : Char} (h : isBlank c = true) : isAlphabetic c = false := by
  unfold isAlphabetic
  split
  · rename_i hascii
    have hle := toNat_le_of_isBlank h hascii
    delta Char.isAlpha Char.isUpper Char.isLower
    simp only [Char.reduceVal, ge_iff_le, UInt32.le_iff_toNat_le, UInt32.reduceToNat,
      Char.toNat_val, Bool.decide_and, Bool.or_eq_false_iff, Bool.and_eq_false_imp,
      decide_eq_true_eq, decide_eq_false_iff_not]
    omega
  · rw [List.any_eq_false]
    intro table htable
    rw [CharRanges.not_has_of_apart (blank_apart_alphabetic table htable) (blank_has h)]
    exact Bool.false_ne_true

theorem isNumeric_of_isBlank {c : Char} (h : isBlank c = true) : isNumeric c = false := by
  unfold isNumeric
  split
  · rename_i hascii
    have hle := toNat_le_of_isBlank h hascii
    simp only [Char.isDigit, Char.reduceVal, ge_iff_le, UInt32.le_iff_toNat_le,
      UInt32.reduceToNat, Char.toNat_val, Bool.and_eq_false_imp, decide_eq_true_eq,
      decide_eq_false_iff_not]
    omega
  · exact CharRanges.not_has_of_apart blank_apart_numeric (blank_has h)

theorem isAlphanumeric_of_isBlank {c : Char} (h : isBlank c = true) :
    isAlphanumeric c = false := by
  rw [isAlphanumeric, isAlphabetic_of_isBlank h, isNumeric_of_isBlank h, Bool.or_false]

end Storyworld.Text
