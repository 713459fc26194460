import Mathlib.Tactic.FinCases
import Storyworld.Story.Markup

/-! # Escaped text

Escaping turns each character that means something in markup into an entity, and unescaping replaces
one kind of entity after the other. Each replacement meets a text in which some characters are put
back and the others still escaped (`escapedExcept`), and puts back one more: no entity is part of
another, and what is put back starts none, as long as `&` comes last.
-/

namespace Storyworld

namespace Text

/-- Where a replacement treats each piece of a text on its own, it treats all of them in order. -/
theorem replaceFrom_flatMap {pattern replacement : List Char} {f g : Char → List Char}
    (h : ∀ c rest, replaceFrom pattern replacement 0 (f c ++ rest) =
      g c ++ replaceFrom pattern replacement 0 rest) (cs : List Char) :
    replaceFrom pattern replacement 0 (cs.flatMap f) = cs.flatMap g := by
  induction cs with
  | nil => rfl
  | cons c cs ih => rw [List.flatMap_cons, List.flatMap_cons, h, ih]

/-- A pattern does not stand where another character than its first one does. -/
theorem replaceFrom_of_ne {c d : Char} (h : d ≠ c) (pattern replacement rest : List Char) :
    replaceFrom (d :: pattern) replacement 0 (c :: rest) =
      c :: replaceFrom (d :: pattern) replacement 0 rest := by
  simp [replaceFrom, h]

end Text

namespace Story

/-! ## Entities -/

/-- The characters that are escaped. -/
def specialChars : List Char := ['&', '<', '>', '"', '\'']

theorem escapedChar_of_not_mem {c : Char} (h : c ∉ specialChars) : escapedChar c = [c] := by
  simp only [specialChars, List.mem_cons, List.not_mem_nil, or_false, not_or] at h
  simp [escapedChar, h]

theorem escapedChar_eq_cons {c : Char} (h : c ∈ specialChars) :
    escapedChar c = '&' :: (escapedChar c).tail := by
  fin_cases h <;> rfl

/-- Of the special characters only `&` stands in what a character is escaped to. -/
theorem not_mem_escapedChar {c d : Char} (hd : d ∈ specialChars) (hne : d ≠ '&') :
    d ∉ escapedChar c := by
  by_cases hc : c ∈ specialChars
  · fin_cases hd
    · exact absurd rfl hne
    all_goals fin_cases hc <;> decide
  · rw [escapedChar_of_not_mem hc, List.mem_singleton]
    rintro rfl
    exact hc hd

theorem not_mem_escape {d : Char} (hd : d ∈ specialChars) (hne : d ≠ '&') (s : String) :
    d ∉ (escape s).toList := by
  rw [escape, String.toList_ofList, List.mem_flatMap]
  rintro ⟨c, -, hc⟩
  exact not_mem_escapedChar hd hne hc

/-! ## Putting characters back -/

/-- The entity of a character is replaced by it, and no other entity is touched. -/
theorem replaceFrom_entity {c d : Char} (hc : c ∈ specialChars) (hd : d ∈ specialChars)
    (rest : List Char) :
    Text.replaceFrom (escapedChar d) [d] 0 (escapedChar c ++ rest) =
      (if c = d then [c] else escapedChar c) ++
        Text.replaceFrom (escapedChar d) [d] 0 rest := by
  fin_cases hc <;> fin_cases hd <;> rfl

/-- A character of a text that is escaped, but for some characters that are put back already. -/
def escapedExcept (back : List Char) (c : Char) : List Char :=
  if c ∈ back then [c] else escapedChar c

theorem replaceFrom_escapedExcept {d : Char} (hd : d ∈ specialChars) {back : List Char}
    (hback : '&' ∉ back) (cs : List Char) :
    Text.replaceFrom (escapedChar d) [d] 0 (cs.flatMap (escapedExcept back)) =
      cs.flatMap (escapedExcept (d :: back)) := by
  refine Text.replaceFrom_flatMap (fun c rest => ?_) cs
  have plain : c ≠ '&' → Text.replaceFrom (escapedChar d) [d] 0 ([c] ++ rest) =
      [c] ++ Text.replaceFrom (escapedChar d) [d] 0 rest := by
    intro hc
    rw [escapedChar_eq_cons hd]
    exact Text.replaceFrom_of_ne hc.symm _ _ rest
  unfold escapedExcept
  by_cases hdone : c ∈ back
  · rw [if_pos hdone, if_pos (List.mem_cons_of_mem d hdone)]
    exact plain fun hc => hback (hc ▸ hdone)
  rw [if_neg hdone]
  by_cases hspecial : c ∈ specialChars
  · rw [replaceFrom_entity hspecial hd]
    simp [hdone]
  · rw [escapedChar_of_not_mem hspecial, ite_self]
    exact plain fun hc => hspecial (hc ▸ List.mem_cons_self)

theorem replaceAll_escapedExcept {entity char : String} (d : Char)
    (hentity : entity.toList = escapedChar d) (hchar : char.toList = [d])
    (hd : d ∈ specialChars) {back : List Char} (hback : '&' ∉ back) (cs : List Char) :
    Text.replaceAll entity char (String.ofList (cs.flatMap (escapedExcept back))) =
      String.ofList (cs.flatMap (escapedExcept (d :: back))) := by
  rw [Text.replaceAll, hentity, hchar, String.toList_ofList, replaceFrom_escapedExcept hd hback]

/-- **Escaped text stands for the text**, whatever is in it, entities included. -/
theorem unescape_escape (s : String) : unescape (escape s) = s := by
  have hback : ∀ c, escapedExcept ['&', '\'', '"', '>', '<'] c = [c] := by
    intro c
    by_cases hc : c ∈ specialChars
    · exact if_pos (by fin_cases hc <;> decide)
    · rw [escapedExcept, escapedChar_of_not_mem hc, ite_self]
  calc unescape (escape s)
      = unescape (String.ofList (s.toList.flatMap (escapedExcept []))) := rfl
    _ = String.ofList (s.toList.flatMap (escapedExcept ['&', '\'', '"', '>', '<'])) := by
      rw [unescape, replaceAll_escapedExcept '<' rfl rfl (by decide) (by decide),
        replaceAll_escapedExcept '>' rfl rfl (by decide) (by decide),
        replaceAll_escapedExcept '"' rfl rfl (by decide) (by decide),
        replaceAll_escapedExcept '\'' rfl rfl (by decide) (by decide),
        replaceAll_escapedExcept '&' rfl rfl (by decide) (by decide)]
    _ = s := by rw [funext hback, List.flatMap_singleton', String.ofList_toList]

end Story

end Storyworld
