import Storyworld.Proofs.Script.Scanning

/-! # Quoted texts of conditions

What stands between the quotes of a comparison is neither logic nor a comparison: the whole of it is
one test, and what follows is scanned as it is alone (`scan_comparison_and`). The test compares with
the text between the quotes, blanks included, whatever it looks like (`comparison_opaque`).
-/

namespace Storyworld.Script

open Condition (isDelimiter isQuote textRun)

/-! ## Paths of identifiers -/

/-- Whether a character may stand in a path of identifiers. -/
def isPathChar (c : Char) : Bool :=
  Text.isAlphanumeric c || c == '_' || c == '-' || c == '.' || c == ':'

/-- A path of letters, digits, underscores, hyphens and points, with its colons between segments. -/
structure IsPath (p : String) : Prop where
  chars : ∀ c ∈ p.toList, isPathChar c = true
  read : (Path.ofText? p).isSome = true

namespace IsPath

variable {p : String} (h : IsPath p)

include h

theorem ne_of_mem {c d : Char} (hc : c ∈ p.toList) (hd : isPathChar d = false) : c ≠ d := by
  rintro rfl
  simp [h.chars c hc] at hd

theorem not_isBlank {c : Char} (hc : c ∈ p.toList) : Text.isBlank c = false := by
  rw [← Bool.not_eq_true]
  intro hblank
  have hmark (d : Char) (hd : Text.isBlank d = false) : c ≠ d := by
    rintro rfl
    simp [hblank] at hd
  have hchar := h.chars c hc
  simp [isPathChar, Text.isAlphanumeric_of_isBlank hblank, hmark '_' (by decide),
    hmark '-' (by decide), hmark '.' (by decide), hmark ':' (by decide)] at hchar

/-- No character of a path ends a run of text or opens a literal. -/
theorem not_special {c : Char} (hc : c ∈ p.toList) : isDelimiter c = false ∧ isQuote c = false := by
  simp [isDelimiter, isQuote, h.ne_of_mem hc (by decide : isPathChar '(' = false),
    h.ne_of_mem hc (by decide : isPathChar ')' = false),
    h.ne_of_mem hc (by decide : isPathChar '&' = false),
    h.ne_of_mem hc (by decide : isPathChar '|' = false),
    h.ne_of_mem hc (by decide : isPathChar '"' = false),
    h.ne_of_mem hc (by decide : isPathChar '\'' = false)]

/-- No character of a path belongs to an operator of comparison. -/
theorem not_operator {c : Char} (hc : c ∈ p.toList) : c ≠ '=' ∧ c ≠ '<' ∧ c ≠ '>' ∧ c ≠ '!' :=
  ⟨h.ne_of_mem hc (by decide), h.ne_of_mem hc (by decide), h.ne_of_mem hc (by decide),
    h.ne_of_mem hc (by decide)⟩

theorem toList_ne_nil : p.toList ≠ [] := by
  intro hnil
  have hread := h.read
  rw [String.toList_eq_nil_iff.mp hnil] at hread
  cases hread

/-- A path starts a run of text. -/
theorem startsRun (rest : List Char) : Condition.StartsRun (p.toList ++ rest) := by
  obtain ⟨c, cs, hcs⟩ := List.exists_cons_of_ne_nil h.toList_ne_nil
  have hc : c ∈ p.toList := hcs ▸ List.mem_cons_self
  rw [hcs]
  exact .cons (h.not_isBlank hc) (h.not_special hc).1 fun hnot =>
    absurd hnot (h.not_operator hc).2.2.2

end IsPath

/-! ## Comparisons -/

theorem Comparison.Spelt.not_special {op : Comparison} {word : String} (h : op.Spelt word) :
    ∀ c ∈ word.toList, isDelimiter c = false ∧ isQuote c = false := by
  obtain ⟨op⟩ | _ := h
  · cases op <;> simp [Comparison.symbol, isDelimiter, isQuote]
  · simp [isDelimiter, isQuote]

namespace Condition

/-- A comparison that is joined to a condition behind it. -/
def comparisonAnd (test r : String) : String :=
  test ++ " && " ++ r

section

variable {p word : String} {op : Comparison} {quote : Char} {t r : String}

/-- A run of text takes in the comparison with its literal, and stops at what joins it. -/
theorem textRun_comparison (hpath : IsPath p) (hop : op.Spelt word) (hquote : isQuote quote = true)
    (ht : quote ∉ t.toList) (rest : List Char) :
    textRun none ((comparisonText p word (quote :: t.toList ++ [quote])).toList ++
        ' ' :: '&' :: rest) =
      (comparisonText p word (quote :: t.toList ++ [quote])).toList ++ [' '] := by
  have hfront : ∀ c ∈ p.toList ++ ' ' :: (word.toList ++ [' ']),
      isDelimiter c = false ∧ isQuote c = false := by
    have hblank : isDelimiter ' ' = false ∧ isQuote ' ' = false := by decide
    intro c hc
    simp only [List.mem_append, List.mem_cons, List.not_mem_nil, or_false] at hc
    obtain hc | rfl | hc | rfl := hc
    · exact hpath.not_special hc
    · exact hblank
    · exact hop.not_special c hc
    · exact hblank
  have hsource (rest : List Char) :
      (comparisonText p word (quote :: t.toList ++ [quote])).toList ++ rest =
        (p.toList ++ ' ' :: (word.toList ++ [' '])) ++ (quote :: t.toList ++ quote :: rest) := by
    rw [toList_comparisonText]
    simp
  have hend : textRun none (' ' :: '&' :: rest) = [' '] := by
    simp [textRun, isDelimiter, isQuote]
  rw [hsource, hsource, textRun_append hfront, textRun_quoted hquote ht, hend]

/-- **One test, the conjunction, and the tokens of what follows**, as many bytes further on as stand
in front. -/
theorem scan_comparison_and (hpath : IsPath p) (hop : op.Spelt word) (hquote : isQuote quote = true)
    (ht : quote ∉ t.toList) {tokens : List (Spanned Token)} (hr : scan r = .ok tokens) :
    let test := comparisonText p word (quote :: t.toList ++ [quote])
    let n := byteSize test.toList
    scan (comparisonAnd test r) =
      .ok (⟨.atom test, ⟨0, n⟩⟩ :: ⟨.and, ⟨n + 1, n + 3⟩⟩ :: tokens.map (Spanned.shift (n + 4))) := by
  intro test n
  have hrun (rest : List Char) : textRun none (test.toList ++ ' ' :: '&' :: rest) =
      test.toList ++ [' '] := textRun_comparison hpath hop hquote ht rest
  have hsource : (comparisonAnd test r).toList =
      test.toList ++ ' ' :: '&' :: '&' :: ' ' :: r.toList := by
    simp [comparisonAnd]
  have htrim : Text.trimEnd (test.toList ++ [' ']) = test.toList := by
    rw [Text.trimEnd_append (by decide), trimEnd_comparisonText p word hquote]
  have hbehind : Scans (n + 4) r.toList (tokens.map (Spanned.shift (n + 4))) := by
    have hshift := (scan_eq_ok_iff.mp hr).shift (n + 4)
    rwa [Nat.zero_add] at hshift
  have hand : Scans (n + 1) ('&' :: '&' :: ' ' :: r.toList)
      (⟨.and, ⟨n + 1, n + 3⟩⟩ :: tokens.map (Spanned.shift (n + 4))) :=
    .logic (.and _) (.blank (by decide) hbehind)
  have hstarts : StartsRun (test.toList ++ ' ' :: '&' :: '&' :: ' ' :: r.toList) := by
    rw [toList_comparisonText, List.append_assoc]
    exact hpath.startsRun _
  have hcut : textRun none (test.toList ++ ' ' :: '&' :: '&' :: ' ' :: r.toList) ++
      '&' :: '&' :: ' ' :: r.toList = test.toList ++ ' ' :: '&' :: '&' :: ' ' :: r.toList := by
    rw [hrun, List.append_assoc]
    rfl
  have hsize : 0 + byteSize (test.toList ++ [' ']) = n + 1 := by
    rw [byteSize_append, Nat.zero_add]
    rfl
  have hscans := Scans.run hstarts hcut (by rwa [hrun, hsize])
  rw [hrun, htrim, String.ofList_toList, spanFrom, Nat.zero_add, ← hsource] at hscans
  exact scan_eq_ok_iff.mpr hscans

/-- **A quoted text is opaque**, whatever is in it. A path compared with a text between quotes that
are not in it, and joined to a condition that is scanned, is one test, the conjunction, and the tokens
of the condition. The test compares what stands at the path with the text as it is, blanks included,
also where it looks like a number or a boolean. -/
theorem comparison_opaque (hpath : IsPath p) (hop : op.Spelt word) (hquote : isQuote quote = true)
    (ht : quote ∉ t.toList) {tokens : List (Spanned Token)} (hr : scan r = .ok tokens) :
    let test := comparisonText p word (quote :: t.toList ++ [quote])
    let n := byteSize test.toList
    scan (comparisonAnd test r) = .ok (⟨.atom test, ⟨0, n⟩⟩ :: ⟨.and, ⟨n + 1, n + 3⟩⟩ ::
      tokens.map (Spanned.shift (n + 4))) ∧
    ∀ span, Atom.parse test span = .ok ⟨p, some (op, .text t), span⟩ := by
  refine ⟨scan_comparison_and hpath hop hquote ht hr, fun span => ?_⟩
  have hchars (c : Char) (hc : c ∈ p.toList) :
      Text.isBlank c = false ∧ c ≠ '=' ∧ c ≠ '<' ∧ c ≠ '>' := by
    obtain ⟨hequal, hless, hgreater, -⟩ := hpath.not_operator hc
    exact ⟨hpath.not_isBlank hc, hequal, hless, hgreater⟩
  rw [Atom.parse_comparison hop hchars hpath.read hquote, String.ofList_toList]

end

end Condition

open Condition

theorem isPath_teaOwner : IsPath "čaj-2:owner" where
  chars := List.all_eq_true.mp rfl
  read := rfl

/-- A text that looks like more of the condition, with blanks around it and quotes of the other
kind. -/
theorem comparison_opaque_owner :
    let t := " true && (\"x\" >= 4) || !y "
    let test := "čaj-2:owner != ' true && (\"x\" >= 4) || !y '"
    IsPath "čaj-2:owner" ∧ Comparison.Spelt .notEqual "!=" ∧ isQuote '\'' = true ∧
      '\'' ∉ t.toList ∧
      scan "(x|| y)" = .ok [⟨.opening, ⟨0, 1⟩⟩, ⟨.atom "x", ⟨1, 2⟩⟩, ⟨.or, ⟨2, 4⟩⟩,
        ⟨.atom "y", ⟨5, 6⟩⟩, ⟨.closing, ⟨6, 7⟩⟩] ∧
      scan (test ++ " && " ++ "(x|| y)") = .ok [⟨.atom test, ⟨0, 44⟩⟩, ⟨.and, ⟨45, 47⟩⟩,
        ⟨.opening, ⟨48, 49⟩⟩, ⟨.atom "x", ⟨49, 50⟩⟩, ⟨.or, ⟨50, 52⟩⟩, ⟨.atom "y", ⟨53, 54⟩⟩,
        ⟨.closing, ⟨54, 55⟩⟩] ∧
      ∀ span, Atom.parse test span = .ok ⟨"čaj-2:owner", some (.notEqual, .text t), span⟩ := by
  intro t test
  have hop : Comparison.Spelt .notEqual "!=" := .symbol .notEqual
  have ht : '\'' ∉ t.toList := by decide +kernel
  have hr : scan "(x|| y)" = .ok [⟨.opening, ⟨0, 1⟩⟩, ⟨.atom "x", ⟨1, 2⟩⟩, ⟨.or, ⟨2, 4⟩⟩,
      ⟨.atom "y", ⟨5, 6⟩⟩, ⟨.closing, ⟨6, 7⟩⟩] := rfl
  have htest : comparisonText "čaj-2:owner" "!=" ('\'' :: t.toList ++ ['\'']) = test := by
    decide +kernel
  obtain ⟨hscan, hparse⟩ := comparison_opaque isPath_teaOwner hop (by decide) ht hr
  have hsize : byteSize test.toList = 44 := by decide +kernel
  rw [htest] at hscan hparse
  rw [hsize] at hscan
  exact ⟨isPath_teaOwner, hop, by decide, ht, hr, hscan, hparse⟩

end Storyworld.Script
