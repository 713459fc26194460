import Storyworld.Proofs.Script.Displacement

/-! # Conditions in parentheses

Parentheses around a condition change nothing in it but the places of its tests, and an exclamation
mark in front of them negates what it comes to (`grouped_transparent`). This is about texts: quotes
without a partner and operators in odd places are read inside the parentheses as they are alone, for
behind the closing parenthesis no quote is left to find a partner in.
-/

namespace Storyworld.Script

namespace Condition

/-- A condition in parentheses. -/
def grouped (s : String) : String :=
  "(" ++ s ++ ")"

/-- A condition in parentheses, negated. -/
def negated (s : String) : String :=
  "!(" ++ s ++ ")"

variable {s : String} {ts : List (Spanned Token)} {ps : List (Infix Atom Logic)} {c : Condition}

/-! ## Tokens -/

theorem scans_group (hs : scan s = .ok ts) (n : Nat) :
    Scans n ('(' :: s.toList ++ [')'])
      (⟨.opening, spanFrom n ['(']⟩ :: (ts.map (Spanned.shift (n + 1)) ++
        [⟨.closing, spanFrom (n + 1 + byteSize s.toList) [')']⟩])) :=
  .group n (scan_eq_ok_iff.mp hs) (fun _ _ => List.not_mem_nil) (.nil _)

theorem scan_grouped (hs : scan s = .ok ts) : ∃ opened closed,
    scan (grouped s) = .ok (⟨.opening, opened⟩ :: (ts.map (Spanned.shift 1) ++
      [⟨.closing, closed⟩])) := by
  have hgroup := scans_group hs 0
  have hsource : '(' :: s.toList ++ [')'] = (grouped s).toList := by simp [grouped]
  rw [hsource] at hgroup
  exact ⟨_, _, scan_eq_ok_iff.mpr hgroup⟩

theorem scan_negated (hs : scan s = .ok ts) : ∃ mark opened closed,
    scan (negated s) = .ok (⟨.not, mark⟩ :: ⟨.opening, opened⟩ ::
      (ts.map (Spanned.shift 2) ++ [⟨.closing, closed⟩])) := by
  have hmark : StartsWith .not ('(' :: s.toList ++ [')']) := .not (by simp)
  have hnegated : Scans 0 (Token.not.word ++ ('(' :: s.toList ++ [')'])) _ :=
    .logic hmark (scans_group hs 1)
  have hsource : Token.not.word ++ ('(' :: s.toList ++ [')']) = (negated s).toList := by
    simp [negated, Token.word]
  rw [hsource] at hnegated
  exact ⟨_, _, _, scan_eq_ok_iff.mpr hnegated⟩

theorem mapM_infixOf_group (hs : ts.mapM infixOf = .ok ps) (n : Nat) (opened closed : Span) :
    (⟨.opening, opened⟩ :: (ts.map (Spanned.shift n) ++ [⟨.closing, closed⟩])).mapM infixOf =
      .ok (.opening opened :: (ps.map (Infix.map (Atom.shift n) (Span.shift n)) ++
        [.closing closed])) := by
  simp only [List.mapM_cons, List.mapM_append, mapM_infixOf_shift hs n]
  rfl

/-! ## Programs -/

/-- In parentheses, a condition has its program, one byte further on. -/
theorem parse_grouped (h : parse s = .ok c) :
    parse (grouped s) = .ok ⟨grouped s, c.program.map (Postfix.map (Atom.shift 1))⟩ := by
  obtain ⟨ts, ps, p, hscan, hparts, hprogram, hformed, rfl⟩ := parse_eq_ok_iff.mp h
  obtain ⟨opened, closed, hgrouped⟩ := scan_grouped hscan
  have hinfix := mapM_infixOf_group hparts 1 opened closed
  have hreordered := toPostfix_group hprogram (Atom.shift 1) (Span.shift 1) opened closed
  exact parse_eq_ok_iff.mpr ⟨_, _, _, hgrouped, hinfix, hreordered,
    (isWellFormed_map _ _).trans hformed, rfl⟩

/-- Negated, a condition has its program, two bytes further on, and a negation behind it. -/
theorem parse_negated (h : parse s = .ok c) :
    parse (negated s) =
      .ok ⟨negated s, c.program.map (Postfix.map (Atom.shift 2)) ++ [.operator .not]⟩ := by
  obtain ⟨ts, ps, p, hscan, hparts, hprogram, hformed, rfl⟩ := parse_eq_ok_iff.mp h
  obtain ⟨mark, opened, closed, hnegated⟩ := scan_negated hscan
  have hinfix : (⟨.not, mark⟩ :: ⟨.opening, opened⟩ ::
      (ts.map (Spanned.shift 2) ++ [⟨.closing, closed⟩])).mapM infixOf =
      .ok (.operator .not :: .opening opened ::
        (ps.map (Infix.map (Atom.shift 2) (Span.shift 2)) ++ [.closing closed])) := by
    rw [List.mapM_cons, mapM_infixOf_group hparts 2 opened closed]
    rfl
  have hreordered := toPostfix_front hprogram .not (Atom.shift 2) (Span.shift 2) opened closed
  exact parse_eq_ok_iff.mpr ⟨_, _, _, hnegated, hinfix, hreordered,
    isWellFormed_unary Logic.table_graded rfl ((isWellFormed_map _ _).trans hformed), rfl⟩

/-! ## Values -/

theorem exists_tree (h : parse s = .ok c) :
    ∃ tree : Tree Atom Logic, tree.Fits Logic.table ∧ tree.program = c.program := by
  obtain ⟨-, -, p, -, -, -, hformed, rfl⟩ := parse_eq_ok_iff.mp h
  exact (isWellFormed_iff Logic.table_graded).mp hformed

/-- A condition with the program of another one, further on, comes to the same. -/
theorem evaluate_further (h : parse s = .ok c) (source : String) (n : Nat) (w : World) :
    (⟨source, c.program.map (Postfix.map (Atom.shift n))⟩ : Condition).evaluate w =
      (c.evaluate w).mapError (ScriptError.shift n) := by
  obtain ⟨tree, htree, hprogram⟩ := exists_tree h
  rw [evaluate, ← hprogram, ← Tree.program_map, run_program _ _ _ (htree.map _)]
  exact eval_shift htree hprogram n w _

/-- With a negation behind its program, a condition comes to the opposite. -/
theorem evaluate_further_not (h : parse s = .ok c) (source : String) (n : Nat) (w : World) :
    (⟨source, c.program.map (Postfix.map (Atom.shift n)) ++ [.operator .not]⟩ :
        Condition).evaluate w =
      ((c.evaluate w).map (!·)).mapError (ScriptError.shift n) := by
  obtain ⟨tree, htree, hprogram⟩ := exists_tree h
  have hfits : (Tree.unary .not (tree.map (Atom.shift n))).Fits Logic.table := ⟨rfl, htree.map _⟩
  have hnegated : c.program.map (Postfix.map (Atom.shift n)) ++ [.operator .not] =
      (Tree.unary .not (tree.map (Atom.shift n))).program := by
    rw [Tree.program, Tree.program_map, hprogram]
  rw [evaluate, hnegated, run_program _ _ _ hfits, Tree.eval, eval_shift htree hprogram]
  cases c.evaluate w <;> rfl

/-- **Parentheses and negation do what they say**, around every condition that can be read. In
parentheses a condition can be read too, and comes to the same in every world; negated, to the
opposite. Where it fails, both fail with the same error, further on by what stands in front. -/
theorem grouped_transparent (h : parse s = .ok c) :
    (∃ d, parse (grouped s) = .ok d ∧
      ∀ w, d.evaluate w = (c.evaluate w).mapError (ScriptError.shift 1)) ∧
    ∃ d, parse (negated s) = .ok d ∧
      ∀ w, d.evaluate w = ((c.evaluate w).map (!·)).mapError (ScriptError.shift 2) :=
  ⟨⟨_, parse_grouped h, evaluate_further h _ 1⟩, _, parse_negated h, evaluate_further_not h _ 2⟩

end Condition

open Condition

/-- A quote without a partner finds none in the parenthesis behind it; and an operator that comes too
late is in time for the parenthesis. -/
theorem grouped_transparent_apostropheRoom :
    World.load apostropheRoom = .ok apostropheRoom.world ∧
      (∃ c, Condition.parse "x = O'Brien" = .ok c ∧ c.evaluate apostropheRoom.world = .ok true) ∧
      (∃ d, Condition.parse "!(x = O'Brien)" = .ok d ∧
        d.evaluate apostropheRoom.world = .ok false) ∧
      (∃ c, Condition.parse "(x)(ghost) ||" = .ok c ∧ c.evaluate apostropheRoom.world =
        .error (.reference "ghost" ⟨4, 9⟩ (.unknownPath "ghost"))) ∧
      ∃ d, Condition.parse "((x)(ghost) ||)" = .ok d ∧ d.evaluate apostropheRoom.world =
        .error (.reference "ghost" ⟨5, 10⟩ (.unknownPath "ghost")) := by
  have hquoted : Condition.parse "x = O'Brien" = .ok _ := rfl
  have hlate : Condition.parse "(x)(ghost) ||" = .ok _ := rfl
  obtain ⟨-, d, hnegated, hopposite⟩ := grouped_transparent hquoted
  obtain ⟨⟨e, hgrouped, hsame⟩, -⟩ := grouped_transparent hlate
  exact ⟨rfl, ⟨_, hquoted, rfl⟩, ⟨d, hnegated, hopposite _⟩, ⟨_, hlate, rfl⟩, e, hgrouped, hsame _⟩

end Storyworld.Script
