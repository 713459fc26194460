import Storyworld.Proofs.Script.Grouping
import Storyworld.Proofs.Script.Scanning

/-! # Conditions join

Two conditions in parentheses, joined by and or by or, are a condition that comes to what theirs
come to (`parse_joined`), unless a quote without a partner on the left finds one on the right: then
a test runs from one side into the other. Both are said by `joined_iff_separate`.
-/

namespace Storyworld.Script

/-! ## Tests further on -/

/-- An error a number of bytes further on. -/
def ScriptError.shift (n : Nat) : ScriptError → ScriptError
  | text fault span => text fault (span.shift n)
  | reference path span cause => reference path (span.shift n) cause
  | evaluation fault => evaluation fault
  | world cause => world cause

namespace Atom

/-- A test a number of bytes further on. -/
def shift (n : Nat) (a : Atom) : Atom :=
  ⟨a.path, a.comparison, a.span.shift n⟩

theorem evaluate_shift (n : Nat) (w : World) (a : Atom) :
    (a.shift n).evaluate w = (a.evaluate w).mapError (ScriptError.shift n) := by
  simp only [evaluate, shift]
  cases w.lookup a.path with
  | error cause => rfl
  | ok v => cases a.comparison <;> rfl

theorem checkPath_place {text : String} {span : Span} (h : checkPath text span = .ok ())
    (span' : Span) : checkPath text span' = .ok () := by
  unfold checkPath at h ⊢
  split at h
  · cases h
  split at h
  · cases h
  · rw [if_neg ‹_›, if_neg ‹_›]

theorem parse_shift {text : String} {span : Span} {a : Atom} (h : parse text span = .ok a)
    (n : Nat) : parse text (span.shift n) = .ok (a.shift n) := by
  unfold parse at h ⊢
  split at h
  · obtain ⟨_, hpath, h⟩ := Except.bind_eq_ok h
    cases h
    rw [checkPath_place hpath]
    rfl
  · rename_i left op right hdivide
    dsimp only at h ⊢
    split at h
    · cases h
    split at h
    · cases h
    obtain ⟨_, hpath, h⟩ := Except.bind_eq_ok h
    cases h
    rw [if_neg ‹_›, if_neg ‹_›, checkPath_place hpath]
    rfl

theorem span_of_parse {text : String} {span : Span} {a : Atom} (h : parse text span = .ok a) :
    a.span = span := by
  unfold parse at h
  split at h
  · obtain ⟨_, -, h⟩ := Except.bind_eq_ok h
    cases h
    rfl
  · dsimp only at h
    split at h
    · cases h
    split at h
    · cases h
    obtain ⟨_, -, h⟩ := Except.bind_eq_ok h
    cases h
    rfl

end Atom

namespace Condition

/-! ## Tokens further on -/

theorem infixOf_shift {t : Spanned Token} {part : Infix Atom Logic} (h : infixOf t = .ok part)
    (n : Nat) : infixOf (t.shift n) = .ok (part.map (Atom.shift n) (Span.shift n)) := by
  obtain ⟨token, span⟩ := t
  cases token with
  | atom text =>
    obtain ⟨a, hparse, rfl⟩ := Except.map_eq_ok h
    change (Atom.parse text (span.shift n)).map Infix.operand = _
    rw [Atom.parse_shift hparse n]
    rfl
  | opening | closing | and | or | not =>
    cases h
    rfl

theorem mapM_infixOf_shift {tokens : List (Spanned Token)} {parts : List (Infix Atom Logic)}
    (h : tokens.mapM infixOf = .ok parts) (n : Nat) :
    (tokens.map (Spanned.shift n)).mapM infixOf =
      .ok (parts.map (Infix.map (Atom.shift n) (Span.shift n))) := by
  induction tokens generalizing parts with
  | nil =>
    cases h
    rfl
  | cons t tokens ih =>
    rw [List.mapM_cons] at h
    obtain ⟨part, hpart, h⟩ := Except.bind_eq_ok h
    obtain ⟨parts, hparts, h⟩ := Except.bind_eq_ok h
    cases h
    rw [List.map_cons, List.mapM_cons, infixOf_shift hpart n, ih hparts]
    rfl

/-- Every run of text is a test of the condition, at its place. -/
theorem exists_atom_of_mem_tokens {source : String} {c : Condition} (h : parse source = .ok c)
    {tokens : List (Spanned Token)} (hscan : scan source = .ok tokens) {t : Spanned Token}
    (ht : t ∈ tokens) {text : String} (htoken : t.token = .atom text) :
    ∃ a ∈ c.atoms, a.span = t.span := by
  obtain ⟨tokens', parts, program, hscan', hparts, hprogram, -, rfl⟩ := parse_eq_ok_iff.mp h
  rw [hscan] at hscan'
  cases hscan'
  obtain ⟨part, hpart, hinfix⟩ := Except.exists_result_of_mapM hparts ht
  obtain ⟨token, span⟩ := t
  cases htoken
  obtain ⟨a, hparse, rfl⟩ := Except.map_eq_ok hinfix
  refine ⟨a, ?_, Atom.span_of_parse hparse⟩
  rw [atoms, operands_of_convert hprogram]
  exact List.mem_filterMap.mpr ⟨_, hpart, rfl⟩

/-! ## Joining -/

/-- What two conditions are joined by. -/
inductive Junction where
  | and
  | or

namespace Junction

def symbol : Junction → String
  | and => "&&"
  | or => "||"

def token : Junction → Token
  | and => .and
  | or => .or

def logic : Junction → Logic
  | and => .and
  | or => .or

/-- The value of both sides. -/
def join : Junction → Bool → Bool → Bool
  | and => Bool.and
  | or => Bool.or

theorem join_comm (j : Junction) (a b : Bool) : j.join a b = j.join b a := by
  cases j
  · exact Bool.and_comm a b
  · exact Bool.or_comm a b

theorem toList_symbol (j : Junction) : j.symbol.toList = j.token.word := by
  cases j <;> rfl

theorem startsWith (j : Junction) (rest : List Char) : StartsWith j.token rest := by
  cases j <;> constructor

theorem infixOf_token (j : Junction) (span : Span) :
    infixOf ⟨j.token, span⟩ = .ok (.operator j.logic) := by
  cases j <;> rfl

theorem arity_logic (j : Junction) : Logic.table.arity j.logic = 2 := by
  cases j <;> rfl

theorem combine_logic (j : Junction) (malformed : ScriptError) (a b : Bool) :
    combine malformed j.logic [a, b] = .ok (j.join a b) := by
  cases j <;> rfl

end Junction

/-- Tokens in parentheses, joined, are the parts in parentheses, joined. -/
theorem mapM_infixOf_joined {ts us : List (Spanned Token)} {ps qs : List (Infix Atom Logic)}
    (hs : ts.mapM infixOf = .ok ps) (ht : us.mapM infixOf = .ok qs) (j : Junction) (n k : Nat)
    (opened closed between opened' closed' : Span) :
    (⟨.opening, opened⟩ :: (ts.map (Spanned.shift n) ++
      ⟨.closing, closed⟩ :: ⟨j.token, between⟩ :: ⟨.opening, opened'⟩ ::
        (us.map (Spanned.shift k) ++ [⟨.closing, closed'⟩]))).mapM infixOf =
      .ok (.opening opened :: (ps.map (Infix.map (Atom.shift n) (Span.shift n)) ++
        .closing closed :: .operator j.logic :: .opening opened' ::
          (qs.map (Infix.map (Atom.shift k) (Span.shift k)) ++ [.closing closed']))) := by
  simp only [List.mapM_cons, List.mapM_append, mapM_infixOf_shift hs n, mapM_infixOf_shift ht k,
    j.infixOf_token]
  rfl

/-- Two conditions in parentheses, joined. -/
def joined (j : Junction) (s t : String) : String :=
  "(" ++ s ++ ") " ++ j.symbol ++ " (" ++ t ++ ")"

/-- Where the right one of two conditions begins that are joined. -/
def rightStart (s : String) : Nat :=
  byteSize s.toList + 7

variable {j : Junction} {s t : String}

/-- What stands behind the left one. -/
def behind (j : Junction) (t : String) : List Char :=
  ' ' :: (j.token.word ++ ' ' :: ('(' :: t.toList ++ [')']))

theorem toList_joined : (joined j s t).toList = '(' :: s.toList ++ ')' :: behind j t := by
  simp [joined, behind, j.toList_symbol]

/-- Quotes behind the left side are quotes of the right side. -/
theorem mem_behind {quote : Char} (hquote : isQuote quote = true) :
    quote ∈ behind j t ↔ quote ∈ t.toList := by
  obtain rfl | rfl := isQuote_iff.mp hquote <;> cases j <;>
    simp [behind, Junction.token, Token.word]

/-- Where no quote finds a partner on the other side, both sides keep their tokens. -/
theorem scan_joined {ts us : List (Spanned Token)} (hs : scan s = .ok ts) (ht : scan t = .ok us)
    (h : Separate s t) : ∃ opened closed between opened' closed',
      scan (joined j s t) = .ok (⟨.opening, opened⟩ :: (ts.map (Spanned.shift 1) ++
        ⟨.closing, closed⟩ :: ⟨j.token, between⟩ :: ⟨.opening, opened'⟩ ::
          (us.map (Spanned.shift (rightStart s)) ++ [⟨.closing, closed'⟩]))) := by
  have hapart : ∀ quote ∈ unpairedFrom .outside s.toList, quote ∉ behind j t := fun quote hquote =>
    (mem_behind (isQuote_of_mem_unpairedFrom hquote)).not.mpr (h quote hquote)
  have hlast : ∀ quote ∈ unpairedFrom .outside t.toList, quote ∉ [] := fun _ _ => List.not_mem_nil
  let start := 0 + 1 + byteSize s.toList + 1 + ' '.utf8Size + byteSize j.token.word + ' '.utf8Size
  have hstart : start + 1 = rightStart s := by
    have hword : byteSize j.token.word = 2 := by cases j <;> rfl
    have hblank : ' '.utf8Size = 1 := rfl
    rw [rightStart]
    omega
  have hright := Scans.group start (scan_eq_ok_iff.mp ht) hlast (.nil _)
  have hbetween := Scans.blank (by decide) (.logic (j.startsWith _) (.blank (by decide) hright))
  have hjoined : Scans 0 ('(' :: s.toList ++ ')' :: behind j t) _ :=
    Scans.group 0 (scan_eq_ok_iff.mp hs) hapart hbetween
  rw [hstart, ← toList_joined] at hjoined
  exact ⟨_, _, _, _, _, scan_eq_ok_iff.mpr hjoined⟩

/-- Where a quote finds its partner on the other side, a run of text goes from one side into the
other. -/
theorem exists_overrun_joined {ts us : List (Spanned Token)} (hs : scan s = .ok ts)
    (h : ¬Separate s t) (hus : scan (joined j s t) = .ok us) :
    ∃ u ∈ us, (∃ text, u.token = .atom text) ∧ u.span.start ≤ 1 + byteSize s.toList ∧
      1 + byteSize s.toList < u.span.stop := by
  obtain ⟨quote, hquote, ht⟩ : ∃ quote ∈ unpaired s, quote ∈ t.toList := by
    simpa [Separate] using h
  have hjoined := scan_eq_ok_iff.mp hus
  rw [toList_joined] at hjoined
  obtain ⟨us', rfl, hinside⟩ := hjoined.of_logic (.opening _)
  have hleft := (scan_eq_ok_iff.mp hs).shift 1
  obtain ⟨u, hu, hoverrun⟩ := hleft.exists_overrun hquote
    ((mem_behind (isQuote_of_mem_unpairedFrom hquote)).mpr ht) hinside
  exact ⟨u, List.mem_cons_of_mem _ hu, hoverrun⟩

/-! ## What joined conditions come to -/

/-- Operators that have their operands do not fail. -/
theorem combine_of_length (malformed malformed' : ScriptError) (g : ScriptError → ScriptError)
    (o : Logic) (vs : List Bool) (h : vs.length = Logic.table.arity o) :
    combine malformed' o vs = (combine malformed o vs).mapError g := by
  match o, vs, h with
  | .not, [_], _ | .and, [_, _], _ | .or, [_, _], _ => rfl

/-- With its tests further on, a condition comes to the same, and fails further on. -/
theorem eval_shift {c : Condition} {tree : Tree Atom Logic} (htree : tree.Fits Logic.table)
    (hprogram : tree.program = c.program) (n : Nat) (w : World) (malformed : ScriptError) :
    (tree.map (Atom.shift n)).eval (Atom.evaluate w) (combine malformed) =
      (c.evaluate w).mapError (ScriptError.shift n) := by
  rw [evaluate, ← hprogram, run_program _ _ _ htree]
  exact Tree.eval_map (Atom.evaluate_shift n w) (combine_of_length _ _ _) htree

/-- **Joined conditions come to what their values come to**, where no quote finds a partner on the
other side, and fail as the first of them that fails. -/
theorem parse_joined {c d : Condition} (hs : parse s = .ok c) (ht : parse t = .ok d)
    (h : Separate s t) (j : Junction) : ∃ e, parse (joined j s t) = .ok e ∧
      ∀ w, e.evaluate w = (do
        let a ← (c.evaluate w).mapError (ScriptError.shift 1)
        let b ← (d.evaluate w).mapError (ScriptError.shift (rightStart s))
        pure (j.join a b)) := by
  obtain ⟨ts, ps, p, hscan, hparts, hprogram, hformed, rfl⟩ := parse_eq_ok_iff.mp hs
  obtain ⟨us, qs, q, hscan', hparts', hprogram', hformed', rfl⟩ := parse_eq_ok_iff.mp ht
  obtain ⟨left, hleft, rfl⟩ := (isWellFormed_iff Logic.table_graded).mp hformed
  obtain ⟨right, hright, rfl⟩ := (isWellFormed_iff Logic.table_graded).mp hformed'
  obtain ⟨opened, closed, between, opened', closed', hjoined⟩ := scan_joined hscan hscan' h
  let tree := Tree.binary j.logic (left.map (Atom.shift 1)) (right.map (Atom.shift (rightStart s)))
  have htree : tree.Fits Logic.table := ⟨j.arity_logic, hleft.map _, hright.map _⟩
  have hreordered := toPostfix_join hprogram hprogram' j.logic (Atom.shift 1)
    (Atom.shift (rightStart s)) (Span.shift 1) (Span.shift (rightStart s)) opened closed opened'
    closed'
  rw [← Tree.program_map, ← Tree.program_map] at hreordered
  have hinfix := mapM_infixOf_joined hparts hparts' j 1 (rightStart s) opened closed between opened'
    closed'
  have hparse : parse (joined j s t) = .ok ⟨joined j s t, tree.program⟩ :=
    parse_eq_ok_iff.mpr ⟨_, _, _, hjoined, hinfix, hreordered, htree.isWellFormed, rfl⟩
  refine ⟨_, hparse, fun w => ?_⟩
  have hfirst := eval_shift (c := ⟨s, left.program⟩) hleft rfl 1 w
  have hsecond := eval_shift (c := ⟨t, right.program⟩) hright rfl (rightStart s) w
  simp only [evaluate, run_program _ _ _ htree] at hfirst hsecond ⊢
  simp only [tree, Tree.eval, hfirst, hsecond, j.combine_logic]
  rfl

theorem holds_joined {c d : Condition} (hs : parse s = .ok c) (ht : parse t = .ok d)
    (h : Separate s t) (j : Junction) {w : World} {a b : Bool} (ha : c.evaluate w = .ok a)
    (hb : d.evaluate w = .ok b) : holds w (joined j s t) = .ok (j.join a b) := by
  obtain ⟨e, he, hevaluate⟩ := parse_joined hs ht h j
  rw [holds, he]
  change e.evaluate w = _
  rw [hevaluate, ha, hb]
  rfl

/-- **Conditions join exactly where no quote finds a partner on the other side.** There, in every
world in which both have a value, the joined condition has the value of both, whichever comes first;
elsewhere, one of its tests begins on the left and goes on beyond the parenthesis. -/
theorem joined_iff_separate {c d : Condition} (hs : parse s = .ok c) (ht : parse t = .ok d)
    (j : Junction) :
    (Separate s t → ∃ e, parse (joined j s t) = .ok e ∧
      ∀ w a b, c.evaluate w = .ok a → d.evaluate w = .ok b → e.evaluate w = .ok (j.join a b)) ∧
    (Separate s t → Separate t s → ∀ w a b, c.evaluate w = .ok a → d.evaluate w = .ok b →
      holds w (joined j s t) = holds w (joined j t s)) ∧
    (¬Separate s t → ∀ e, parse (joined j s t) = .ok e → ∃ a ∈ e.atoms,
      a.span.start ≤ 1 + byteSize s.toList ∧ 1 + byteSize s.toList < a.span.stop) := by
  refine ⟨fun h => ?_, fun h h' w a b ha hb => ?_, fun h e he => ?_⟩
  · obtain ⟨e, he, hevaluate⟩ := parse_joined hs ht h j
    refine ⟨e, he, fun w a b ha hb => ?_⟩
    rw [hevaluate, ha, hb]
    rfl
  · rw [holds_joined hs ht h j ha hb, holds_joined ht hs h' j hb ha, j.join_comm]
  · obtain ⟨ts, ps, p, hscan, -⟩ := parse_eq_ok_iff.mp hs
    obtain ⟨us, qs, q, hscan', -⟩ := parse_eq_ok_iff.mp he
    obtain ⟨u, hu, ⟨text, htext⟩, hstart, hstop⟩ := exists_overrun_joined hscan h hscan'
    obtain ⟨a, ha, hspan⟩ := exists_atom_of_mem_tokens he hscan' hu htext
    exact ⟨a, ha, by rwa [hspan], by rwa [hspan]⟩

end Condition

/-- A story of a room with two variables of which the values have apostrophes. -/
def apostropheRoom : Document :=
  { lampRoom "" with vars := [⟨"x", .text "O'Brien", .nil⟩, ⟨"y", .text "it's", .nil⟩] }

open Condition

/-- An apostrophe in a literal keeps its partner, the quote that closes it. -/
theorem joined_iff_separate_apostropheRoom :
    World.load apostropheRoom = .ok apostropheRoom.world ∧
      Separate "x = \"O'Brien\"" "y = \"it's\"" ∧
      ∃ c d e, Condition.parse "x = \"O'Brien\"" = .ok c ∧
        Condition.parse "y = \"it's\"" = .ok d ∧
        Condition.parse (joined .and "x = \"O'Brien\"" "y = \"it's\"") = .ok e ∧
        c.evaluate apostropheRoom.world = .ok true ∧ d.evaluate apostropheRoom.world = .ok true ∧
        e.evaluate apostropheRoom.world = .ok true := by
  have hs : Condition.parse "x = \"O'Brien\"" = .ok _ := rfl
  have ht : Condition.parse "y = \"it's\"" = .ok _ := rfl
  have hseparate : Separate "x = \"O'Brien\"" "y = \"it's\"" := by decide
  obtain ⟨hjoins, -, -⟩ := joined_iff_separate hs ht .and
  obtain ⟨e, he, hevaluate⟩ := hjoins hseparate
  have hjoined : e.evaluate apostropheRoom.world = .ok true := hevaluate _ true true rfl rfl
  exact ⟨rfl, hseparate, _, _, e, hs, ht, he, rfl, rfl, hjoined⟩

/-- Outside of a literal, an apostrophe without a partner of its own takes one from the other side, so
that two tests that both hold do not hold together, while they do the other way around. -/
theorem not_joined_apostropheRoom :
    World.load apostropheRoom = .ok apostropheRoom.world ∧
      Condition.holds apostropheRoom.world "x = O'Brien" = .ok true ∧
      Condition.holds apostropheRoom.world "y = \"it's\"" = .ok true ∧
      joined .and "x = O'Brien" "y = \"it's\"" = "(x = O'Brien) && (y = \"it's\")" ∧
      Condition.holds apostropheRoom.world "(x = O'Brien) && (y = \"it's\")" = .ok false ∧
      Condition.holds apostropheRoom.world "(y = \"it's\") && (x = O'Brien)" = .ok true :=
  ⟨rfl, rfl, rfl, rfl, rfl, rfl⟩

end Storyworld.Script
