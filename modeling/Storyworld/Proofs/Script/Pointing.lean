import Storyworld.Proofs.Script.Bytes.Assignment
import Storyworld.Proofs.Script.Bytes.Condition
import Storyworld.Proofs.Script.Places

/-! # Every place points at what it names

What is read of a script has its place in the script: the tests of a condition, the clauses of
assignments and the names in them stand where they say, and so does what an error is about
(`PointsInto`). An expression is read from the middle of a clause, and a clause from the middle of a
script, so places are found from the innermost text outwards (`StandsAt.within`). All of it is said
of every source by `places_point`.
-/

namespace Storyworld.Script

variable {α ο : Type} {T : OperatorTable ο}

/-! ## Errors at places -/

/-- An error has no place, or one in a text that begins at a byte. -/
def ScriptError.PointsInto (start : Nat) (cs : List Char) (e : ScriptError) : Prop :=
  ∀ s ∈ e.span?, ∃ text, StandsAt start cs s text

namespace ScriptError.PointsInto

variable {start : Nat} {cs : List Char} {e : ScriptError}

theorem behind (before : List Char) (h : e.PointsInto (start + byteSize before) cs) :
    e.PointsInto start (before ++ cs) := fun s hs =>
  (h s hs).imp fun _ => StandsAt.behind before

theorem within (before : List Char) (h : e.PointsInto (start + byteSize before) cs)
    (after : List Char) : e.PointsInto start (before ++ cs ++ after) := fun s hs =>
  (h s hs).imp fun _ hstands => hstands.within before after

theorem text (fault : TextFault) {s : Span} {text : List Char} (h : StandsAt start cs s text) :
    (ScriptError.text fault s).PointsInto start cs := by
  rintro _ ⟨⟩
  exact ⟨text, h⟩

theorem evaluation (fault : EvaluationFault) : (ScriptError.evaluation fault).PointsInto start cs :=
  nofun

end ScriptError.PointsInto

/-! ## Parentheses without a partner -/

/-- The place of a parenthesis. -/
def Infix.paren? : Infix α ο → Option Span
  | .opening span | .closing span => some span
  | .operand _ | .operator _ => none

def Unbalanced.span : Unbalanced → Span
  | opening span | closing span => span

theorem Pending.finish_eq_error {stack : List (Pending ο)} {u : Unbalanced}
    (h : finish stack = .error u) : .opening u.span ∈ stack := by
  induction stack with
  | nil => cases h
  | cons top stack ih =>
    cases top with
    | opening span =>
      cases h
      exact List.mem_cons_self
    | operator o => exact List.mem_cons_of_mem _ (ih (Except.map_eq_error h))

/-- A parenthesis that is blamed is one of the source. -/
theorem convert_eq_error {tokens : List (Infix α ο)} {stack : List (Pending ο)} {u : Unbalanced}
    (h : convert T tokens stack = .error u) :
    (∃ t ∈ tokens, t.paren? = some u.span) ∨ .opening u.span ∈ stack := by
  induction tokens generalizing stack with
  | nil => exact .inr (Pending.finish_eq_error (Except.map_eq_error h))
  | cons token tokens ih =>
    have hbehind {stack' : List (Pending ο)} (hrest : convert T tokens stack' = .error u)
        (hstack : ∀ span, .opening span ∈ stack' →
          token.paren? = some span ∨ .opening span ∈ stack) :
        (∃ t ∈ token :: tokens, t.paren? = some u.span) ∨ .opening u.span ∈ stack := by
      obtain ⟨t, ht, hspan⟩ | hmem := ih hrest
      · exact .inl ⟨t, List.mem_cons_of_mem _ ht, hspan⟩
      · exact (hstack _ hmem).imp_left fun hspan => ⟨token, List.mem_cons_self, hspan⟩
    cases token with
    | operand a => exact hbehind (Except.map_eq_error h) fun _ => .inr
    | opening span =>
      refine hbehind h fun span' hmem => ?_
      obtain heq | hmem := List.mem_cons.mp hmem
      · cases heq
        exact .inl rfl
      · exact .inr hmem
    | operator o =>
      refine hbehind (Except.map_eq_error h) fun span' hmem => .inr ?_
      have hkept : .opening span' ∈ (Pending.release T o stack).2 := by
        obtain heq | hmem := List.mem_cons.mp hmem
        · cases heq
        · exact hmem
      rw [← Pending.append_release (T := T) o stack]
      exact List.mem_append_right _ hkept
    | closing span =>
      rw [convert] at h
      cases hclose : Pending.close stack with
      | none =>
        rw [hclose] at h
        cases h
        exact .inl ⟨_, List.mem_cons_self, rfl⟩
      | some closed =>
        obtain ⟨released, kept⟩ := closed
        rw [hclose] at h
        obtain ⟨opened, rfl⟩ := Pending.close_eq_some hclose
        exact hbehind (Except.map_eq_error h) fun span' hmem =>
          .inr (List.mem_append_right _ (List.mem_cons_of_mem _ hmem))

/-! ## Conditions -/

namespace Condition

open ScriptError

theorem pointsInto_of_logic? {start : Nat} {c : Char} {cs : List Char} {e : ScriptError}
    (h : logic? start (c :: cs) = .error e) : e.PointsInto start (c :: cs) := by
  have hfront : StandsAt start (c :: cs) (spanFrom start [c]) [c] := standsAt_front start [c] cs
  unfold logic? at h
  split at h <;> cases h
  all_goals
    rename_i heq
    cases heq
    exact .text _ hfront

/-- An error of scanning stands in the source. -/
theorem pointsInto_of_scanFrom {fuel start : Nat} {cs : List Char} {e : ScriptError}
    (h : scanFrom fuel start cs = .error e) : e.PointsInto start cs := by
  induction fuel generalizing start cs with
  | zero => cases cs <;> cases h
  | succ fuel ih =>
    cases cs with
    | nil => cases h
    | cons c cs =>
      cases hblank : Text.isBlank c with
      | true =>
        rw [scanFrom, if_pos hblank] at h
        exact PointsInto.behind [c] (ih h)
      | false =>
        cases hlogic : logic? start (c :: cs) with
        | error e' =>
          rw [scanFrom, if_neg (by simp [hblank]), hlogic] at h
          cases h
          exact pointsInto_of_logic? hlogic
        | ok logic =>
          cases logic with
          | some found =>
            obtain ⟨token, rest⟩ := found
            obtain ⟨hcs, starts⟩ := logic?_eq_ok_some_iff.mp hlogic
            rw [hcs, scanFrom_logic starts] at h
            rw [hcs]
            exact (ih (Except.map_eq_error h)).behind _
          | none =>
            obtain ⟨hdelimiter, hnot⟩ := logic?_eq_ok_none_iff.mp hlogic
            have starts : StartsRun (c :: cs) := .cons hblank hdelimiter hnot
            obtain ⟨rest, cut⟩ := textRun_isPrefix none (c :: cs)
            rw [scanFrom_textRun starts cut] at h
            rw [← cut]
            exact (ih (Except.map_eq_error h)).behind _

end Condition

theorem Atom.pointsInto_of_checkPath {start : Nat} {cs : List Char} {text : String} {s : Span}
    {word : List Char} (hstands : StandsAt start cs s word) {e : ScriptError}
    (h : checkPath text s = .error e) : e.PointsInto start cs := by
  unfold checkPath at h
  split at h
  · cases h
    exact .text _ hstands
  split at h
  · cases h
    exact .text _ hstands
  · cases h

/-- An error of a test stands in the test. -/
theorem Atom.pointsInto_of_parse {start : Nat} {text : String} {e : ScriptError}
    (h : parse text (spanFrom start text.toList) = .error e) : e.PointsInto start text.toList := by
  have hself := standsAt_self start text.toList
  have hoperator := operatorAt?_ofText 0 text.toList
  unfold parse at h
  cases hdivide : divide? text.toList with
  | none =>
    rw [hdivide] at h
    obtain h | ⟨_, -, h⟩ := Except.bind_eq_error h
    · exact pointsInto_of_checkPath hself h
    · cases h
  | some found =>
    obtain ⟨left, op, right⟩ := found
    rw [hdivide] at h hoperator
    obtain ⟨word, htext, -⟩ := hoperator
    dsimp only at h
    split at h
    · cases h
      exact .text _ hself
    split at h
    · cases h
      exact .text _ hself
    obtain h | ⟨_, -, h⟩ := Except.bind_eq_error h
    · have hleft : StandsAt start text.toList (spanFrom start left) left := by
        rw [htext, List.append_assoc]
        exact standsAt_front start left (word ++ right)
      exact pointsInto_of_checkPath hleft h
    · cases h

namespace Condition

theorem span_of_paren {t : Spanned Token} {part : Infix Atom Logic} (h : infixOf t = .ok part)
    {s : Span} (hs : part.paren? = some s) : t.span = s := by
  obtain ⟨token, span⟩ := t
  cases token with
  | opening | closing =>
    cases h
    exact Option.some.inj hs
  | and | or | not =>
    cases h
    cases hs
  | atom text =>
    obtain ⟨a, -, rfl⟩ := Except.map_eq_ok h
    cases hs

theorem standsAt_of_scan {source : String} {tokens : List (Spanned Token)}
    (hscan : scan source = .ok tokens) {t : Spanned Token} (ht : t ∈ tokens) :
    StandsAt 0 source.toList t.span t.token.word :=
  ((scan_eq_ok_iff.mp hscan).laid.standsAt (List.mem_map_of_mem ht)).1

/-- **An error of a condition stands in the condition.** -/
theorem pointsInto_of_parse {source : String} {e : ScriptError} (h : parse source = .error e) :
    e.PointsInto 0 source.toList := by
  have hwhole : StandsAt 0 source.toList ⟨0, byteSize source.toList⟩ source.toList := by
    have hself := standsAt_self 0 source.toList
    rwa [spanFrom, Nat.zero_add] at hself
  obtain h | ⟨tokens, hscan, h⟩ := Except.bind_eq_error h
  · exact pointsInto_of_scanFrom h
  split at h
  · cases h
    exact .text _ hwhole
  obtain h | ⟨parts, hparts, h⟩ := Except.bind_eq_error h
  · obtain ⟨before, t, after, rfl, -, hinfix⟩ := Except.mapM_eq_error_iff.mp h
    have hstands := standsAt_of_scan hscan (t := t) (by simp)
    obtain ⟨token, span⟩ := t
    cases token with
    | opening | closing | and | or | not => cases hinfix
    | atom text =>
      obtain ⟨front, back, hsource, hspan⟩ := hstands
      have hparse : Atom.parse text span = .error e := Except.map_eq_error hinfix
      rw [show span = spanFrom (0 + byteSize front) text.toList from hspan] at hparse
      rw [hsource]
      exact (Atom.pointsInto_of_parse hparse).within front back
  obtain h | ⟨program, hprogram, h⟩ := Except.bind_eq_error h
  · cases hconvert : toPostfix Logic.table parts with
    | ok program =>
      rw [hconvert] at h
      cases h
    | error u =>
      rw [hconvert] at h
      obtain ⟨part, hpart, hparen⟩ | hmem := convert_eq_error hconvert
      · obtain ⟨t, ht, hinfix⟩ := Except.exists_argument_of_mapM hparts hpart
        have hstands := standsAt_of_scan hscan ht
        rw [span_of_paren hinfix hparen] at hstands
        cases u <;> cases h <;> exact .text _ hstands
      · cases hmem
  · split at h <;> cases h
    exact .text _ hwhole

/-- **A test that fails stands in its condition.** -/
theorem pointsInto_of_evaluate {source : String} {c : Condition} (h : parse source = .ok c)
    {w : World} {e : ScriptError} (he : c.evaluate w = .error e) : e.PointsInto 0 source.toList := by
  obtain ⟨-, hfails⟩ := evaluate_eager h
  obtain ⟨before, a, after, hatoms, -, ha⟩ := ((hfails w).1 e).mp he
  obtain ⟨tokens, hscan, t, ht, text, htoken, hparse⟩ :=
    exists_token_of_mem_atoms h (a := a) (by simp [hatoms])
  obtain ⟨cause, rfl⟩ := isReference_of_evaluate ha
  rintro s ⟨⟩
  rw [Atom.span_of_parse hparse]
  exact ⟨_, standsAt_of_scan hscan ht⟩

end Condition

/-! ## Expressions -/

namespace Expression

theorem pointsInto_of_token {start : Nat} {c : Char} {cs : List Char} {e : ScriptError}
    (h : token start c cs = .error e) : e.PointsInto start (c :: cs) := by
  unfold token at h
  split at h
  · cases h
  split at h
  · split at h
    · cases h
    · cases h
      exact .text _ (standsAt_self start (c :: cs))
  split at h
  · dsimp only at h
    split at h
    · cases h
    · cases h
      obtain ⟨rest, hrest⟩ := List.takeWhile_prefix (l := c :: cs) isNumberChar
      have hfront := standsAt_front start ((c :: cs).takeWhile isNumberChar) rest
      rw [hrest] at hfront
      exact .text _ hfront
  split at h
  · cases h
  · cases h
    exact .text _ (standsAt_front start [c] cs)

theorem pointsInto_of_scanFrom {fuel start : Nat} {cs : List Char} {e : ScriptError}
    (h : scanFrom fuel start cs = .error e) : e.PointsInto start cs := by
  induction fuel generalizing start cs with
  | zero => cases cs <;> cases h
  | succ fuel ih =>
    cases cs with
    | nil => cases h
    | cons c cs =>
      cases hblank : Text.isBlank c with
      | true =>
        rw [scanFrom, if_pos hblank] at h
        exact ScriptError.PointsInto.behind [c] (ih h)
      | false =>
        cases htoken : token start c cs with
        | error e' =>
          rw [scanFrom, if_neg (by simp [hblank]), htoken] at h
          cases h
          exact pointsInto_of_token htoken
        | ok found =>
          obtain ⟨t, rest⟩ := found
          obtain ⟨word, rfl, -⟩ := token_closed htoken
          rw [scanFrom_token hblank htoken] at h
          exact (ih (Except.map_eq_error h)).behind (c :: word)

/-- An error of an expression stands in the expression. -/
theorem pointsInto_of_parse {start : Nat} {cs : List Char} {e : ScriptError}
    (h : parse start cs = .error e) : e.PointsInto start cs := by
  unfold parse at h
  dsimp only at h
  split at h
  · cases h
  split at h
  · cases h
  obtain h | ⟨tokens, hscan, h⟩ := Except.bind_eq_error h
  · exact pointsInto_of_scanFrom h
  split at h
  · cases h
    exact .text _ (standsAt_self start cs)
  obtain h | ⟨program, hprogram, h⟩ := Except.bind_eq_error h
  · cases hconvert : toPostfix Arithmetic.table (infixes false tokens) with
    | ok program =>
      rw [hconvert] at h
      cases h
    | error u =>
      rw [hconvert] at h
      cases u <;> cases h <;> exact .evaluation _
  · split at h <;> cases h
    exact .evaluation _

theorem exists_token_of_mem_infixes {afterOperand : Bool} {tokens : List (Spanned Token)}
    {path : String} {span : Span}
    (h : .operand (.name path span) ∈ infixes afterOperand tokens) :
    ⟨.name path, span⟩ ∈ tokens := by
  induction tokens generalizing afterOperand with
  | nil => cases h
  | cons t tokens ih =>
    obtain heq | h := List.mem_cons.mp h
    · obtain ⟨token, span'⟩ := t
      cases token <;> cases heq
      exact List.mem_cons_self
    · exact List.mem_cons_of_mem _ (ih h)

/-- **A name of an expression stands at its place**, which is not empty. -/
theorem standsAt_of_mem_names {start : Nat} {cs : List Char} {x : Expression}
    (h : parse start cs = .ok x) {path : String} {span : Span} (hname : (path, span) ∈ x.names) :
    StandsAt start cs span path.toList ∧ path.toList ≠ [] := by
  obtain ⟨tokens, hscan, hprogram, -⟩ := parse_eq_ok_iff.mp h
  obtain ⟨o, ho, hpath⟩ := List.mem_filterMap.mp hname
  rw [operands_of_convert hprogram] at ho
  obtain ⟨part, hpart, hoperand⟩ := List.mem_filterMap.mp ho
  cases part <;> cases hoperand
  cases o <;> cases hpath
  have htoken := exists_token_of_mem_infixes hpart
  obtain ⟨words, hlaid, -, hnames⟩ := (scan_eq_ok_iff.mp hscan).laid
  exact hlaid.standsAt (hnames path span htoken)

/-- **A name that fails stands in its expression.** -/
theorem pointsInto_of_evaluate {start : Nat} {cs : List Char} {x : Expression}
    (h : parse start cs = .ok x) {w : World} {e : ScriptError} (he : x.evaluate w = .error e) :
    e.PointsInto start cs := by
  obtain ⟨path, span, cause, hname, -, rfl⟩ | ⟨fault, rfl⟩ := reference_or_evaluation he
  · rintro s ⟨⟩
    exact ⟨_, (standsAt_of_mem_names h hname).1⟩
  · exact .evaluation fault

end Expression

/-! ## Assignments -/

namespace Assignment

open ScriptError

/-- An error of a clause stands in the clause. -/
theorem pointsInto_of_parse {start : Nat} {clause : List Char} {e : ScriptError}
    (h : parse start clause = .error e) : e.PointsInto start clause := by
  unfold parse at h
  cases hdivide : divideOutside? '=' .outside clause with
  | none =>
    rw [hdivide] at h
    cases h
    exact .text _ (standsAt_self start clause)
  | some found =>
    obtain ⟨left, right⟩ := found
    obtain ⟨rfl, -⟩ := divideOutside?_eq_some hdivide
    have hleft := standsAt_front start left ('=' :: right)
    rw [hdivide] at h
    dsimp only at h
    split at h
    · cases h
      exact .text _ hleft
    split at h
    · cases h
      exact .text _ hleft
    obtain h | ⟨x, -, h⟩ := Except.bind_eq_error h
    · have hequals : byteSize (left ++ ['=']) = byteSize left + 1 := byteSize_append left ['=']
      have hright := Expression.pointsInto_of_parse h
      rw [Nat.add_assoc, ← hequals] at hright
      rw [List.append_cons]
      exact hright.behind _
    · cases h

/-- What a clause is made of. -/
theorem parse_eq_ok {start : Nat} {clause : List Char} {a : Assignment}
    (h : parse start clause = .ok a) : ∃ left right, clause = left ++ '=' :: right ∧
      Expression.parse (start + byteSize (left ++ ['='])) right = .ok a.expression ∧
      a.span = spanFrom start clause ∧ (∀ c ∈ a.target.toList, Text.isBlank c = false) ∧
      (Path.ofText? a.target).isSome := by
  unfold parse at h
  cases hdivide : divideOutside? '=' .outside clause with
  | none =>
    rw [hdivide] at h
    cases h
  | some found =>
    obtain ⟨left, right⟩ := found
    obtain ⟨rfl, -⟩ := divideOutside?_eq_some hdivide
    rw [hdivide] at h
    dsimp only at h
    split at h
    · cases h
    rename_i hclean
    split at h
    · cases h
    rename_i hpath
    obtain ⟨x, hx, h⟩ := Except.bind_eq_ok h
    cases h
    refine ⟨left, right, rfl, ?_, rfl, ?_, by simpa [Option.isSome_iff_ne_none] using hpath⟩
    · rwa [byteSize_append, ← Nat.add_assoc]
    · rw [String.toList_ofList]
      simpa using (not_or.mp hclean).2

/-- The expression of a clause and what is in it stand in the clause. -/
theorem standsAt_of_mem_names {start : Nat} {clause : List Char} {a : Assignment}
    (h : parse start clause = .ok a) {path : String} {span : Span}
    (hname : (path, span) ∈ a.expression.names) :
    StandsAt start clause span path.toList ∧ path.toList ≠ [] := by
  obtain ⟨left, right, rfl, hexpression, -⟩ := parse_eq_ok h
  obtain ⟨hstands, hne⟩ := Expression.standsAt_of_mem_names hexpression hname
  rw [List.append_cons]
  exact ⟨hstands.behind _, hne⟩

theorem pointsInto_of_evaluate {start : Nat} {clause : List Char} {a : Assignment}
    (h : parse start clause = .ok a) {w : World} {e : ScriptError}
    (he : a.expression.evaluate w = .error e) : e.PointsInto start clause := by
  obtain ⟨left, right, rfl, hexpression, -⟩ := parse_eq_ok h
  rw [List.append_cons]
  exact (Expression.pointsInto_of_evaluate hexpression he).behind _

section

variable {sep : Char} (hsize : sep.utf8Size = 1)

include hsize

/-- What stands in the pieces behind one stands behind it. -/
theorem standsAt_joinPieces {start : Nat} {pieces : List (List Char)} (hne : pieces ≠ [])
    {piece text : List Char} {s : Span}
    (h : StandsAt (start + byteSize piece + 1) (joinPieces sep pieces) s text) :
    StandsAt start (joinPieces sep (piece :: pieces)) s text := by
  have hfront : byteSize (piece ++ [sep]) = byteSize piece + 1 := by simp [hsize]
  rw [Nat.add_assoc, ← hfront] at h
  rw [joinPieces_cons hne, List.append_cons]
  exact h.behind _

/-- The clauses of pieces stand in order in the pieces, each read from the text at its place. -/
theorem standsAt_of_parseAll {start : Nat} {pieces : List (List Char)} {as : List Assignment}
    (h : parseAll start pieces = .ok as) :
    (∀ a ∈ as, ∃ clause, StandsAt start (joinPieces sep pieces) a.span clause ∧
      Text.trim clause = clause ∧ parse a.span.start clause = .ok a) ∧
    InOrder (as.map (·.span)) := by
  induction pieces generalizing start as with
  | nil =>
    cases h
    exact ⟨List.forall_mem_nil _, .nil⟩
  | cons piece pieces ih =>
    have hbehind {others : List Assignment}
        (hothers : parseAll (start + byteSize piece + 1) pieces = .ok others) {a : Assignment}
        (ha : a ∈ others) : start + byteSize piece + 1 ≤ a.span.start ∧
          ∃ clause, StandsAt start (joinPieces sep (piece :: pieces)) a.span clause ∧
            Text.trim clause = clause ∧ parse a.span.start clause = .ok a := by
      have hne : pieces ≠ [] := by
        rintro rfl
        cases hothers
        cases ha
      obtain ⟨clause, hstands, hclause⟩ := (ih hothers).1 a ha
      exact ⟨hstands.bounds.1, clause, standsAt_joinPieces hsize hne hstands, hclause⟩
    rw [parseAll] at h
    split at h
    · exact ⟨fun a ha => (hbehind h ha).2, (ih h).2⟩
    · obtain ⟨first, hfirst, h⟩ := Except.bind_eq_ok h
      obtain ⟨others, hothers, h⟩ := Except.bind_eq_ok h
      cases h
      obtain ⟨-, -, -, -, hspan, -⟩ := parse_eq_ok hfirst
      have hstart : first.span.start = start + byteSize (piece.takeWhile Text.isBlank) := by
        rw [hspan, spanFrom]
      obtain ⟨after, hpiece, -⟩ := Text.exists_takeWhile_trim piece
      have hstands : StandsAt start piece first.span (Text.trim piece) :=
        ⟨piece.takeWhile Text.isBlank, after, hpiece, hspan⟩
      refine ⟨List.forall_mem_cons.mpr ⟨⟨_, ?_, Text.trim_trim piece, hstart ▸ hfirst⟩,
        fun a ha => (hbehind hothers ha).2⟩, .cons ?_ (ih hothers).2⟩
      · obtain ⟨after, hjoined⟩ := exists_joinPieces_cons sep piece pieces
        rw [hjoined]
        exact hstands.within [] after
      · refine List.forall_mem_map.mpr fun a ha => ?_
        have hstop := hstands.bounds.2
        have hnext := (hbehind hothers ha).1
        exact Nat.le_trans hstop (Nat.le_of_succ_le hnext)

/-- An error of pieces stands in them. -/
theorem pointsInto_of_parseAll {start : Nat} {pieces : List (List Char)} {e : ScriptError}
    (h : parseAll start pieces = .error e) : e.PointsInto start (joinPieces sep pieces) := by
  induction pieces generalizing start with
  | nil => cases h
  | cons piece pieces ih =>
    have hbehind (hrest : parseAll (start + byteSize piece + 1) pieces = .error e) :
        e.PointsInto start (joinPieces sep (piece :: pieces)) := by
      have hne : pieces ≠ [] := by
        rintro rfl
        cases hrest
      exact fun s hs => (ih hrest s hs).imp fun _ => standsAt_joinPieces hsize hne
    rw [parseAll] at h
    split at h
    · exact hbehind h
    obtain h | ⟨first, -, h⟩ := Except.bind_eq_error h
    · obtain ⟨after, hjoined⟩ := exists_joinPieces_cons sep piece pieces
      obtain ⟨blanks, hpiece, -⟩ := Text.exists_takeWhile_trim piece
      have hwithin := (pointsInto_of_parse h).within _ blanks
      rw [← hpiece] at hwithin
      rw [hjoined]
      exact hwithin.within [] after
    obtain h | ⟨others, -, h⟩ := Except.bind_eq_error h
    · exact hbehind h
    · cases h

end

theorem perform_eq_error {a : Assignment} {w : World} {e : ScriptError}
    (h : (a.perform w).1 = .error e) :
    a.expression.evaluate w = .error e ∨ ∃ cause, e = .world cause := by
  obtain ⟨_, hevaluate, hperform⟩ | ⟨v, -, hperform⟩ := a.perform_cases w
  · rw [hperform] at h
    cases h
    exact .inl hevaluate
  · rw [hperform] at h
    obtain ⟨cause, -, rfl⟩ := Except.mapError_eq_error h
    exact .inr ⟨cause, rfl⟩

theorem performAll_eq_error {as : List Assignment} {w : World} {e : ScriptError}
    (h : (performAll as w).1 = .error e) : ∃ a ∈ as, ∃ w', (a.perform w').1 = .error e := by
  induction as generalizing w with
  | nil => cases h
  | cons a as ih =>
    rw [performAll, run_bind] at h
    rcases hrun : a.perform w with ⟨r, w'⟩
    rw [hrun] at h
    cases r with
    | error fault =>
      cases h
      exact ⟨a, List.mem_cons_self, w, by rw [hrun]⟩
    | ok u =>
      obtain ⟨b, hb, hfails⟩ := ih h
      exact ⟨b, List.mem_cons_of_mem a hb, hfails⟩

end Assignment

/-! ## Sources -/

/-- Whether a place can be cut out of a source. -/
def ScriptError.HasPlace (cs : List Char) (e : ScriptError) : Prop :=
  ∀ s ∈ e.span?, ∃ text, slice? cs s = some text

theorem ScriptError.PointsInto.hasPlace {cs : List Char} {e : ScriptError}
    (h : e.PointsInto 0 cs) : e.HasPlace cs := fun s hs =>
  (h s hs).imp fun _ => standsAt_zero_iff.mp

/-- What a condition says of places is so: reading it by bytes makes no cut that cannot be made, its
tokens cover it, each the word at its place, its tests are read from the texts at their places, and
its errors have places in it. -/
structure Condition.Points (source : String) : Prop where
  scanned : bytewiseScan source = .of (scan source)
  read : bytewiseParse source = .of (parse source)
  tokens : ∀ tokens, scan source = .ok tokens → Covers source.toList (tokens.map (·.span))
  words : ∀ tokens, scan source = .ok tokens →
    ∀ t ∈ tokens, slice? source.toList t.span = some t.token.word
  atoms : ∀ c, parse source = .ok c → ∀ a ∈ c.atoms, ∃ text : String,
    slice? source.toList a.span = some text.toList ∧ Atom.parse text a.span = .ok a
  unread : ∀ e, parse source = .error e → e.HasPlace source.toList
  failed : ∀ c, parse source = .ok c → ∀ w e, c.evaluate w = .error e → e.HasPlace source.toList

/-- What an expression says of places is so. -/
structure Expression.Points (source : List Char) : Prop where
  scanned : bytewiseScan source = .of (scan 0 source)
  read : bytewiseParse source = .of (parse 0 source)
  tokens : ∀ tokens, scan 0 source = .ok tokens → Covers source (tokens.map (·.span))
  names : ∀ x, parse 0 source = .ok x → ∀ name ∈ x.names,
    slice? source name.2 = some name.1.toList
  unread : ∀ e, parse 0 source = .error e → e.HasPlace source
  failed : ∀ x, parse 0 source = .ok x → ∀ w e, x.evaluate w = .error e → e.HasPlace source

/-- What a script of assignments says of places is so. A name stands in its clause. -/
structure Assignment.Points (source : String) : Prop where
  read : bytewiseParseAssignments source = .of (parseAssignments source)
  clauses : ∀ as, parseAssignments source = .ok as → InOrder (as.map (·.span)) ∧
    ∀ a ∈ as, ∃ clause, slice? source.toList a.span = some clause ∧
      Text.trim clause = clause ∧ parse a.span.start clause = .ok a
  names : ∀ as, parseAssignments source = .ok as → ∀ a ∈ as, ∀ name ∈ a.expression.names,
    slice? source.toList name.2 = some name.1.toList ∧
      a.span.start ≤ name.2.start ∧ name.2.stop ≤ a.span.stop
  unread : ∀ e, parseAssignments source = .error e → e.HasPlace source.toList
  failed : ∀ as, parseAssignments source = .ok as → ∀ w e, (performAll as w).1 = .error e →
    e.HasPlace source.toList

theorem Condition.points (source : String) : Condition.Points source where
  scanned := bytewiseScan_eq source
  read := bytewiseParse_eq source
  tokens tokens hscan := by
    have hcovers := (scan_eq_ok_iff.mp hscan).laid.covers
    rwa [List.map_map] at hcovers
  words tokens hscan t ht := standsAt_zero_iff.mp (standsAt_of_scan hscan ht)
  atoms c hparse a ha := by
    obtain ⟨tokens, hscan, t, ht, text, htoken, hatom⟩ := exists_token_of_mem_atoms hparse ha
    have hstands := standsAt_of_scan hscan ht
    rw [htoken] at hstands
    refine ⟨text, ?_, ?_⟩
    · rw [Atom.span_of_parse hatom]
      exact standsAt_zero_iff.mp hstands
    · rwa [Atom.span_of_parse hatom]
  unread e h := (pointsInto_of_parse h).hasPlace
  failed c hparse w e h := (pointsInto_of_evaluate hparse h).hasPlace

theorem Expression.points (source : List Char) : Expression.Points source where
  scanned := bytewiseScan_eq source
  read := bytewiseParse_eq source
  tokens tokens hscan := by
    obtain ⟨words, hlaid, hspans, -⟩ := (scan_eq_ok_iff.mp hscan).laid
    rw [← hspans]
    exact hlaid.covers
  names x hparse name hname := standsAt_zero_iff.mp (standsAt_of_mem_names hparse hname).1
  unread e h := (pointsInto_of_parse h).hasPlace
  failed x hparse w e h := (pointsInto_of_evaluate hparse h).hasPlace

theorem Assignment.points (source : String) : Assignment.Points source := by
  have hsize : ';'.utf8Size = 1 := rfl
  have hjoined := joinPieces_splitOutside ';' .outside source.toList
  have hclauses {as : List Assignment} (h : parseAssignments source = .ok as) :=
    standsAt_of_parseAll hsize h
  rw [hjoined] at hclauses
  constructor
  case read => exact bytewiseParseAssignments_eq source
  case clauses =>
    intro as h
    refine ⟨(hclauses h).2, fun a ha => ?_⟩
    obtain ⟨clause, hstands, hclause⟩ := (hclauses h).1 a ha
    exact ⟨clause, standsAt_zero_iff.mp hstands, hclause⟩
  case names =>
    intro as h a ha name hname
    obtain ⟨clause, ⟨before, after, hsource, hspan⟩, -, hclause⟩ := (hclauses h).1 a ha
    obtain ⟨hstands, -⟩ := standsAt_of_mem_names hclause hname
    have hbounds := hstands.bounds
    rw [hspan] at hstands hbounds ⊢
    rw [hsource]
    exact ⟨standsAt_zero_iff.mp (hstands.within before after), hbounds⟩
  case unread =>
    intro e h
    have hpoints := pointsInto_of_parseAll hsize h
    rw [hjoined] at hpoints
    exact hpoints.hasPlace
  case failed =>
    intro as h w e he
    obtain ⟨a, ha, w', he⟩ := performAll_eq_error he
    obtain he | ⟨cause, rfl⟩ := perform_eq_error he
    · obtain ⟨clause, ⟨before, after, hsource, hspan⟩, -, hclause⟩ := (hclauses h).1 a ha
      have hpoints := pointsInto_of_evaluate hclause he
      rw [hspan] at hpoints
      rw [hsource]
      exact (hpoints.within before after).hasPlace
    · exact nofun

/-- **Every place points at what it names**, in every source, whatever characters are in it. -/
theorem places_point (source : String) : Condition.Points source ∧
    Expression.Points source.toList ∧ Assignment.Points source :=
  ⟨Condition.points source, Expression.points source.toList, Assignment.points source⟩

/-- Where characters take more than one byte, names are still cut out whole. -/
theorem places_point_tea : ∃ as, parseAssignments "čaj = 2 ;  x = -(čaj + mléko:bílé) " = .ok as ∧
    as.map (·.span) = [⟨0, 8⟩, ⟨12, 39⟩] ∧
    as.flatMap (·.expression.names) = [("čaj", ⟨18, 22⟩), ("mléko:bílé", ⟨25, 38⟩)] ∧
    ∀ a ∈ as, ∀ name ∈ a.expression.names,
      slice? "čaj = 2 ;  x = -(čaj + mléko:bílé) ".toList name.2 = some name.1.toList := by
  have hparse : parseAssignments "čaj = 2 ;  x = -(čaj + mléko:bílé) " = .ok _ := rfl
  exact ⟨_, hparse, rfl, rfl, fun a ha name hname =>
    ((places_point _).2.2.names _ hparse a ha name hname).1⟩

end Storyworld.Script
