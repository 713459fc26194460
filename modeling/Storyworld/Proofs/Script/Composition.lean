import Storyworld.Proofs.Script.Sequence

/-! # Expressions compose

Two expressions in parentheses around an operator have the programs of both and then the operator,
and a minus in front of parentheses comes behind what they hold: `parse_composed`. It is about texts,
so what has to be shown is that a closing parenthesis changes no token in front of it
(`Scans.append`), in particular none that looks ahead, such as a name that ends in front of a minus.
-/

namespace Storyworld.Script

open Condition (isQuote)

namespace Expression

/-! ## Reading in steps -/

/-- What the tokens of an expression come to. -/
def IsRead (start : Nat) (source : List Char) (e : Expression) : Prop :=
  ∃ tokens, scan start source = .ok tokens ∧
    toPostfix Arithmetic.table (infixes false tokens) = .ok e.program ∧
    isWellFormed Arithmetic.table e.program = true

/-- The name of a boolean is read without its tokens, and as its token is. -/
theorem isRead_iff_of_trim {start : Nat} {source : List Char} {b : Bool}
    (h : String.ofList (Text.trim source) = if b then "true" else "false") {e : Expression} :
    IsRead start source e ↔ ofValue (.bool b) = e := by
  obtain ⟨span, hscan⟩ : ∃ span, scan start source = .ok [⟨.bool b, span⟩] := scan_of_trim h
  have hprogram : toPostfix Arithmetic.table (infixes false [⟨.bool b, span⟩]) =
      .ok (ofValue (.bool b)).program := rfl
  constructor
  · rintro ⟨tokens, htokens, hreordered, -⟩
    rw [hscan] at htokens
    cases htokens
    rw [hprogram] at hreordered
    cases e
    cases hreordered
    rfl
  · rintro rfl
    exact ⟨_, hscan, hprogram, rfl⟩

/-- Reading an expression is scanning it and bringing its parts into order. -/
theorem parse_eq_ok_iff {start : Nat} {source : List Char} {e : Expression} :
    parse start source = .ok e ↔ IsRead start source e := by
  unfold parse
  dsimp only
  split
  · rw [isRead_iff_of_trim (b := true) ‹_›, Except.ok.injEq]
  split
  · rw [isRead_iff_of_trim (b := false) ‹_›, Except.ok.injEq]
  constructor
  · intro h
    obtain ⟨tokens, hscan, h⟩ := Except.bind_eq_ok h
    split at h
    · cases h
    obtain ⟨program, hreordered, h⟩ := Except.bind_eq_ok h
    cases hprogram : toPostfix Arithmetic.table (infixes false tokens) with
    | error e =>
      rw [hprogram] at hreordered
      cases hreordered
    | ok program' =>
      rw [hprogram] at hreordered
      cases hreordered
      split at h <;> cases h
      exact ⟨tokens, hscan, hprogram, ‹_›⟩
  · rintro ⟨tokens, hscan, hprogram, hformed⟩
    cases tokens with
    | nil =>
      -- without tokens there is a program, but it leaves no value
      cases e
      cases hprogram
      cases hformed
    | cons t tokens =>
      simp only [hscan, bind, Except.bind, List.isEmpty_cons, Bool.false_eq_true, if_false,
        hprogram, Except.mapError, hformed, if_true]

/-! ## What stands in front of a closing parenthesis -/

section

variable {p : Char → Bool} {d : Char}

theorem takeWhile_stop (h : p d = false) (cs more : List Char) :
    (cs ++ d :: more).takeWhile p = cs.takeWhile p := by
  induction cs with
  | nil => simp [h]
  | cons c cs ih => simp only [List.cons_append, List.takeWhile_cons, ih]

theorem dropWhile_stop (h : p d = false) (cs more : List Char) :
    (cs ++ d :: more).dropWhile p = cs.dropWhile p ++ d :: more := by
  induction cs with
  | nil => simp [h]
  | cons c cs ih =>
    simp only [List.cons_append, List.dropWhile_cons, ih]
    split <;> rfl

end

/-- Behind the quote that closes a literal, anything may follow. -/
theorem quotedText_append {quote : Char} (hquote : isQuote quote = true) {cs text rest : List Char}
    (h : quotedText quote cs = some (text, rest)) (more : List Char) :
    quotedText quote (cs ++ more) = some (text, rest ++ more) := by
  obtain ⟨body, hbody, rfl⟩ := quotedText_eq_some h
  rw [List.append_assoc, List.cons_append]
  exact hbody.quotedText_append hquote (rest ++ more)

/-- A closing parenthesis is no digit, which a point would need behind it. -/
theorem startsNumber_append (c : Char) (cs more : List Char) :
    startsNumber (c :: (cs ++ ')' :: more)) = startsNumber (c :: cs) := by
  by_cases hc : c = '.'
  · subst hc
    cases cs <;> rfl
  · unfold startsNumber
    split <;> simp_all

theorem continuesName_of_ne {c : Char} (h : c ≠ '-') (cs : List Char) :
    continuesName (c :: cs) =
      (Text.isAlphanumeric c || c == '_' || c == ':' || c == '.') := by
  unfold continuesName
  split <;> simp_all

/-- A closing parenthesis is no letter, which a minus in a name would need behind it. -/
theorem continuesName_append (c : Char) (cs more : List Char) :
    continuesName (c :: (cs ++ ')' :: more)) = continuesName (c :: cs) := by
  by_cases hc : c = '-'
  · subst hc
    cases cs <;> rfl
  · rw [continuesName_of_ne hc, continuesName_of_ne hc]

theorem nameRun_append (cs more : List Char) : nameRun (cs ++ ')' :: more) = nameRun cs := by
  induction cs with
  | nil => rfl
  | cons c cs ih => rw [List.cons_append, nameRun, nameRun, continuesName_append, ih]

theorem length_nameRun_le (cs : List Char) : (nameRun cs).length ≤ cs.length := by
  have hlength := congrArg List.length (nameRun_spec cs).1
  rw [List.length_append] at hlength
  omega

/-- **A token ends in front of a closing parenthesis where it ends alone.** -/
theorem token_append {start : Nat} {c : Char} {cs rest : List Char} {t : Token}
    (h : token start c cs = .ok (t, rest)) (more : List Char) :
    token start c (cs ++ ')' :: more) = .ok (t, rest ++ ')' :: more) := by
  unfold token at h ⊢
  split at h
  · cases h
    rfl
  rw [startsNumber_append]
  split at h
  · rename_i hquote
    split at h
    · rename_i text rest' htext
      cases h
      rw [if_pos hquote, quotedText_append (isQuote_iff.mpr hquote) htext]
    · cases h
  rw [if_neg ‹_›]
  split at h
  · rw [if_pos ‹_›, ← List.cons_append, takeWhile_stop (by decide), dropWhile_stop (by decide)]
    dsimp only at h ⊢
    split at h
    · cases h
      rfl
    · cases h
  rw [if_neg ‹_›]
  split at h
  · rw [if_pos ‹_›, ← List.cons_append, nameRun_append]
    cases h
    dsimp only
    rw [List.drop_append_of_le_length (length_nameRun_le (c :: cs))]
  · cases h

namespace Scans

variable {start : Nat} {cs rest : List Char} {c : Char} {ts us : List (Spanned Token)}

/-- Further on, the same tokens are scanned. -/
theorem shift (h : Scans start cs ts) (n : Nat) :
    Scans (start + n) cs (ts.map (Spanned.shift n)) := by
  rw [← scan_eq_ok_iff] at h ⊢
  rw [scan, scanFrom_add, ← scan, h]
  rfl

/-- **A text keeps its tokens in front of a closing parenthesis.** -/
theorem append (h : Scans start cs ts) (after : Scans (start + byteSize cs) (')' :: rest) us) :
    Scans start (cs ++ ')' :: rest) (ts ++ us) := by
  induction h with
  | nil start => exact after
  | blank hblank _ ih =>
    rw [byteSize_cons, ← Nat.add_assoc] at after
    exact .blank hblank (ih after)
  | @token start c word cs t ts hblank read _ ih =>
    rw [← List.cons_append, byteSize_append, ← Nat.add_assoc] at after
    have hread := token_append read rest
    rw [List.append_assoc] at hread
    rw [List.cons_append, List.append_assoc]
    exact .token hblank hread (ih after)

theorem symbol {t : Token} (h : symbol? c = some t) (after : Scans (start + c.utf8Size) cs ts) :
    Scans start (c :: cs) (⟨t, spanFrom start [c]⟩ :: ts) := by
  have hblank : Text.isBlank c = false := by
    unfold symbol? at h
    split at h <;> first | decide | cases h
  have hread : Expression.token start c ([] ++ cs) = .ok (t, cs) := by
    rw [List.nil_append, Expression.token, h]
  have hsymbol : Scans start (c :: ([] ++ cs)) _ := .token hblank hread after
  exact hsymbol

/-- A text in parentheses has its tokens between theirs. -/
theorem group (h : Scans start cs ts) (n : Nat)
    (after : Scans (start + n + 1 + byteSize cs + 1) rest us) :
    Scans (start + n) ('(' :: cs ++ ')' :: rest)
      (⟨.opening, spanFrom (start + n) ['(']⟩ :: (ts.map (Spanned.shift (n + 1)) ++
        ⟨.closing, spanFrom (start + n + 1 + byteSize cs) [')']⟩ :: us)) :=
  .symbol rfl ((h.shift (n + 1)).append (.symbol rfl after))

end Scans

/-! ## Operators -/

/-- The character that an operator is written as. -/
def symbol : Arithmetic → Char
  | .add => '+'
  | .subtract => '-'
  | .multiply => '*'
  | .divide => '/'
  | .remainder => '%'
  | .negate => '-'

/-- The token that an operator is scanned as. -/
def operatorToken : Arithmetic → Token
  | .add => .plus
  | .subtract => .minus
  | .multiply => .times
  | .divide => .divide
  | .remainder => .percent
  | .negate => .minus

theorem symbol?_symbol (o : Arithmetic) : symbol? (symbol o) = some (operatorToken o) := by
  cases o <;> rfl

theorem utf8Size_symbol (o : Arithmetic) : (symbol o).utf8Size = 1 := by
  cases o <;> rfl

/-- Between two operands an operator is itself. -/
theorem infixOf_operatorToken {o : Arithmetic} (h : Arithmetic.table.arity o = 2) (span : Span) :
    infixOf true ⟨operatorToken o, span⟩ = .operator o := by
  cases o <;> first | rfl | cases h

/-! ## Parts -/

/-- Behind a closing parenthesis, an operator has its operand. -/
theorem infixes_closing (afterOperand : Bool) (ts us : List (Spanned Token)) (closed : Span) :
    infixes afterOperand (ts ++ ⟨.closing, closed⟩ :: us) =
      infixes afterOperand ts ++ .closing closed :: infixes true us := by
  induction ts generalizing afterOperand with
  | nil => rfl
  | cons t ts ih => rw [List.cons_append, infixes, infixes, ih, List.cons_append]

theorem infixes_group (afterOperand : Bool) (ts us : List (Spanned Token)) (n : Nat)
    (opened closed : Span) :
    infixes afterOperand (⟨.opening, opened⟩ :: (ts.map (Spanned.shift n) ++
        ⟨.closing, closed⟩ :: us)) =
      .opening opened :: ((infixes false ts).map (Infix.map (Operand.shift n) (Span.shift n)) ++
        .closing closed :: infixes true us) := by
  have hrest := infixes_closing false (ts.map (Spanned.shift n)) us closed
  rw [infixes_shift] at hrest
  exact congrArg (.opening opened :: ·) hrest

/-! ## Expressions in parentheses -/

/-- Two expressions in parentheses around an operator. -/
def joined (o : Arithmetic) (s t : String) : String :=
  "(" ++ s ++ ") " ++ String.singleton (symbol o) ++ " (" ++ t ++ ")"

/-- An expression in parentheses, negated. -/
def negated (s : String) : String :=
  "-(" ++ s ++ ")"

/-- Where the right one of two expressions begins that are joined. -/
def rightStart (s : String) : Nat :=
  byteSize s.toList + 6

variable {start : Nat} {s t : String} {ts us : List (Spanned Token)} {e f : Expression}

theorem scan_joined (hs : scan start s.toList = .ok ts) (ht : scan start t.toList = .ok us)
    (o : Arithmetic) : ∃ opened closed between opened' closed',
      scan start (joined o s t).toList = .ok (⟨.opening, opened⟩ :: (ts.map (Spanned.shift 1) ++
        ⟨.closing, closed⟩ :: ⟨operatorToken o, between⟩ :: ⟨.opening, opened'⟩ ::
          (us.map (Spanned.shift (rightStart s)) ++ [⟨.closing, closed'⟩]))) := by
  have hright := (scan_eq_ok_iff.mp ht).group (byteSize s.toList + 5) (.nil _)
  have hsource : (joined o s t).toList = '(' :: s.toList ++
      ')' :: ' ' :: symbol o :: ' ' :: ('(' :: t.toList ++ [')']) := by
    simp [joined]
  have hstart : start + 0 + 1 + byteSize s.toList + 1 + ' '.utf8Size + (symbol o).utf8Size +
      ' '.utf8Size = start + (byteSize s.toList + 5) := by
    have hblank : ' '.utf8Size = 1 := rfl
    rw [utf8Size_symbol]
    omega
  rw [← hstart] at hright
  have hjoined := (scan_eq_ok_iff.mp hs).group 0
    (.blank (by decide) (.symbol (symbol?_symbol o) (.blank (by decide) hright)))
  rw [hsource]
  exact ⟨_, _, _, _, _, scan_eq_ok_iff.mpr hjoined⟩

theorem scan_negated (hs : scan start s.toList = .ok ts) : ∃ minus opened closed,
    scan start (negated s).toList = .ok (⟨.minus, minus⟩ :: ⟨.opening, opened⟩ ::
      (ts.map (Spanned.shift 2) ++ [⟨.closing, closed⟩])) := by
  have hsource : (negated s).toList = '-' :: ('(' :: s.toList ++ [')']) := by simp [negated]
  have hnegated : Scans start ('-' :: ('(' :: s.toList ++ [')'])) _ :=
    .symbol rfl ((scan_eq_ok_iff.mp hs).group 1 (.nil _))
  rw [hsource]
  exact ⟨_, _, _, scan_eq_ok_iff.mpr hnegated⟩

theorem parse_joined (hs : parse start s.toList = .ok e) (ht : parse start t.toList = .ok f)
    {o : Arithmetic} (ho : Arithmetic.table.arity o = 2) :
    parse start (joined o s t).toList =
      .ok ⟨(e.shift 1).program ++ (f.shift (rightStart s)).program ++ [.operator o]⟩ := by
  obtain ⟨ts, hscan, hprogram, hformed⟩ := parse_eq_ok_iff.mp hs
  obtain ⟨us, hscan', hprogram', hformed'⟩ := parse_eq_ok_iff.mp ht
  obtain ⟨opened, closed, between, opened', closed', hjoined⟩ := scan_joined hscan hscan' o
  refine parse_eq_ok_iff.mpr ⟨_, hjoined, ?_, ?_⟩
  · rw [infixes_group, infixes, infixOf_operatorToken ho, infixes_group]
    exact toPostfix_join hprogram hprogram' o (Operand.shift 1) (Operand.shift (rightStart s))
      (Span.shift 1) (Span.shift (rightStart s)) opened closed opened' closed'
  · exact isWellFormed_binary Arithmetic.table_graded ho ((isWellFormed_map _ _).trans hformed)
      ((isWellFormed_map _ _).trans hformed')

theorem parse_negated (hs : parse start s.toList = .ok e) :
    parse start (negated s).toList = .ok ⟨(e.shift 2).program ++ [.operator .negate]⟩ := by
  obtain ⟨ts, hscan, hprogram, hformed⟩ := parse_eq_ok_iff.mp hs
  obtain ⟨minus, opened, closed, hnegated⟩ := scan_negated hscan
  refine parse_eq_ok_iff.mpr ⟨_, hnegated, ?_, ?_⟩
  · rw [infixes, infixes_group]
    exact toPostfix_front hprogram .negate (Operand.shift 2) (Span.shift 2) opened closed
  · exact isWellFormed_unary Arithmetic.table_graded rfl ((isWellFormed_map _ _).trans hformed)

/-- **Expressions compose.** Two expressions in parentheses around a binary operator are an expression,
and its program is the program of the left one, then that of the right one, then the operator. A
minus in front of parentheses negates what they hold, and comes behind its program. Names are where
they have moved to. -/
theorem parse_composed (hs : parse start s.toList = .ok e) (ht : parse start t.toList = .ok f) :
    (∀ o, Arithmetic.table.arity o = 2 → parse start (joined o s t).toList =
      .ok ⟨(e.shift 1).program ++ (f.shift (rightStart s)).program ++ [.operator o]⟩) ∧
    parse start (negated s).toList = .ok ⟨(e.shift 2).program ++ [.operator .negate]⟩ :=
  ⟨fun _ => parse_joined hs ht, parse_negated hs⟩

/-- A minus that comes too late is in time for the parenthesis, and no name goes on into it; the minus
behind the parenthesis subtracts. -/
theorem parse_composed_late :
    (∃ e f, parse 0 "a b -".toList = .ok e ∧ parse 0 " true ".toList = .ok f) ∧
      joined .subtract "a b -" " true " = "(a b -) - ( true )" ∧
      parse 0 "(a b -) - ( true )".toList =
        .ok ⟨[.operand (.name "a" ⟨1, 2⟩), .operand (.name "b" ⟨3, 4⟩), .operator .subtract,
          .operand (.literal (.bool true)), .operator .subtract]⟩ ∧
      parse 0 "-(a b -)".toList =
        .ok ⟨[.operand (.name "a" ⟨2, 3⟩), .operand (.name "b" ⟨4, 5⟩), .operator .subtract,
          .operator .negate]⟩ := by
  have hs : parse 0 "a b -".toList = .ok _ := rfl
  have ht : parse 0 " true ".toList = .ok _ := rfl
  obtain ⟨hjoined, hnegated⟩ := parse_composed hs ht
  exact ⟨⟨_, _, hs, ht⟩, rfl, hjoined .subtract rfl, hnegated⟩

end Expression

end Storyworld.Script
