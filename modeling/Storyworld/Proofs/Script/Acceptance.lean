import Storyworld.Proofs.Script.Precedence

/-! # Which token lists have a program

The reordering of tokens only looks at operators and parentheses, and well-formedness only at numbers
of operands, so neither sees where an operand stands: `exists_renders_iff`. What is missing is
`placed`, that operands are where operands are expected. With it, a program that leaves one value is
the program of a rendering, for the rendering can be built up token by token as the tokens are read
(`Begun`), inside as many parentheses as are open (`Enclosed`).
-/

namespace Storyworld.Script

variable {α ο : Type} {T : OperatorTable ο}

/-! ## Where tokens may stand -/

namespace Infix

/-- Whether an operand ends with the token. -/
def endsOperand : Infix α ο → Bool
  | .operand _ | .closing _ => true
  | .operator _ | .opening _ => false

/-- Whether the token may stand where an operand has just ended, or where none has. -/
def fitsAt (T : OperatorTable ο) (afterOperand : Bool) : Infix α ο → Bool
  | .operand _ | .opening _ => !afterOperand
  | .operator o => if T.arity o = 1 then !afterOperand else afterOperand
  | .closing _ => afterOperand

theorem fitsAt_operator (hT : T.Graded) {o : ο} {afterOperand : Bool}
    (h : fitsAt T afterOperand (.operator (α := α) o) = true) :
    T.arity o = 1 ∧ afterOperand = false ∨ T.arity o = 2 ∧ afterOperand = true := by
  rcases hT.arities o with hone | htwo
  · exact .inl ⟨hone, by simpa [fitsAt, hone] using h⟩
  · exact .inr ⟨htwo, by simpa [fitsAt, htwo] using h⟩

end Infix

/-- Whether every token stands where it may. -/
def placed (T : OperatorTable ο) : Bool → List (Infix α ο) → Bool
  | _, [] => true
  | afterOperand, token :: tokens =>
    token.fitsAt T afterOperand && placed T token.endsOperand tokens

/-- Whether an operand has just ended after tokens. -/
def endsOperand (afterOperand : Bool) : List (Infix α ο) → Bool
  | [] => afterOperand
  | token :: tokens => Script.endsOperand token.endsOperand tokens

/-! ## What the reordering does to the waiting operators -/

namespace Pending

/-- The number of parentheses that wait for their partners. -/
def openings : List (Pending ο) → Nat
  | [] => 0
  | .operator _ :: stack => openings stack
  | .opening _ :: stack => openings stack + 1

theorem openings_append_operators (waiting : List ο) (stack : List (Pending ο)) :
    openings (waiting.map .operator ++ stack) = openings stack := by
  induction waiting with
  | nil => rfl
  | cons w waiting ih => exact ih

theorem append_release (o : ο) (stack : List (Pending ο)) :
    (release T o stack).1.map .operator ++ (release T o stack).2 = stack := by
  induction stack with
  | nil => rfl
  | cons top stack ih =>
    cases top with
    | opening span => rfl
    | operator w =>
      simp only [release]
      split
      · simpa using ih
      · rfl

theorem close_eq_some {stack rest : List (Pending ο)} {released : List ο}
    (h : close stack = some (released, rest)) :
    ∃ span, stack = released.map .operator ++ .opening span :: rest := by
  induction stack generalizing released with
  | nil => cases h
  | cons top stack ih =>
    cases top with
    | opening span =>
      cases h
      exact ⟨span, rfl⟩
    | operator w =>
      obtain ⟨⟨inner, rest'⟩, hclose, hpair⟩ := Option.map_eq_some_iff.mp h
      cases hpair
      obtain ⟨span, rfl⟩ := ih hclose
      exact ⟨span, rfl⟩

theorem finish_eq_ok {stack : List (Pending ο)} {released : List ο}
    (h : finish stack = .ok released) : stack = released.map .operator := by
  induction stack generalizing released with
  | nil => cases h; rfl
  | cons top stack ih =>
    cases top with
    | opening span => cases h
    | operator w =>
      obtain ⟨inner, hfinish, rfl⟩ := Except.map_eq_ok h
      rw [ih hfinish]
      rfl

end Pending

open Pending

/-- What reading a token does: what waited before, what is put out, and what waits then. It leaves open
how many operators are released. -/
inductive Infix.Step : Infix α ο → List (Pending ο) → List (Postfix α ο) → List (Pending ο) → Prop
  | operand (a : α) (stack : List (Pending ο)) : Step (.operand a) stack [.operand a] stack
  | operator (o : ο) (released : List ο) (kept : List (Pending ο)) :
      Step (.operator o) (released.map .operator ++ kept) (released.map .operator)
        (.operator o :: kept)
  | opening (span : Span) (stack : List (Pending ο)) :
      Step (.opening span) stack [] (.opening span :: stack)
  | closing (span opened : Span) (released : List ο) (kept : List (Pending ο)) :
      Step (.closing span) (released.map .operator ++ .opening opened :: kept)
        (released.map .operator) kept

theorem convert_cons_eq_ok {token : Infix α ο} {tokens : List (Infix α ο)}
    {stack : List (Pending ο)} {program : List (Postfix α ο)}
    (h : convert T (token :: tokens) stack = .ok program) :
    ∃ out stack' rest, token.Step stack out stack' ∧ convert T tokens stack' = .ok rest ∧
      program = out ++ rest := by
  cases token with
  | operand a =>
    obtain ⟨rest, hrest, rfl⟩ := Except.map_eq_ok h
    exact ⟨_, _, rest, .operand a stack, hrest, rfl⟩
  | opening span => exact ⟨_, _, program, .opening span stack, h, rfl⟩
  | operator o =>
    obtain ⟨rest, hrest, rfl⟩ := Except.map_eq_ok h
    have hstep := Infix.Step.operator (α := α) o (release T o stack).1 (release T o stack).2
    rw [append_release] at hstep
    exact ⟨_, _, rest, hstep, hrest, rfl⟩
  | closing span =>
    simp only [convert] at h
    cases hclose : close stack with
    | none => rw [hclose] at h; cases h
    | some closed =>
      rw [hclose] at h
      obtain ⟨released, kept⟩ := closed
      obtain ⟨opened, rfl⟩ := close_eq_some hclose
      obtain ⟨rest, hrest, rfl⟩ := Except.map_eq_ok h
      exact ⟨_, _, rest, .closing span opened released kept, hrest, rfl⟩

/-! ## Counting values -/

/-- How many values there are more after an operator than before it. -/
def OperatorTable.gain (T : OperatorTable ο) (o : ο) : Int :=
  1 - T.arity o

/-- How many values there are more after a program than before it. -/
def Postfix.gain (T : OperatorTable ο) : List (Postfix α ο) → Int
  | [] => 0
  | .operand _ :: program => 1 + gain T program
  | .operator o :: program => T.gain o + gain T program

/-- What the operators that wait will add. -/
def Pending.gain (T : OperatorTable ο) : List (Pending ο) → Int
  | [] => 0
  | .operator o :: stack => T.gain o + gain T stack
  | .opening _ :: stack => gain T stack

/-- What tokens add, in whatever order they apply. -/
def Infix.gain (T : OperatorTable ο) : List (Infix α ο) → Int
  | [] => 0
  | .operand _ :: tokens => 1 + gain T tokens
  | .operator o :: tokens => T.gain o + gain T tokens
  | .opening _ :: tokens | .closing _ :: tokens => gain T tokens

theorem Postfix.gain_append (first second : List (Postfix α ο)) :
    gain T (first ++ second) = gain T first + gain T second := by
  induction first with
  | nil => simp [gain]
  | cons step first ih => cases step <;> simp only [List.cons_append, gain, ih] <;> omega

theorem Pending.gain_append_operators (waiting : List ο) (stack : List (Pending ο)) :
    gain T (waiting.map .operator ++ stack) =
      Postfix.gain T (waiting.map (Postfix.operator (α := α))) + gain T stack := by
  induction waiting with
  | nil => simp [Postfix.gain]
  | cons w waiting ih =>
    simp only [List.map_cons, List.cons_append, gain, Postfix.gain, ih]
    omega

/-- The reordering neither loses nor adds anything. -/
theorem gain_of_convert {tokens : List (Infix α ο)} {stack : List (Pending ο)}
    {program : List (Postfix α ο)} (h : convert T tokens stack = .ok program) :
    Postfix.gain T program = Infix.gain T tokens + Pending.gain T stack := by
  induction tokens generalizing stack program with
  | nil =>
    obtain ⟨released, hfinish, rfl⟩ := Except.map_eq_ok h
    have hgain := Pending.gain_append_operators (T := T) (α := α) released []
    rw [List.append_nil, ← finish_eq_ok hfinish] at hgain
    rw [hgain]
    simp [Infix.gain, Pending.gain]
  | cons token tokens ih =>
    obtain ⟨out, stack', rest, hstep, hrest, rfl⟩ := convert_cons_eq_ok h
    have hrest := ih hrest
    rw [Postfix.gain_append, hrest]
    cases hstep with
    | operand a => simp only [Infix.gain, Postfix.gain]; omega
    | operator o released kept =>
      simp only [Infix.gain, Pending.gain, Pending.gain_append_operators (α := α)]
      omega
    | opening span => simp [Infix.gain, Pending.gain, Postfix.gain]
    | closing span opened released kept =>
      simp only [Infix.gain, Pending.gain, Pending.gain_append_operators (α := α)]
      omega

theorem gain_of_depthAfter {program : List (Postfix α ο)} {depth after : Nat}
    (h : depthAfter T program depth = some after) :
    (after : Int) = depth + Postfix.gain T program := by
  induction program generalizing depth with
  | nil => cases h; simp [Postfix.gain]
  | cons step program ih =>
    cases step with
    | operand a =>
      have hrest := ih h
      simp only [Postfix.gain]
      omega
    | operator o =>
      simp only [depthAfter] at h
      split at h
      · cases h
      · have hrest := ih h
        simp only [Postfix.gain, OperatorTable.gain]
        omega

/-- Where every token stands where it may, operands and binary operators take turns. -/
theorem gain_of_placed (hT : T.Graded) {tokens : List (Infix α ο)} {afterOperand : Bool}
    (h : placed T afterOperand tokens = true) :
    Infix.gain T tokens + afterOperand.toNat = (endsOperand afterOperand tokens).toNat := by
  induction tokens generalizing afterOperand with
  | nil => simp [Infix.gain, endsOperand]
  | cons token tokens ih =>
    obtain ⟨hfits, hrest⟩ := Bool.and_eq_true_iff.mp h
    have hrest := ih hrest
    rw [endsOperand]
    cases token with
    | operand a =>
      obtain rfl : afterOperand = false := by simpa [Infix.fitsAt] using hfits
      simp only [Infix.gain, Infix.endsOperand, Bool.toNat_true, Bool.toNat_false] at hrest ⊢
      omega
    | opening span =>
      obtain rfl : afterOperand = false := by simpa [Infix.fitsAt] using hfits
      exact hrest
    | closing span =>
      obtain rfl : afterOperand = true := by simpa [Infix.fitsAt] using hfits
      exact hrest
    | operator o =>
      simp only [Infix.gain, OperatorTable.gain, Infix.endsOperand, Bool.toNat_false] at hrest ⊢
      rcases Infix.fitsAt_operator hT hfits with ⟨hone, rfl⟩ | ⟨htwo, rfl⟩
      · rw [Bool.toNat_false]
        omega
      · rw [Bool.toNat_true]
        omega

/-! ## Writing on -/

theorem Renders.mono {level looser : Nat} {t : Tree α ο} {ts : List (Infix α ο)}
    (h : Renders T level t ts) (hle : looser ≤ level) : Renders T looser t ts := by
  cases h with
  | operand a => exact .operand a
  | parens opened closed inner => exact .parens opened closed inner
  | unary arity binds inner => exact .unary arity (Nat.le_trans hle binds) inner
  | left arity binds associates hl hr =>
    exact .left arity (Nat.le_trans hle binds) associates hl hr
  | right arity binds associates hl hr =>
    exact .right arity (Nat.le_trans hle binds) associates hl hr

/-- Tokens that write an operand of any operator: one without binary operators outside
parentheses. -/
def IsOperand (T : OperatorTable ο) (ts : List (Infix α ο)) : Prop :=
  ∃ t, ∀ level, (∀ o, T.arity o = 1 → level ≤ T.precedence o) → Renders T level t ts

theorem IsOperand.operand (a : α) : IsOperand T [.operand a] :=
  ⟨.operand a, fun _ _ => .operand a⟩

theorem IsOperand.parens {t : Tree α ο} {ts : List (Infix α ο)} (opened closed : Span)
    (h : Renders T 0 t ts) : IsOperand T (.opening opened :: ts ++ [.closing closed]) :=
  ⟨t, fun _ _ => .parens opened closed h⟩

theorem IsOperand.unary (hT : T.Graded) {o : ο} {ts : List (Infix α ο)} (arity : T.arity o = 1)
    (h : IsOperand T ts) : IsOperand T (.operator o :: ts) := by
  obtain ⟨t, ht⟩ := h
  have hinner : Renders T (T.precedence o) t ts :=
    ht _ fun p hp => Nat.le_of_eq (hT.alike o p arity hp)
  exact ⟨.unary o t, fun level hlevel => .unary arity (hlevel o arity) hinner⟩

/-- A binary operator goes on top of what binds tighter, and of what binds alike to its left. -/
theorem Renders.binary {level : Nat} {o : ο} {l : Tree α ο} {ls rs : List (Infix α ο)}
    (hT : T.Graded) (arity : T.arity o = 2) (binds : level ≤ T.precedence o)
    (hl : Renders T (T.precedence o + 1) l ls ∨
      T.rightAssociative o = false ∧ Renders T (T.precedence o) l ls)
    (hr : IsOperand T rs) : ∃ t, Renders T level t (ls ++ .operator o :: rs) := by
  obtain ⟨r, hr⟩ := hr
  have htight : ∀ p, T.arity p = 1 → T.precedence o + 1 ≤ T.precedence p :=
    fun p hp => hT.tightest p o hp arity
  cases hassociates : T.rightAssociative o with
  | false =>
    have hleft : Renders T (T.precedence o) l ls :=
      hl.elim (·.mono (Nat.le_succ _)) (·.2)
    exact ⟨_, .left arity binds hassociates hleft (hr _ htight)⟩
  | true =>
    have hleft : Renders T (T.precedence o + 1) l ls := by
      rcases hl with hl | ⟨hfalse, -⟩
      · exact hl
      · rw [hassociates] at hfalse
        cases hfalse
    exact ⟨_, .right arity binds hassociates hleft ((hr _ htight).mono (Nat.le_succ _))⟩

/-- **What is written can be written on** by a binary operator and an operand. The operator takes its
place on the right edge of the tree, above all that applies before it. -/
theorem Renders.append (hT : T.Graded) {level : Nat} {o : ο} {t : Tree α ο}
    {ts qs : List (Infix α ο)} (h : Renders T level t ts) (arity : T.arity o = 2)
    (binds : level ≤ T.precedence o) (hqs : IsOperand T qs) :
    ∃ t', Renders T level t' (ts ++ .operator o :: qs) := by
  induction h with
  | operand a => exact Renders.binary hT arity binds (.inl (.operand a)) hqs
  | parens opened closed inner =>
    exact Renders.binary hT arity binds (.inl (.parens opened closed inner)) hqs
  | unary hp _ inner =>
    exact Renders.binary hT arity binds (.inl (.unary hp (hT.tightest _ o hp arity) inner)) hqs
  | @left level p l r ls rs hp hbinds associates hl hr ihl ihr =>
    rcases Nat.lt_trichotomy (T.precedence p) (T.precedence o) with hlt | heq | hgt
    · obtain ⟨r', hr'⟩ := ihr hlt
      rw [List.append_assoc, List.cons_append]
      exact ⟨_, .left hp hbinds associates hl hr'⟩
    · have hleft : T.rightAssociative o = false :=
        (hT.associate p o hp arity heq).symm.trans associates
      exact Renders.binary hT arity binds
        (.inr ⟨hleft, .left hp (Nat.le_of_eq heq.symm) associates hl hr⟩) hqs
    · exact Renders.binary hT arity binds (.inl (.left hp hgt associates hl hr)) hqs
  | @right level p l r ls rs hp hbinds associates hl hr ihl ihr =>
    rcases Nat.lt_or_ge (T.precedence o) (T.precedence p) with hgt | hle
    · exact Renders.binary hT arity binds (.inl (.right hp hgt associates hl hr)) hqs
    · obtain ⟨r', hr'⟩ := ihr hle
      rw [List.append_assoc, List.cons_append]
      exact ⟨_, .right hp hbinds associates hl hr'⟩

/-! ## Reading on -/

/-- Tokens that have been read inside the innermost parenthesis: they write a tree, if an operand has
just ended, and else they do so once an operand follows. -/
def Begun (T : OperatorTable ο) : Bool → List (Infix α ο) → Prop
  | true, ts => ∃ t, Renders T 0 t ts
  | false, ts => ∀ qs, IsOperand T qs → ∃ t, Renders T 0 t (ts ++ qs)

/-- The tokens before the innermost of parentheses that are open, with that parenthesis. -/
inductive Enclosed (T : OperatorTable ο) : Nat → List (Infix α ο) → Prop
  | outermost : Enclosed T 0 []
  | opening {depth : Nat} {before ts : List (Infix α ο)} (outer : Enclosed T depth before)
      (begun : Begun T false ts) (span : Span) :
      Enclosed T (depth + 1) (before ++ ts ++ [.opening span])

theorem Begun.nil : Begun T false ([] : List (Infix α ο)) := by
  rintro qs ⟨t, ht⟩
  exact ⟨t, ht 0 fun _ _ => Nat.zero_le _⟩

theorem Begun.operator (hT : T.Graded) {afterOperand : Bool} {ts : List (Infix α ο)} {o : ο}
    (h : Begun T afterOperand ts)
    (hfits : Infix.fitsAt T afterOperand (Infix.operator (α := α) o) = true) :
    Begun T false (ts ++ [.operator o]) := by
  intro qs hqs
  rw [List.append_assoc]
  rcases Infix.fitsAt_operator hT hfits with ⟨hone, rfl⟩ | ⟨htwo, rfl⟩
  · exact h _ (hqs.unary hT hone)
  · obtain ⟨t, ht⟩ := h
    exact ht.append hT htwo (Nat.zero_le _) hqs

/-- **Tokens whose parentheses match write a tree**, if every one stands where it may and the last
one ends an operand. Said of what is left to read, behind what was read before. -/
theorem exists_renders_of_convert (hT : T.Graded) {tokens before ts : List (Infix α ο)}
    {stack : List (Pending ο)} {program : List (Postfix α ο)} {afterOperand : Bool}
    (h : convert T tokens stack = .ok program) (hbefore : Enclosed T (openings stack) before)
    (hts : Begun T afterOperand ts) (hplaced : placed T afterOperand tokens = true)
    (hends : endsOperand afterOperand tokens = true) :
    ∃ t, Renders T 0 t (before ++ ts ++ tokens) := by
  induction tokens generalizing stack program before ts afterOperand with
  | nil =>
    obtain ⟨released, hfinish, -⟩ := Except.map_eq_ok h
    have hclosed : openings stack = 0 := by
      have happend := openings_append_operators released ([] : List (Pending ο))
      rwa [List.append_nil, ← finish_eq_ok hfinish] at happend
    rw [hclosed] at hbefore
    cases hbefore
    obtain rfl : afterOperand = true := hends
    obtain ⟨t, ht⟩ := hts
    exact ⟨t, by simpa using ht⟩
  | cons token tokens ih =>
    obtain ⟨out, stack', rest, hstep, hrest, -⟩ := convert_cons_eq_ok h
    obtain ⟨hfits, hplaced⟩ := Bool.and_eq_true_iff.mp hplaced
    have hassoc : before ++ ts ++ token :: tokens = before ++ (ts ++ [token]) ++ tokens := by
      simp
    rw [hassoc]
    cases hstep with
    | operand a =>
      obtain rfl : afterOperand = false := by simpa [Infix.fitsAt] using hfits
      have hbegun : Begun T true (ts ++ [.operand a]) := hts _ (.operand a)
      exact ih hrest hbefore hbegun hplaced hends
    | operator o released kept =>
      rw [openings_append_operators] at hbefore
      exact ih hrest hbefore (hts.operator hT hfits) hplaced hends
    | opening span =>
      obtain rfl : afterOperand = false := by simpa [Infix.fitsAt] using hfits
      have hopened := ih hrest (.opening hbefore hts span) Begun.nil hplaced hends
      simpa using hopened
    | closing span opened released kept =>
      obtain rfl : afterOperand = true := by simpa [Infix.fitsAt] using hfits
      rw [openings_append_operators] at hbefore
      obtain ⟨t, ht⟩ := hts
      cases hbefore with
      | opening outer begun opened =>
        have hbegun : Begun T true _ := begun _ (.parens opened span ht)
        simpa using ih hrest outer hbegun hplaced hends

theorem depthAfter_program {t : Tree α ο} (ht : t.Fits T) (rest : List (Postfix α ο))
    (depth : Nat) : depthAfter T (t.program ++ rest) depth = depthAfter T rest (depth + 1) := by
  induction t generalizing rest depth with
  | operand a => rfl
  | unary o t ih =>
    obtain ⟨harity, ht⟩ := ht
    rw [Tree.program, List.append_assoc, ih ht]
    simp [depthAfter, harity]
  | binary o l r ihl ihr =>
    obtain ⟨harity, hl, hr⟩ := ht
    rw [Tree.program, List.append_assoc, List.append_assoc, ihl hl, ihr hr]
    have henough : ¬depth + 1 + 1 < 2 := by omega
    simp [depthAfter, harity, henough]

/-- Every token of a rendering stands where it may. -/
theorem Renders.placed {level : Nat} {t : Tree α ο} {ts : List (Infix α ο)}
    (h : Renders T level t ts) {rest : List (Infix α ο)}
    (hrest : Script.placed T true rest = true) : Script.placed T false (ts ++ rest) = true := by
  induction h generalizing rest with
  | operand a => exact hrest
  | parens opened closed inner ih =>
    rw [List.append_assoc]
    exact ih hrest
  | @unary level o t ts arity binds inner ih =>
    simpa [Script.placed, Infix.fitsAt, arity, Infix.endsOperand] using ih hrest
  | @left level o l r ls rs arity binds associates hl hr ihl ihr
  | @right level o l r ls rs arity binds associates hl hr ihl ihr =>
    rw [List.append_assoc]
    refine ihl ?_
    simpa [Script.placed, Infix.fitsAt, arity, Infix.endsOperand] using ihr hrest

/-- **Which tokens the grammar writes**: those that have a program, which leaves one value, and all
of which stand where they may. -/
theorem exists_renders_iff (hT : T.Graded) {tokens : List (Infix α ο)} :
    (∃ t, Renders T 0 t tokens) ↔
      (∃ program, toPostfix T tokens = .ok program ∧ isWellFormed T program = true) ∧
        placed T false tokens = true := by
  constructor
  · rintro ⟨t, h⟩
    refine ⟨⟨t.program, toPostfix_renders hT h, ?_⟩, ?_⟩
    · have hdepth := depthAfter_program h.fits [] 0
      rw [List.append_nil] at hdepth
      simp [isWellFormed, hdepth, depthAfter]
    · have hnil : Script.placed T true ([] : List (Infix α ο)) = true := rfl
      simpa using h.placed hnil
  · rintro ⟨⟨program, hprogram, hformed⟩, hplaced⟩
    have hone := gain_of_depthAfter (eq_of_beq hformed)
    rw [gain_of_convert hprogram] at hone
    have hends : endsOperand false tokens = true := by
      have hgain := gain_of_placed hT hplaced
      simp only [Pending.gain, Bool.toNat_false] at hone hgain
      cases hend : endsOperand false tokens with
      | true => rfl
      | false =>
        rw [hend, Bool.toNat_false] at hgain
        omega
    simpa using exists_renders_of_convert hT hprogram .outermost Begun.nil hplaced hends

end Storyworld.Script
