import Storyworld.Proofs.Result
import Storyworld.Script.Condition
import Storyworld.Script.Expression

/-! # Operators apply as the precedence grammar says

`Renders` is the precedence grammar: the ways to write a tree of operators with no more parentheses
than one likes. `convert_renders` says what is put out and what goes on waiting when a rendering has
been read, and `runOn_program` that the program of a tree runs as the tree evaluates. Together they
give `run_toPostfix` for every language whose prefix operators bind tightest.
-/

namespace Storyworld.Script

/-- A language whose operators are prefix and binary. Prefix operators bind alike and tighter than
all others, and binary operators that bind alike associate alike. -/
structure OperatorTable.Graded {ο : Type} (T : OperatorTable ο) : Prop where
  arities : ∀ o, T.arity o = 1 ∨ T.arity o = 2
  alike : ∀ o p, T.arity o = 1 → T.arity p = 1 → T.precedence o = T.precedence p
  tightest : ∀ o p, T.arity o = 1 → T.arity p = 2 → T.precedence p < T.precedence o
  stacked : ∀ o, T.arity o = 1 → T.rightAssociative o = true
  associate : ∀ o p, T.arity o = 2 → T.arity p = 2 → T.precedence o = T.precedence p →
    T.rightAssociative o = T.rightAssociative p

theorem Logic.table_graded : Logic.table.Graded where
  arities o := by cases o <;> decide
  alike o p := by cases o <;> cases p <;> decide
  tightest o p := by cases o <;> cases p <;> decide
  stacked o := by cases o <;> decide
  associate o p := by cases o <;> cases p <;> decide

theorem Arithmetic.table_graded : Arithmetic.table.Graded where
  arities o := by cases o <;> decide
  alike o p := by cases o <;> cases p <;> decide
  tightest o p := by cases o <;> cases p <;> decide
  stacked o := by cases o <;> decide
  associate o p := by cases o <;> cases p <;> decide

/-! ## Trees -/

/-- Operators around operands, grouped. -/
inductive Tree (α ο : Type) where
  | operand (a : α)
  | unary (o : ο) (t : Tree α ο)
  | binary (o : ο) (l r : Tree α ο)

namespace Tree

variable {α ο : Type}

/-- The operands from left to right. -/
def operands : Tree α ο → List α
  | operand a => [a]
  | unary _ t => t.operands
  | binary _ l r => l.operands ++ r.operands

/-- The program in which operators follow their operands. -/
def program : Tree α ο → List (Postfix α ο)
  | operand a => [.operand a]
  | unary o t => t.program ++ [.operator o]
  | binary o l r => l.program ++ r.program ++ [.operator o]

/-- The value, from left to right: a failure on the left keeps the right from being looked at. -/
def eval {m : Type → Type} [Monad m] {β : Type} (value : α → m β) (apply : ο → List β → m β) :
    Tree α ο → m β
  | operand a => value a
  | unary o t => do
    let v ← t.eval value apply
    apply o [v]
  | binary o l r => do
    let v ← l.eval value apply
    let w ← r.eval value apply
    apply o [v, w]

theorem operands_program (t : Tree α ο) : Script.operands t.program = t.operands := by
  induction t with
  | operand a => rfl
  | unary o t ih => simpa [program, operands, Script.operands] using ih
  | binary o l r ihl ihr =>
    simp only [Script.operands] at ihl ihr
    simp [program, operands, Script.operands, ihl, ihr]

end Tree

/-- The precedence grammar: the tokens that write a tree whose outermost operators bind at least as
tight as a level. A binary operator has operators of its own precedence on the side to which it
associates. -/
inductive Renders {α ο : Type} (T : OperatorTable ο) : Nat → Tree α ο → List (Infix α ο) → Prop
  | operand {level : Nat} (a : α) : Renders T level (.operand a) [.operand a]
  | parens {level : Nat} {t : Tree α ο} {ts : List (Infix α ο)} (opened closed : Span)
      (inner : Renders T 0 t ts) : Renders T level t (.opening opened :: ts ++ [.closing closed])
  | unary {level : Nat} {o : ο} {t : Tree α ο} {ts : List (Infix α ο)} (arity : T.arity o = 1)
      (binds : level ≤ T.precedence o) (inner : Renders T (T.precedence o) t ts) :
      Renders T level (.unary o t) (.operator o :: ts)
  | left {level : Nat} {o : ο} {l r : Tree α ο} {ls rs : List (Infix α ο)} (arity : T.arity o = 2)
      (binds : level ≤ T.precedence o) (associates : T.rightAssociative o = false)
      (hl : Renders T (T.precedence o) l ls) (hr : Renders T (T.precedence o + 1) r rs) :
      Renders T level (.binary o l r) (ls ++ .operator o :: rs)
  | right {level : Nat} {o : ο} {l r : Tree α ο} {ls rs : List (Infix α ο)} (arity : T.arity o = 2)
      (binds : level ≤ T.precedence o) (associates : T.rightAssociative o = true)
      (hl : Renders T (T.precedence o + 1) l ls) (hr : Renders T (T.precedence o) r rs) :
      Renders T level (.binary o l r) (ls ++ .operator o :: rs)

variable {α ο : Type} {T : OperatorTable ο}

/-! ## Reading a rendering -/

namespace Pending

theorem yields_of_tighter {waiting next : ο} (h : T.precedence next < T.precedence waiting) :
    yields T waiting next = true := by
  simp [yields, h]

theorem yields_of_left {waiting next : ο} (h : T.precedence next ≤ T.precedence waiting)
    (hleft : T.rightAssociative next = false) : yields T waiting next = true := by
  rcases Nat.lt_or_eq_of_le h with hlt | heq
  · exact yields_of_tighter hlt
  · simp [yields, heq, hleft]

theorem not_yields_of_looser {waiting next : ο} (h : T.precedence waiting < T.precedence next) :
    yields T waiting next = false := by
  simp [yields, Nat.not_lt_of_lt h, Nat.ne_of_lt h]

theorem not_yields_of_right {waiting next : ο} (h : T.precedence waiting ≤ T.precedence next)
    (hright : T.precedence waiting = T.precedence next → T.rightAssociative next = true) :
    yields T waiting next = false := by
  rcases Nat.lt_or_eq_of_le h with hlt | heq
  · exact not_yields_of_looser hlt
  · simp [yields, heq, hright heq]

/-- No operator that binds at least as tight as a level makes the last waiting one apply. -/
def Blocks (T : OperatorTable ο) (level : Nat) (stack : List (Pending ο)) : Prop :=
  ∀ o, level ≤ T.precedence o → release T o stack = ([], stack)

theorem Blocks.nil (level : Nat) : Blocks T level [] :=
  fun _ _ => rfl

theorem Blocks.opening (level : Nat) (span : Span) (stack : List (Pending ο)) :
    Blocks T level (.opening span :: stack) :=
  fun _ _ => rfl

theorem Blocks.operator {level : Nat} {waiting : ο} {stack : List (Pending ο)}
    (h : ∀ o, level ≤ T.precedence o → yields T waiting o = false) :
    Blocks T level (.operator waiting :: stack) := by
  intro o ho
  simp [release, h o ho]

theorem Blocks.mono {level tighter : Nat} {stack : List (Pending ο)} (h : Blocks T level stack)
    (hle : level ≤ tighter) : Blocks T tighter stack :=
  fun o ho => h o (Nat.le_trans hle ho)

/-- Waiting operators that all apply are released, and no others. -/
theorem release_append {o : ο} {waiting : List ο} {stack : List (Pending ο)}
    (hyield : ∀ w ∈ waiting, yields T w o = true) (hstack : release T o stack = ([], stack)) :
    release T o (waiting.map .operator ++ stack) = (waiting, stack) := by
  induction waiting with
  | nil => exact hstack
  | cons w waiting ih =>
    have hrest := ih fun v hv => hyield v (List.mem_cons_of_mem _ hv)
    simp [release, hyield w List.mem_cons_self, hrest]

theorem close_append (waiting : List ο) (span : Span) (stack : List (Pending ο)) :
    close (waiting.map .operator ++ .opening span :: stack) = some (waiting, stack) := by
  induction waiting with
  | nil => rfl
  | cons w waiting ih => simp [close, ih]

theorem finish_operators (waiting : List ο) :
    finish (waiting.map .operator) = .ok waiting := by
  induction waiting with
  | nil => rfl
  | cons w waiting ih => simp [finish, ih, Except.map]

end Pending

open Pending

/-- Reading the operator of a binary node, when its left side has been read. -/
theorem convert_operator {o : ο} {waiting : List ο} {stack : List (Pending ο)}
    {tokens : List (Infix α ο)} (hyield : ∀ w ∈ waiting, yields T w o = true)
    (hstack : release T o stack = ([], stack)) :
    convert T (.operator o :: tokens) (waiting.map .operator ++ stack) =
      (convert T tokens (.operator o :: stack)).map (waiting.map .operator ++ ·) := by
  simp only [convert, release_append hyield hstack]

/-- Reading tokens puts out the program of a tree, but for operators that still wait on top of the
stack, all of which bind at least as tight as a level. -/
def Reads (T : OperatorTable ο) (level : Nat) (t : Tree α ο) (tokens : List (Infix α ο))
    (stack : List (Pending ο)) : Prop :=
  ∃ (out : List (Postfix α ο)) (waiting : List ο),
    out ++ waiting.map .operator = t.program ∧ (∀ w ∈ waiting, level ≤ T.precedence w) ∧
    ∀ rest, convert T (tokens ++ rest) stack =
      (convert T rest (waiting.map .operator ++ stack)).map (out ++ ·)

theorem Reads.operand (level : Nat) (a : α) (stack : List (Pending ο)) :
    Reads T level (.operand a) [.operand a] stack :=
  ⟨[.operand a], [], rfl, by simp, fun rest => rfl⟩

/-- Parentheses leave nothing waiting. -/
theorem Reads.parens {level : Nat} {t : Tree α ο} {ts : List (Infix α ο)} {opened : Span}
    {stack : List (Pending ο)} (closed : Span) (h : Reads T 0 t ts (.opening opened :: stack)) :
    Reads T level t (.opening opened :: ts ++ [.closing closed]) stack := by
  obtain ⟨out, waiting, hprogram, -, hread⟩ := h
  refine ⟨out ++ waiting.map .operator, [], by simpa using hprogram, by simp, fun rest => ?_⟩
  have hclosed : convert T (.closing closed :: rest)
      (waiting.map .operator ++ .opening opened :: stack) =
        (convert T rest stack).map (waiting.map .operator ++ ·) := by
    simp only [convert, close_append]
  calc convert T ((.opening opened :: ts ++ [.closing closed]) ++ rest) stack
      = convert T (ts ++ .closing closed :: rest) (.opening opened :: stack) := by
        simp [convert]
    _ = _ := by rw [hread, hclosed, Except.map_map_append]; rfl

/-- A prefix operator waits below those of its operand. -/
theorem Reads.unary {level : Nat} {o : ο} {t : Tree α ο} {ts : List (Infix α ο)}
    {stack : List (Pending ο)} (binds : level ≤ T.precedence o) (hstack : Blocks T level stack)
    (h : Reads T (T.precedence o) t ts (.operator o :: stack)) :
    Reads T level (.unary o t) (.operator o :: ts) stack := by
  obtain ⟨out, waiting, hprogram, hwaiting, hread⟩ := h
  refine ⟨out, waiting ++ [o], by simp [Tree.program, ← hprogram], ?_, fun rest => ?_⟩
  · intro w hw
    rcases List.mem_append.mp hw with hw | hw
    · exact Nat.le_trans binds (hwaiting w hw)
    · exact List.mem_singleton.mp hw ▸ binds
  · have hfirst : convert T (.operator o :: (ts ++ rest)) stack =
        convert T (ts ++ rest) (.operator o :: stack) := by
      simp only [convert, hstack o binds, List.map_nil, List.nil_append]
      cases convert T (ts ++ rest) (.operator o :: stack) <;> rfl
    rw [List.cons_append, hfirst, hread]
    simp

/-- The operators of the left side apply before a binary operator waits, and it waits below those of
the right side. -/
theorem Reads.binary {level left right : Nat} {o : ο} {l r : Tree α ο} {ls rs : List (Infix α ο)}
    {stack : List (Pending ο)} (binds : level ≤ T.precedence o) (hstack : Blocks T level stack)
    (hyield : ∀ w, left ≤ T.precedence w → yields T w o = true)
    (hright : T.precedence o ≤ right) (hl : Reads T left l ls stack)
    (hr : Reads T right r rs (.operator o :: stack)) :
    Reads T level (.binary o l r) (ls ++ .operator o :: rs) stack := by
  obtain ⟨outl, waitl, hprograml, hwaitl, hreadl⟩ := hl
  obtain ⟨outr, waitr, hprogramr, hwaitr, hreadr⟩ := hr
  refine ⟨outl ++ waitl.map .operator ++ outr, waitr ++ [o], ?_, ?_, fun rest => ?_⟩
  · simp [Tree.program, ← hprograml, ← hprogramr]
  · intro w hw
    rcases List.mem_append.mp hw with hw | hw
    · exact Nat.le_trans binds (Nat.le_trans hright (hwaitr w hw))
    · exact List.mem_singleton.mp hw ▸ binds
  · have happly : ∀ w ∈ waitl, yields T w o = true := by
      intro w hw
      exact hyield w (hwaitl w hw)
    rw [List.append_assoc, hreadl, List.cons_append, convert_operator happly (hstack o binds),
      hreadr, Except.map_map_append, Except.map_map_append]
    simp

/-- **What has been read of a rendering** is its program and the operators that wait, on any stack
whose last operator no operator of the rendering makes apply. -/
theorem convert_renders (hT : T.Graded) {level : Nat} {t : Tree α ο} {ts : List (Infix α ο)}
    (h : Renders T level t ts) {stack : List (Pending ο)} (hstack : Blocks T level stack) :
    Reads T level t ts stack := by
  induction h generalizing stack with
  | operand a => exact .operand _ a stack
  | parens opened closed inner ih => exact .parens closed (ih (Blocks.opening 0 opened stack))
  | @unary level o t ts arity binds inner ih =>
    -- those that follow a prefix operator are prefix operators too, or bind looser
    have hblocks : Blocks T (T.precedence o) (.operator o :: stack) := by
      refine Blocks.operator fun p hp => not_yields_of_right hp fun heq => ?_
      rcases hT.arities p with hone | htwo
      · exact hT.stacked p hone
      · exact absurd heq (Nat.ne_of_gt (hT.tightest o p arity htwo))
    exact .unary binds hstack (ih hblocks)
  | @left level o l r ls rs arity binds associates hl hr ihl ihr =>
    have hblocks : Blocks T (T.precedence o + 1) (.operator o :: stack) :=
      Blocks.operator fun p hp => not_yields_of_looser hp
    exact .binary binds hstack (fun w hw => yields_of_left hw associates) (Nat.le_succ _)
      (ihl (hstack.mono binds)) (ihr hblocks)
  | @right level o l r ls rs arity binds associates hl hr ihl ihr =>
    have hblocks : Blocks T (T.precedence o) (.operator o :: stack) := by
      refine Blocks.operator fun p hp => not_yields_of_right hp fun heq => ?_
      rcases hT.arities p with hone | htwo
      · exact hT.stacked p hone
      · rw [← hT.associate o p arity htwo heq]
        exact associates
    exact .binary binds hstack (fun w hw => yields_of_tighter hw) (Nat.le_refl _)
      (ihl (hstack.mono (Nat.le_succ_of_le binds))) (ihr hblocks)

theorem toPostfix_renders (hT : T.Graded) {t : Tree α ο} {ts : List (Infix α ο)}
    (h : Renders T 0 t ts) : toPostfix T ts = .ok t.program := by
  obtain ⟨out, waiting, hprogram, -, hread⟩ := convert_renders hT h (Blocks.nil 0)
  have hend : convert T [] (waiting.map Pending.operator) =
      .ok (waiting.map (Postfix.operator (α := α))) := by
    simp [convert, finish_operators, Except.map]
  have hread := hread []
  rw [List.append_nil, List.append_nil, hend] at hread
  rw [toPostfix, hread, ← hprogram]
  rfl

/-! ## Running a program -/

/-- Whether every operator of a tree has as many operands as it takes. -/
def Tree.Fits (T : OperatorTable ο) : Tree α ο → Prop
  | operand _ => True
  | unary o t => T.arity o = 1 ∧ t.Fits T
  | binary o l r => T.arity o = 2 ∧ l.Fits T ∧ r.Fits T

theorem Renders.fits {level : Nat} {t : Tree α ο} {ts : List (Infix α ο)}
    (h : Renders T level t ts) : t.Fits T := by
  induction h with
  | operand a => trivial
  | parens opened closed inner ih => exact ih
  | unary arity binds inner ih => exact ⟨arity, ih⟩
  | left arity binds associates hl hr ihl ihr => exact ⟨arity, ihl, ihr⟩
  | right arity binds associates hl hr ihl ihr => exact ⟨arity, ihl, ihr⟩

/-- Every tree can be written, with parentheses where in doubt. -/
theorem Tree.Fits.exists_renders {t : Tree α ο} (h : t.Fits T) (level : Nat) :
    ∃ ts, Renders T level t ts := by
  induction t generalizing level with
  | operand a => exact ⟨_, .operand a⟩
  | unary o t ih =>
    obtain ⟨ts, ht⟩ := ih h.2 (T.precedence o)
    exact ⟨_, .parens ⟨0, 0⟩ ⟨0, 0⟩ (.unary h.1 (Nat.zero_le _) ht)⟩
  | binary o l r ihl ihr =>
    obtain ⟨harity, hl, hr⟩ := h
    cases hright : T.rightAssociative o with
    | false =>
      obtain ⟨ls, hls⟩ := ihl hl (T.precedence o)
      obtain ⟨rs, hrs⟩ := ihr hr (T.precedence o + 1)
      exact ⟨_, .parens ⟨0, 0⟩ ⟨0, 0⟩ (.left harity (Nat.zero_le _) hright hls hrs)⟩
    | true =>
      obtain ⟨ls, hls⟩ := ihl hl (T.precedence o + 1)
      obtain ⟨rs, hrs⟩ := ihr hr (T.precedence o)
      exact ⟨_, .parens ⟨0, 0⟩ ⟨0, 0⟩ (.right harity (Nat.zero_le _) hright hls hrs)⟩

section Run

variable {m : Type → Type} [Monad m] [LawfulMonad m] {β : Type}

/-- The program of a tree leaves the value of the tree on the stack. -/
theorem runOn_program (value : α → m β) (apply : ο → List β → m β) (underflow : m β)
    {t : Tree α ο} (ht : t.Fits T) (rest : List (Postfix α ο)) (stack : List β) :
    runOn T value apply underflow (t.program ++ rest) stack = (do
      let v ← t.eval value apply
      runOn T value apply underflow rest (v :: stack)) := by
  induction t generalizing rest stack with
  | operand a => rfl
  | unary o t ih =>
    obtain ⟨harity, ht⟩ := ht
    rw [Tree.program, List.append_assoc, ih ht]
    simp only [Tree.eval, bind_assoc]
    refine bind_congr fun v => ?_
    simp [runOn, harity]
  | binary o l r ihl ihr =>
    obtain ⟨harity, hl, hr⟩ := ht
    have happend : (Tree.binary o l r).program ++ rest =
        l.program ++ (r.program ++ .operator o :: rest) := by
      simp [Tree.program]
    rw [happend, ihl hl]
    simp only [Tree.eval, bind_assoc]
    refine bind_congr fun v => ?_
    rw [ihr hr]
    refine bind_congr fun w => ?_
    have henough : ¬(w :: v :: stack).length < T.arity o := by
      simp [harity]
    rw [runOn, if_neg henough, harity]
    rfl

theorem run_program (value : α → m β) (apply : ο → List β → m β) (underflow : m β)
    {t : Tree α ο} (ht : t.Fits T) :
    run T value apply underflow t.program = t.eval value apply := by
  have h := runOn_program value apply underflow ht [] []
  rw [List.append_nil] at h
  rw [run, h]
  exact bind_pure (t.eval value apply)

end Run

/-- **Both languages compute what is written.** In a language whose prefix operators bind tightest,
a rendering of a tree has a program with the operands of the tree in their order, and it runs as the
tree evaluates, whatever the operands and operators do and whether they fail. -/
theorem run_toPostfix :
    Logic.table.Graded ∧ Arithmetic.table.Graded ∧
    ∀ {α ο : Type} {T : OperatorTable ο}, T.Graded →
    ∀ {t : Tree α ο} {ts : List (Infix α ο)}, Renders T 0 t ts →
      ∃ program, toPostfix T ts = .ok program ∧ operands program = t.operands ∧
        ∀ {m : Type → Type} [Monad m] [LawfulMonad m] {β : Type} (value : α → m β)
          (apply : ο → List β → m β) (underflow : m β),
          run T value apply underflow program = t.eval value apply := by
  refine ⟨Logic.table_graded, Arithmetic.table_graded, ?_⟩
  intro α ο T hT t ts h
  exact ⟨t.program, toPostfix_renders hT h, t.operands_program, fun value apply underflow =>
    run_program value apply underflow h.fits⟩

/-- A sum that joins to the left, of a difference and of a negated operand in parentheses. -/
theorem run_toPostfix_sum :
    ∃ program, toPostfix Arithmetic.table
        [.operand 1, .operator .subtract, .operand 2, .operator .add, .opening ⟨4, 5⟩,
          .operator .negate, .operand 3, .closing ⟨7, 8⟩] = .ok program ∧
      run Arithmetic.table (m := Option) (fun n : Nat => some (n : Int)) (fun
        | .negate, [v] => some (-v)
        | .subtract, [v, w] => some (v - w)
        | .add, [v, w] => some (v + w)
        | _, _ => none) none program = some (-4) := by
  have hdifference : Renders Arithmetic.table (Arithmetic.table.precedence .add)
      (.binary .subtract (.operand 1) (.operand 2))
      [.operand 1, .operator .subtract, .operand 2] :=
    .left rfl (by decide) rfl (.operand 1) (.operand 2)
  have hnegated : Renders Arithmetic.table (Arithmetic.table.precedence .add + 1)
      (.unary .negate (.operand 3))
      [.opening ⟨4, 5⟩, .operator .negate, .operand 3, .closing ⟨7, 8⟩] :=
    .parens ⟨4, 5⟩ ⟨7, 8⟩ (.unary rfl (by decide) (.operand 3))
  obtain ⟨program, hprogram, -, hrun⟩ := run_toPostfix.2.2 Arithmetic.table_graded
    (.left rfl (Nat.zero_le _) rfl hdifference hnegated)
  exact ⟨program, hprogram, hrun _ _ _⟩

end Storyworld.Script
