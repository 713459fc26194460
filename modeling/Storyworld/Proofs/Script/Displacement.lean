import Storyworld.Proofs.Script.Junction

/-! # Assignments further on

What is read a number of bytes further on is the same, with every place in it that much further on:
tokens, programs, expressions and clauses, and the errors of what is none
(`Assignment.parseAll_add`). Clauses further on do the same to a world, and fail further on
(`Assignment.performAll_shift`).
-/

namespace Storyworld.Script

variable {α β γ δ ε ο : Type} {T : OperatorTable ο} {n : Nat}

/-! ## Results further on -/

/-- What was read, or the error, a number of bytes further on. -/
def further (n : Nat) (move : α → β) (r : Except ScriptError α) : Except ScriptError β :=
  (r.map move).mapError (ScriptError.shift n)

theorem further_bind {move : α → β} {move' : γ → δ} {r : Except ScriptError α}
    {read : α → Except ScriptError γ} {read' : β → Except ScriptError δ}
    (h : ∀ a, read' (move a) = further n move' (read a)) :
    (further n move r >>= read') = further n move' (r >>= read) := by
  cases r with
  | error e => rfl
  | ok a => exact h a

/-! ## Programs further on -/

/-- A parenthesis without a partner, in another place. -/
def Unbalanced.map (move : Span → Span) : Unbalanced → Unbalanced
  | opening span => opening (move span)
  | closing span => closing (move span)

section

variable (move : Span → Span)

theorem Pending.release_map (o : ο) (stack : List (Pending ο)) :
    release T o (stack.map (map move)) =
      ((release T o stack).1, (release T o stack).2.map (map move)) := by
  induction stack with
  | nil => rfl
  | cons top stack ih =>
    cases top with
    | opening span => rfl
    | operator w =>
      simp only [List.map_cons, map, release, ih]
      split <;> rfl

theorem Pending.close_map (stack : List (Pending ο)) :
    close (stack.map (map move)) =
      (close stack).map fun (released, kept) => (released, kept.map (map move)) := by
  induction stack with
  | nil => rfl
  | cons top stack ih =>
    cases top with
    | opening span => rfl
    | operator o =>
      simp only [List.map_cons, map, close, ih]
      cases close stack <;> rfl

theorem Pending.finish_map (stack : List (Pending ο)) :
    finish (stack.map (map move)) = (finish stack).mapError (Unbalanced.map move) := by
  induction stack with
  | nil => rfl
  | cons top stack ih =>
    cases top with
    | opening span => rfl
    | operator o =>
      simp only [List.map_cons, map, finish, ih]
      cases finish stack <;> rfl

/-- **Other operands in other places** come in the same order, between the same operators. -/
theorem convert_map (f : α → β) (tokens : List (Infix α ο)) (stack : List (Pending ο)) :
    convert T (tokens.map (Infix.map f move)) (stack.map (Pending.map move)) =
      ((convert T tokens stack).map (List.map (Postfix.map f))).mapError (Unbalanced.map move) := by
  induction tokens generalizing stack with
  | nil =>
    simp only [List.map_nil, convert, Pending.finish_map]
    cases Pending.finish stack with
    | error e => rfl
    | ok released => exact congrArg Except.ok (map_operators f released).symm
  | cons token tokens ih =>
    cases token with
    | operand a =>
      simp only [List.map_cons, Infix.map, convert, ih]
      cases convert T tokens stack <;> rfl
    | opening span => exact ih (.opening span :: stack)
    | operator o =>
      have hrest := ih (.operator o :: (Pending.release T o stack).2)
      rw [List.map_cons, Pending.map] at hrest
      simp only [List.map_cons, Infix.map, convert, Pending.release_map, hrest]
      cases convert T tokens (.operator o :: (Pending.release T o stack).2) with
      | error e => rfl
      | ok program => simp only [Except.map, Except.mapError, List.map_append, map_operators]
    | closing span =>
      simp only [List.map_cons, Infix.map, convert, Pending.close_map]
      cases Pending.close stack with
      | none => rfl
      | some closed =>
        obtain ⟨released, kept⟩ := closed
        simp only [Option.map_some, ih]
        cases convert T tokens kept with
        | error e => rfl
        | ok program => simp only [Except.map, Except.mapError, List.map_append, map_operators]

end

theorem depthAfter_map (f : α → β) (program : List (Postfix α ο)) (depth : Nat) :
    depthAfter T (program.map (Postfix.map f)) depth = depthAfter T program depth := by
  induction program generalizing depth with
  | nil => rfl
  | cons step program ih => cases step <;> simp only [List.map_cons, Postfix.map, depthAfter, ih]

theorem isWellFormed_map (f : α → β) (program : List (Postfix α ο)) :
    isWellFormed T (program.map (Postfix.map f)) = isWellFormed T program := by
  rw [isWellFormed, depthAfter_map, isWellFormed]

/-- Where other operands come to the same values, and fail with other errors, so does a program. -/
theorem runOn_map {value : α → Except ε γ} {value' : β → Except δ γ}
    {apply : ο → List γ → Except ε γ} {apply' : ο → List γ → Except δ γ}
    {underflow : Except ε γ} {underflow' : Except δ γ} {f : α → β} {g : ε → δ}
    (hvalue : ∀ a, value' (f a) = (value a).mapError g)
    (happly : ∀ o vs, apply' o vs = (apply o vs).mapError g)
    (hunderflow : underflow' = underflow.mapError g) (program : List (Postfix α ο))
    (stack : List γ) : runOn T value' apply' underflow' (program.map (Postfix.map f)) stack =
      (runOn T value apply underflow program stack).mapError g := by
  induction program generalizing stack with
  | nil =>
    match stack with
    | [v] => rfl
    | [] | _ :: _ :: _ => exact hunderflow
  | cons step program ih =>
    cases step with
    | operand a => simp only [List.map_cons, Postfix.map, runOn, hvalue, ih, Except.mapError_bind]
    | operator o =>
      simp only [List.map_cons, Postfix.map, runOn]
      split
      · exact hunderflow
      · simp only [happly, ih, Except.mapError_bind]

/-! ## Expressions further on -/

/-- An operand a number of bytes further on. -/
def Operand.shift (n : Nat) : Operand → Operand
  | literal v => literal v
  | name path span => name path (span.shift n)

namespace Expression

/-- An expression a number of bytes further on. -/
def shift (n : Nat) (e : Expression) : Expression :=
  ⟨e.program.map (Postfix.map (Operand.shift n))⟩

theorem token_add (n start : Nat) (c : Char) (cs : List Char) :
    token (start + n) c cs = further n id (token start c cs) := by
  unfold token
  simp only [spanFrom_add]
  repeat' split
  all_goals rfl

/-- Further on, the same tokens are scanned. -/
theorem scanFrom_add (n fuel start : Nat) (cs : List Char) :
    scanFrom fuel (start + n) cs =
      further n (List.map (Spanned.shift n)) (scanFrom fuel start cs) := by
  induction fuel generalizing start cs with
  | zero => cases cs <;> rfl
  | succ fuel ih =>
    cases cs with
    | nil => rfl
    | cons c cs =>
      rw [scanFrom, scanFrom]
      split
      · rw [Nat.add_right_comm, ih]
      · rw [token_add]
        cases token start c cs with
        | error e => rfl
        | ok result =>
          obtain ⟨t, rest⟩ := result
          change (scanFrom fuel (start + n + (byteSize (c :: cs) - byteSize rest)) rest).map _ =
            further n _ ((scanFrom fuel (start + (byteSize (c :: cs) - byteSize rest)) rest).map _)
          rw [Nat.add_right_comm, ih]
          cases scanFrom fuel (start + (byteSize (c :: cs) - byteSize rest)) rest <;> rfl

theorem infixOf_shift (afterOperand : Bool) (t : Spanned Token) :
    infixOf afterOperand (t.shift n) =
      (infixOf afterOperand t).map (Operand.shift n) (Span.shift n) := by
  obtain ⟨token, span⟩ := t
  cases token <;> rfl

theorem infixes_shift (afterOperand : Bool) (tokens : List (Spanned Token)) :
    infixes afterOperand (tokens.map (Spanned.shift n)) =
      (infixes afterOperand tokens).map (Infix.map (Operand.shift n) (Span.shift n)) := by
  induction tokens generalizing afterOperand with
  | nil => rfl
  | cons t tokens ih =>
    rw [List.map_cons, infixes, infixOf_shift, infixes, List.map_cons]
    exact congrArg _ (ih t.token.endsOperand)

theorem toPostfix_shift (tokens : List (Spanned Token)) :
    (toPostfix Arithmetic.table (infixes false (tokens.map (Spanned.shift n)))).mapError
        unbalancedError =
      further n (List.map (Postfix.map (Operand.shift n)))
        ((toPostfix Arithmetic.table (infixes false tokens)).mapError unbalancedError) := by
  have hconvert := convert_map (T := Arithmetic.table) (Span.shift n) (Operand.shift n)
    (infixes false tokens) []
  rw [List.map_nil] at hconvert
  rw [toPostfix, infixes_shift, hconvert, toPostfix]
  cases convert Arithmetic.table (infixes false tokens) [] with
  | error e => cases e <;> rfl
  | ok program => rfl

/-- **Further on, the same expression is read**, and what is none fails further on. -/
theorem parse_add (n start : Nat) (source : List Char) :
    parse (start + n) source = further n (shift n) (parse start source) := by
  unfold parse
  simp only [scan, scanFrom_add, spanFrom_add]
  split
  · rfl
  split
  · rfl
  refine further_bind fun tokens => ?_
  rw [List.isEmpty_map]
  split
  · rfl
  rw [toPostfix_shift]
  refine further_bind fun program => ?_
  rw [isWellFormed_map]
  split <;> rfl

theorem isBareName_shift (e : Expression) : (e.shift n).isBareName = e.isBareName := by
  obtain ⟨program⟩ := e
  match program with
  | [] | [.operator _] | [.operand (.literal _)] | [.operand (.name _ _)] => rfl
  | .operand (.literal _) :: _ :: _ | .operand (.name _ _) :: _ :: _ | .operator _ :: _ :: _ => rfl

/-- The names of an expression further on are its names, further on. -/
theorem names_shift (e : Expression) :
    (e.shift n).names = e.names.map fun (path, span) => (path, span.shift n) := by
  obtain ⟨program⟩ := e
  induction program with
  | nil => rfl
  | cons step program ih =>
    match step with
    | .operator _ | .operand (.literal _) => exact ih
    | .operand (.name path span) => exact congrArg ((path, span.shift n) :: ·) ih

theorem resolve_shift (w : World) (alone : Bool) (o : Operand) :
    resolve w alone (o.shift n) = (resolve w alone o).mapError (ScriptError.shift n) := by
  cases o with
  | literal v => rfl
  | name path span =>
    simp only [Operand.shift, resolve]
    split <;> rfl

/-! An operator fails at no place. -/

theorem numeric_shift (v : Value) : (numeric v).mapError (ScriptError.shift n) = numeric v := by
  unfold numeric
  split <;> rfl

theorem compute_shift (op : Arithmetic) (a b : Float) :
    (compute op a b).mapError (ScriptError.shift n) = compute op a b := by
  cases op <;> simp only [compute] <;> first | rfl | (split <;> rfl)

theorem combine_shift (op : Arithmetic) (vs : List Value) :
    (combine op vs).mapError (ScriptError.shift n) = combine op vs := by
  unfold combine
  split
  · simp only [Except.mapError_bind, numeric_shift]
    rfl
  · split
    · rfl
    · simp only [Except.mapError_bind, numeric_shift, compute_shift]
      rfl
  · rfl

/-- An expression further on has the same value, and fails further on. -/
theorem evaluate_shift (n : Nat) (w : World) (e : Expression) :
    (e.shift n).evaluate w = (e.evaluate w).mapError (ScriptError.shift n) := by
  let underflow : Except ScriptError Value := .error (.evaluation .stackUnderflow)
  have hunderflow : underflow = underflow.mapError (ScriptError.shift n) := rfl
  rw [evaluate, isBareName_shift, run, evaluate, run]
  exact runOn_map (resolve_shift w e.isBareName) (fun op vs => (combine_shift op vs).symm)
    hunderflow e.program []

end Expression

/-! ## Clauses further on -/

namespace Assignment

/-- A clause a number of bytes further on. -/
def shift (n : Nat) (a : Assignment) : Assignment :=
  ⟨a.target, a.expression.shift n, a.span.shift n⟩

theorem parse_add (n start : Nat) (clause : List Char) :
    parse (start + n) clause = further n (shift n) (parse start clause) := by
  unfold parse
  simp only [spanFrom_add]
  split
  · rfl
  split
  · rfl
  split
  · rfl
  rename_i left right _ _ _
  rw [Nat.add_right_comm start n, Nat.add_right_comm _ n, Expression.parse_add]
  exact further_bind fun _ => rfl

/-- **Further on, the same clauses are read**, and what is none fails further on. -/
theorem parseAll_add (n start : Nat) (pieces : List (List Char)) :
    parseAll (start + n) pieces = further n (List.map (shift n)) (parseAll start pieces) := by
  induction pieces generalizing start with
  | nil => rfl
  | cons piece pieces ih =>
    simp only [parseAll]
    rw [Nat.add_right_comm start n, Nat.add_right_comm _ n, ih]
    split
    · rfl
    rw [Nat.add_right_comm start n, parse_add]
    exact further_bind fun _ => further_bind fun _ => rfl

/-- Clauses further on do the same, and fail further on. -/
theorem perform_shift (n : Nat) (a : Assignment) :
    (a.shift n).perform = a.perform.adapt (ScriptError.shift n) := by
  funext w
  rw [run_adapt, perform, perform, run_get_bind, run_get_bind, run_lift_bind, run_lift_bind]
  simp only [shift, Expression.evaluate_shift]
  cases a.expression.evaluate w with
  | error e => rfl
  | ok v =>
    simp only [Except.mapError, run_adapt]
    cases (Store.set a.target v w).1 <;> rfl

theorem performAll_shift (n : Nat) (as : List Assignment) :
    performAll (as.map (shift n)) = (performAll as).adapt (ScriptError.shift n) := by
  induction as with
  | nil => rfl
  | cons a as ih =>
    funext w
    rw [List.map_cons, performAll, performAll, ih, perform_shift, run_adapt, run_bind, run_bind,
      run_adapt]
    rcases a.perform w with ⟨r, w'⟩
    cases r <;> rfl

end Assignment

end Storyworld.Script
