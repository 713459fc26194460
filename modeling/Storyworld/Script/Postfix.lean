import Storyworld.Script.Span

/-! Operators between operands are brought into the order in which they apply, and run on a stack of
values. Both languages share this; they differ in their operators and operands only.

Operators wait on a stack until one that binds no tighter follows, or the parenthesis around them
ends. A program is well formed if it never takes more values than there are and leaves exactly one,
which is decided without running it. -/

namespace Storyworld.Script

/-- What is known of the operators of a language. A higher precedence binds tighter. -/
structure OperatorTable (ο : Type) where
  precedence : ο → Nat
  arity : ο → Nat
  rightAssociative : ο → Bool

/-- An operand, an operator or a parenthesis, as written. -/
inductive Infix (α ο : Type) where
  | operand (a : α)
  | operator (o : ο)
  | opening (span : Span)
  | closing (span : Span)

/-- A step of a program: push an operand, or replace operands by a result. -/
inductive Postfix (α ο : Type) where
  | operand (a : α)
  | operator (o : ο)
  deriving DecidableEq

inductive Unbalanced where
  | opening (span : Span)
  | closing (span : Span)
  deriving DecidableEq

/-- An operator that waits for its last operand, or a parenthesis that waits for its partner. -/
inductive Pending (ο : Type) where
  | operator (o : ο)
  | opening (span : Span)

namespace Pending

variable {ο : Type}

/-- Whether a waiting operator applies before one that follows its operand. -/
def yields (T : OperatorTable ο) (waiting next : ο) : Bool :=
  T.precedence next < T.precedence waiting ||
    (T.precedence waiting == T.precedence next && !T.rightAssociative next)

/-- The waiting operators that apply before the next one, and those that go on waiting. -/
def release (T : OperatorTable ο) (next : ο) : List (Pending ο) → List ο × List (Pending ο)
  | .operator o :: rest =>
    if yields T o next then
      let (released, rest) := release T next rest
      (o :: released, rest)
    else ([], .operator o :: rest)
  | stack => ([], stack)

/-- The operators waiting inside the innermost parenthesis, and what waits outside it. -/
def close : List (Pending ο) → Option (List ο × List (Pending ο))
  | [] => none
  | .opening _ :: rest => some ([], rest)
  | .operator o :: rest => (close rest).map fun (released, rest) => (o :: released, rest)

/-- The operators that still wait at the end, where no parenthesis may. -/
def finish : List (Pending ο) → Except Unbalanced (List ο)
  | [] => .ok []
  | .opening span :: _ => .error (.opening span)
  | .operator o :: rest => (finish rest).map (o :: ·)

end Pending

variable {α ο : Type}

/-- The program of the tokens that are left, with the operators that wait. -/
def convert (T : OperatorTable ο) :
    List (Infix α ο) → List (Pending ο) → Except Unbalanced (List (Postfix α ο))
  | [], stack => (Pending.finish stack).map (List.map .operator)
  | .operand a :: tokens, stack => (convert T tokens stack).map (.operand a :: ·)
  | .operator o :: tokens, stack =>
    let (released, rest) := Pending.release T o stack
    (convert T tokens (.operator o :: rest)).map (released.map .operator ++ ·)
  | .opening span :: tokens, stack => convert T tokens (.opening span :: stack)
  | .closing span :: tokens, stack =>
    match Pending.close stack with
    | none => .error (.closing span)
    | some (released, rest) => (convert T tokens rest).map (released.map .operator ++ ·)

def toPostfix (T : OperatorTable ο) (tokens : List (Infix α ο)) :
    Except Unbalanced (List (Postfix α ο)) :=
  convert T tokens []

/-- The number of values after a program that starts with `depth` of them, if it never takes more
than there are. -/
def depthAfter (T : OperatorTable ο) : List (Postfix α ο) → Nat → Option Nat
  | [], depth => some depth
  | .operand _ :: program, depth => depthAfter T program (depth + 1)
  | .operator o :: program, depth =>
    if depth < T.arity o then none else depthAfter T program (depth - T.arity o + 1)

/-- Whether a program leaves exactly one value and never takes more than there are. -/
def isWellFormed (T : OperatorTable ο) (program : List (Postfix α ο)) : Bool :=
  depthAfter T program 0 == some 1

variable {m : Type → Type} [Monad m] {β : Type}

/-- Runs a program on a stack whose top comes first. -/
def runOn (T : OperatorTable ο) (operand : α → m β) (apply : ο → List β → m β) (underflow : m β) :
    List (Postfix α ο) → List β → m β
  | [], [v] => pure v
  | [], _ => underflow
  | .operand a :: program, stack => do
    let v ← operand a
    runOn T operand apply underflow program (v :: stack)
  | .operator o :: program, stack =>
    if stack.length < T.arity o then underflow
    else do
      let v ← apply o (stack.take (T.arity o)).reverse
      runOn T operand apply underflow program (v :: stack.drop (T.arity o))

/-- Runs a program. Every operand is looked at, in order, whatever operators stand around it. -/
def run (T : OperatorTable ο) (operand : α → m β) (apply : ο → List β → m β) (underflow : m β)
    (program : List (Postfix α ο)) : m β :=
  runOn T operand apply underflow program []

def operands (program : List (Postfix α ο)) : List α :=
  program.filterMap fun
    | .operand a => some a
    | .operator _ => none

end Storyworld.Script
