import Storyworld.Script.Condition.Atom
import Storyworld.Script.Condition.Token
import Storyworld.Script.Postfix

/-! Conditions: tests combined with and, or and not, and grouped with parentheses. A condition never
changes the world, and every one of its tests is made even where the result is already decided. -/

namespace Storyworld.Script

inductive Logic where
  | and
  | or
  | not
  deriving DecidableEq

/-- Negation binds tightest, then and, then or. -/
def Logic.table : OperatorTable Logic where
  precedence
    | or => 1
    | and => 2
    | not => 3
  arity
    | not => 1
    | and => 2
    | or => 2
  rightAssociative op := op == not

/-- A condition that was read, as a program over its tests. -/
structure Condition where
  source : String
  program : List (Postfix Atom Logic)

namespace Condition

/-- The part that a token plays between the operators. -/
def infixOf (t : Spanned Token) : Except ScriptError (Infix Atom Logic) :=
  match t.token with
  | .opening => .ok (.opening t.span)
  | .closing => .ok (.closing t.span)
  | .and => .ok (.operator .and)
  | .or => .ok (.operator .or)
  | .not => .ok (.operator .not)
  | .atom text => (Atom.parse text t.span).map .operand

def unbalancedError : Unbalanced → ScriptError
  | .opening span => .text .unclosed span
  | .closing span => .text .unmatched span

def parse (source : String) : Except ScriptError Condition := do
  let tokens ← scan source
  if tokens.isEmpty then .error (.text .emptyCondition ⟨0, byteSize source.toList⟩)
  else do
    let parts ← tokens.mapM infixOf
    let program ← (toPostfix Logic.table parts).mapError unbalancedError
    if isWellFormed Logic.table program then .ok ⟨source, program⟩
    else .error (.text .missingOperand ⟨0, byteSize source.toList⟩)

def combine (malformed : ScriptError) : Logic → List Bool → Except ScriptError Bool
  | .not, [a] => .ok !a
  | .and, [a, b] => .ok (a && b)
  | .or, [a, b] => .ok (a || b)
  | _, _ => .error malformed

def evaluate (w : World) (c : Condition) : Except ScriptError Bool :=
  let malformed := ScriptError.evaluation (.malformedCondition c.source)
  run Logic.table (Atom.evaluate w) (combine malformed) (.error malformed) c.program

/-- The tests of a condition in the order of its source. -/
def atoms (c : Condition) : List Atom :=
  operands c.program

def holds (w : World) (source : String) : Except ScriptError Bool := do
  let c ← parse source
  c.evaluate w

end Condition

end Storyworld.Script
