import Storyworld.Number.Remainder
import Storyworld.Script.Expression.Token
import Storyworld.Script.Postfix
import Storyworld.World.Store

/-! Arithmetic over literals and the values of a world. Addition joins texts. A name that leads
nowhere reads as its own text where it is the whole expression, and as zero elsewhere. -/

namespace Storyworld.Script

inductive Arithmetic where
  | add
  | subtract
  | multiply
  | divide
  | remainder
  | negate
  deriving DecidableEq

/-- Negation binds tightest, then products, then sums. -/
def Arithmetic.table : OperatorTable Arithmetic where
  precedence
    | add => 1
    | subtract => 1
    | multiply => 2
    | divide => 2
    | remainder => 2
    | negate => 3
  arity op := if op = negate then 1 else 2
  rightAssociative op := op == negate

/-- A literal, or a name to be looked up. -/
inductive Operand where
  | literal (v : Value)
  | name (path : String) (span : Span)

/-- An expression that was read, as a program over its operands. -/
structure Expression where
  program : List (Postfix Operand Arithmetic)

namespace Expression

/-- The part that a token plays between the operators; a minus negates unless it follows an
operand. -/
def infixOf (afterOperand : Bool) (t : Spanned Token) : Infix Operand Arithmetic :=
  match t.token with
  | .number x => .operand (.literal (.number x))
  | .text s => .operand (.literal (.text s))
  | .bool b => .operand (.literal (.bool b))
  | .name path => .operand (.name path t.span)
  | .plus => .operator .add
  | .minus => .operator (if afterOperand then .subtract else .negate)
  | .times => .operator .multiply
  | .divide => .operator .divide
  | .percent => .operator .remainder
  | .opening => .opening t.span
  | .closing => .closing t.span

def infixes : Bool → List (Spanned Token) → List (Infix Operand Arithmetic)
  | _, [] => []
  | afterOperand, t :: ts => infixOf afterOperand t :: infixes t.token.endsOperand ts

def unbalancedError : Unbalanced → ScriptError
  | .opening _ => .evaluation .unclosed
  | .closing _ => .evaluation .unmatched

def ofValue (v : Value) : Expression :=
  ⟨[.operand (.literal v)]⟩

/-- Reads an expression that begins at byte `start` of a script. -/
def parse (start : Nat) (source : List Char) : Except ScriptError Expression :=
  let trimmed := String.ofList (Text.trim source)
  if trimmed = "true" then .ok (ofValue (.bool true))
  else if trimmed = "false" then .ok (ofValue (.bool false))
  else do
    let tokens ← scan start source
    if tokens.isEmpty then .error (.text .emptyExpression (spanFrom start source))
    else do
      let program ←
        (toPostfix Arithmetic.table (infixes false tokens)).mapError unbalancedError
      if isWellFormed Arithmetic.table program then .ok ⟨program⟩
      else .error (.evaluation (.missingOperand trimmed))

def isBareName (e : Expression) : Bool :=
  match e.program with
  | [.operand (.name _ _)] => true
  | _ => false

/-- The names of an expression in the order of its source. -/
def names (e : Expression) : List (String × Span) :=
  (operands e.program).filterMap fun
    | .literal _ => none
    | .name path span => some (path, span)

/-- The value of an operand; `alone` says whether it is the whole expression. -/
def resolve (w : World) (alone : Bool) : Operand → Except ScriptError Value
  | .literal v => .ok v
  | .name path span =>
    match w.lookup path with
    | .ok v => .ok v
    | .error (.unknownPath _) => .ok (if alone then .text path else .number 0.0)
    | .error cause => .error (.reference path span cause)

def numeric (v : Value) : Except ScriptError Float :=
  match v.toNumber? with
  | some x => .ok x
  | none => .error (.evaluation (.notNumeric v.shown))

def compute (op : Arithmetic) (a b : Float) : Except ScriptError Float :=
  match op with
  | .add => .ok (a + b)
  | .subtract => .ok (a - b)
  | .multiply => .ok (a * b)
  | .divide =>
    if Number.same b 0.0 then .error (.evaluation .divisionByZero) else .ok (a / b)
  | .remainder =>
    if Number.same b 0.0 then .error (.evaluation .divisionByZero)
    else .ok (Number.remainder a b)
  | .negate => .ok (-a)

def isText : Value → Bool
  | .text _ => true
  | _ => false

def combine : Arithmetic → List Value → Except ScriptError Value
  | .negate, [v] => do
    let x ← numeric v
    pure (.number (-x))
  | op, [v, w] =>
    if op = .add ∧ (isText v ∨ isText w) then .ok (.text (v.shown ++ w.shown))
    else do
      let a ← numeric v
      let b ← numeric w
      let x ← compute op a b
      pure (.number x)
  | _, _ => .error (.evaluation .stackUnderflow)

def evaluate (w : World) (e : Expression) : Except ScriptError Value :=
  Script.run Arithmetic.table (resolve w e.isBareName) combine
    (.error (.evaluation .stackUnderflow)) e.program

end Expression

end Storyworld.Script
