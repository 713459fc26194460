import Storyworld.Script.Expression

/-! Assignments: clauses with semicolons between them, each a path, an equals sign and an expression.
Separators inside quotes do not count. Clauses are carried out in order, each seeing what the
earlier ones wrote; what was written before a failure stays. -/

namespace Storyworld.Script

/-- A computation that may change a world and may fail. What it changed before it failed stays. -/
abbrev Change := ExceptT ScriptError (StateM World)

/-- Where a reader stands with regard to quotes. -/
inductive Quoting where
  | outside
  | inside (quote : Char)
  | escaped (quote : Char)
  deriving DecidableEq

def Quoting.step : Quoting → Char → Quoting
  | outside, c => if c = '"' ∨ c = '\'' then inside c else outside
  | inside q, c => if c = '\\' then escaped q else if c = q then outside else inside q
  | escaped q, _ => inside q

/-- A text cut at the first separator outside quotes, if there is one. -/
def divideOutside? (sep : Char) : Quoting → List Char → Option (List Char × List Char)
  | _, [] => none
  | q, c :: cs =>
    if q = .outside ∧ c = sep then some ([], cs)
    else (divideOutside? sep (q.step c) cs).map fun (left, right) => (c :: left, right)

def splitOutside (sep : Char) : Quoting → List Char → List (List Char)
  | _, [] => [[]]
  | q, c :: cs =>
    if q = .outside ∧ c = sep then [] :: splitOutside sep .outside cs
    else
      match splitOutside sep (q.step c) cs with
      | [] => [[c]]
      | piece :: pieces => (c :: piece) :: pieces

/-- One clause: where to write, and what. -/
structure Assignment where
  target : String
  expression : Expression
  span : Span

namespace Assignment

/-- Reads a clause that begins at byte `start`, with no blanks around it. -/
def parse (start : Nat) (clause : List Char) : Except ScriptError Assignment :=
  match divideOutside? '=' .outside clause with
  | none => .error (.text (.notAssignment (String.ofList clause)) (spanFrom start clause))
  | some (left, right) =>
    let target := Text.trim left
    let name := String.ofList target
    if target.isEmpty ∨ target.any Text.isBlank then
      .error (.text (.malformedTarget name) (spanFrom start left))
    else if (Path.ofText? name).isNone then
      .error (.text (.invalidPath name) (spanFrom start left))
    else do
      let expression ← Expression.parse (start + byteSize left + 1) right
      pure ⟨name, expression, spanFrom start clause⟩

/-- The clauses of pieces of a script, the first of which begins at byte `start`; one byte separates
two pieces. Blank pieces are no clauses. -/
def parseAll (start : Nat) : List (List Char) → Except ScriptError (List Assignment)
  | [] => .ok []
  | piece :: pieces =>
    let rest := parseAll (start + byteSize piece + 1) pieces
    let clause := Text.trim piece
    if clause.isEmpty then rest
    else do
      let first ← parse (start + byteSize (piece.takeWhile Text.isBlank)) clause
      let others ← rest
      pure (first :: others)

def perform (a : Assignment) : Change Unit := do
  let v ← a.expression.evaluate (← get)
  (Store.set a.target v).adapt .world

def performAll : List Assignment → Change Unit
  | [] => pure ()
  | a :: rest => do
    a.perform
    performAll rest

end Assignment

def parseAssignments (source : String) : Except ScriptError (List Assignment) :=
  Assignment.parseAll 0 (splitOutside ';' .outside source.toList)

def assign (source : String) : Change Unit := do
  let clauses ← parseAssignments source
  Assignment.performAll clauses

end Storyworld.Script
