import Storyworld.Script.Error
import Storyworld.World.Store

/-! The single tests of a condition: a path read as a boolean, or a path compared with a literal. The
first comparison operator of the text divides it. -/

namespace Storyworld.Script

structure Atom where
  path : String
  comparison : Option (Comparison × Value)
  span : Span

namespace Atom

def operator? : List Char → Option (Comparison × List Char)
  | '>' :: '=' :: cs => some (.greaterOrEqual, cs)
  | '>' :: cs => some (.greater, cs)
  | '<' :: '=' :: cs => some (.lessOrEqual, cs)
  | '<' :: cs => some (.less, cs)
  | '!' :: '=' :: cs => some (.notEqual, cs)
  | '=' :: '=' :: cs => some (.equal, cs)
  | '=' :: cs => some (.equal, cs)
  | _ => none

/-- A text cut at its first comparison operator. -/
def divide? : List Char → Option (List Char × Comparison × List Char)
  | [] => none
  | c :: cs =>
    match operator? (c :: cs) with
    | some (op, right) => some ([], op, right)
    | none => (divide? cs).map fun (left, op, right) => (c :: left, op, right)

/-- The path that a text writes, which has no blanks in it. -/
def checkPath (text : String) (span : Span) : Except ScriptError Unit :=
  if text.toList.any Text.isBlank then .error (.text (.malformedCondition text) span)
  else if (Path.ofText? text).isNone then .error (.text (.invalidPath text) span)
  else .ok ()

def isQuotedBy (quote : Char) (cs : List Char) : Bool :=
  cs.length ≥ 2 && cs.head? == some quote && cs.getLast? == some quote

/-- The value of the right-hand side: a quoted text as it is, else a literal. -/
def literal (cs : List Char) : Value :=
  if isQuotedBy '"' cs || isQuotedBy '\'' cs then .text (String.ofList cs.tail.dropLast)
  else .literal (String.ofList cs)

def parse (text : String) (span : Span) : Except ScriptError Atom :=
  match divide? text.toList with
  | none => do
    checkPath text span
    pure ⟨text, none, span⟩
  | some (left, op, right) =>
    let path := Text.trim left
    let value := Text.trim right
    if path.isEmpty then .error (.text (.missingLeft op) span)
    else if value.isEmpty then .error (.text (.missingRight op) span)
    else do
      checkPath (String.ofList path) (spanFrom span.start left)
      pure ⟨String.ofList path, some (op, literal value), span⟩

def evaluate (w : World) (a : Atom) : Except ScriptError Bool :=
  match w.lookup a.path with
  | .error cause => .error (.reference a.path a.span cause)
  | .ok v =>
    match a.comparison with
    | none => .ok v.isTruthy
    | some (op, rhs) => .ok (op.holds v rhs)

end Atom

end Storyworld.Script
