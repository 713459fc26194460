import Storyworld.Script.Error

/-! Reports about a script for its author: how serious, about what, and where. -/

namespace Storyworld.Script

inductive Severity where
  | error
  | warning
  deriving DecidableEq

/-- A message about a part of a script, and a label for that part. -/
structure Diagnostic where
  severity : Severity
  span : Span
  message : String
  label : String
  deriving DecidableEq

def ScriptError.label : ScriptError → String
  | text .. => "not understood here"
  | reference .. => "does not resolve"
  | evaluation _ => "cannot be evaluated"
  | world _ => "cannot be written"

namespace Diagnostic

/-- The diagnostic of an error; one without a place is about the whole script. -/
def ofError (source : String) (e : ScriptError) : Diagnostic where
  severity := .error
  span := e.span?.getD ⟨0, byteSize source.toList⟩
  message := e.message
  label := e.label

def shown (d : Diagnostic) : String :=
  (match d.severity with
    | .error => "error: "
    | .warning => "warning: ") ++ d.message

/-- Whether a character ends a line, alone or as the end of a pair. -/
def endsLine (c : Char) : Bool :=
  ['\r', '\n', '\x0b', '\x0c', '\u0085', '\u2028', '\u2029'].contains c

/-- The line and column of a byte, given those of the text that is left. Columns count characters;
a carriage return and a line feed after it end one line. -/
def positionFrom (line column byte : Nat) : List Char → Nat × Nat
  | [] => (line, column)
  | c :: cs =>
    if byte = 0 then (line, column)
    else if endsLine c ∧ ¬(c = '\r' ∧ cs.head? = some '\n') then
      positionFrom (line + 1) 1 (byte - c.utf8Size) cs
    else positionFrom line (column + 1) (byte - c.utf8Size) cs

/-- The line and column of a byte, both counted from one. -/
def position (source : String) (byte : Nat) : Nat × Nat :=
  positionFrom 1 1 byte source.toList

def report (name source : String) (d : Diagnostic) : List String :=
  let (line, column) := position source d.span.start
  let headline := String.ofList (d.message.toList.takeWhile (· ≠ '\n'))
  [(match d.severity with
      | .error => "Error: "
      | .warning => "Warning: ") ++ headline,
    "at " ++ name ++ ":" ++ toString line ++ ":" ++ toString column,
    "label " ++ d.label]

end Diagnostic

end Storyworld.Script
