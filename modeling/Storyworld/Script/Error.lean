import Storyworld.Script.Comparison
import Storyworld.Script.Span
import Storyworld.World.Error

/-! What can be wrong with a script: its text, a name in it, a computation, or a write. -/

namespace Storyworld.Script

inductive TextFault where
  | loneAnd
  | loneOr
  | emptyCondition
  | missingLeft (op : Comparison)
  | missingRight (op : Comparison)
  | malformedCondition (text : String)
  | invalidPath (path : String)
  | unclosed
  | unmatched
  | missingOperand
  | malformedNumber (text : String)
  | unexpected (c : Char)
  | unterminated
  | emptyExpression
  | notAssignment (clause : String)
  | malformedTarget (target : String)
  deriving DecidableEq

inductive EvaluationFault where
  | unclosed
  | unmatched
  | missingOperand (source : String)
  | notNumeric (value : String)
  | divisionByZero
  | stackUnderflow
  | malformedCondition (source : String)
  deriving DecidableEq

/-- A fault of a script, with its place where it has one. -/
inductive ScriptError where
  | text (fault : TextFault) (span : Span)
  | reference (path : String) (span : Span) (cause : WorldError)
  | evaluation (fault : EvaluationFault)
  | world (cause : WorldError)
  deriving DecidableEq

def TextFault.message : TextFault → String
  | loneAnd => "expected `&&`"
  | loneOr => "expected `||`"
  | emptyCondition => "empty condition"
  | missingLeft op => "missing left-hand side of `" ++ op.symbol ++ "`"
  | missingRight op => "missing right-hand side of `" ++ op.symbol ++ "`"
  | malformedCondition text => "malformed condition `" ++ text ++ "`"
  | invalidPath path => (WorldError.invalidPath path).message
  | unclosed => "unclosed `(`"
  | unmatched => "unmatched `)`"
  | missingOperand => "operator is missing an operand"
  | malformedNumber text => "malformed number `" ++ text ++ "`"
  | unexpected c => "unexpected character `" ++ c.toString ++ "`"
  | unterminated => "unterminated string"
  | emptyExpression => "empty expression"
  | notAssignment clause => "expected `path = expression`, found `" ++ clause ++ "`"
  | malformedTarget target => "malformed assignment target `" ++ target ++ "`"

def EvaluationFault.message : EvaluationFault → String
  | unclosed => "unclosed `(`"
  | unmatched => "unmatched `)`"
  | missingOperand source => "operator is missing an operand in `" ++ source ++ "`"
  | notNumeric value => "`" ++ value ++ "` is not a number"
  | divisionByZero => "division by zero"
  | stackUnderflow => "operand stack underflow"
  | malformedCondition source => "malformed condition `" ++ source ++ "`"

namespace ScriptError

def message : ScriptError → String
  | text fault _ => "syntax error: " ++ fault.message
  | reference path _ cause => "cannot resolve `" ++ path ++ "`: " ++ cause.message
  | evaluation fault => "evaluation error: " ++ fault.message
  | world cause => cause.message

def span? : ScriptError → Option Span
  | text _ span => some span
  | reference _ span _ => some span
  | evaluation _ => none
  | world _ => none

end ScriptError

end Storyworld.Script
