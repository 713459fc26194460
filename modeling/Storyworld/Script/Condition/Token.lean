import Storyworld.Script.Error
import Storyworld.Text.Blank

/-! The tokens of a condition. What lies between logic and parentheses is one run of text, kept for
later; quotes inside it protect everything up to their partner. A quote without a partner is a
plain character, and the run then ends at the first delimiter after it. -/

namespace Storyworld.Script.Condition

inductive Token where
  | opening
  | closing
  | and
  | or
  | not
  | atom (text : String)
  deriving DecidableEq

def isDelimiter (c : Char) : Bool :=
  c == '(' || c == ')' || c == '&' || c == '|'

def isQuote (c : Char) : Bool :=
  c == '"' || c == '\''

/-- The run of text that a source starts with; `quote` is the partner that is waited for. -/
def textRun : Option Char → List Char → List Char
  | _, [] => []
  | some q, c :: cs => c :: textRun (if c = q then none else some q) cs
  | none, c :: cs =>
    if isDelimiter c then []
    else if isQuote c then
      if c ∈ cs then c :: textRun (some c) cs else c :: cs.takeWhile (!isDelimiter ·)
    else c :: textRun none cs

/-- The logic token that a source starts with, and what follows it; a run of text starts where
there is none. -/
def logic? (start : Nat) : List Char → Except ScriptError (Option (Token × List Char))
  | '(' :: cs => .ok (some (.opening, cs))
  | ')' :: cs => .ok (some (.closing, cs))
  | '&' :: '&' :: cs => .ok (some (.and, cs))
  | '|' :: '|' :: cs => .ok (some (.or, cs))
  | '&' :: _ => .error (.text .loneAnd ⟨start, start + 1⟩)
  | '|' :: _ => .error (.text .loneOr ⟨start, start + 1⟩)
  | '!' :: '=' :: _ => .ok none
  | '!' :: cs => .ok (some (.not, cs))
  | _ => .ok none

/-- The tokens of a source that begins at byte `start`; `fuel` bounds the number of its
characters. -/
def scanFrom : Nat → Nat → List Char → Except ScriptError (List (Spanned Token))
  | _, _, [] => .ok []
  | 0, _, _ => .ok []
  | fuel + 1, start, c :: cs =>
    if Text.isBlank c then scanFrom fuel (start + c.utf8Size) cs
    else
      match logic? start (c :: cs) with
      | .error e => .error e
      | .ok (some (token, rest)) =>
        let stop := start + (byteSize (c :: cs) - byteSize rest)
        (scanFrom fuel stop rest).map (⟨token, ⟨start, stop⟩⟩ :: ·)
      | .ok none =>
        let text := textRun none (c :: cs)
        let atom := Text.trimEnd text
        (scanFrom fuel (start + byteSize text) ((c :: cs).drop text.length)).map
          (⟨.atom (String.ofList atom), spanFrom start atom⟩ :: ·)

def scan (source : String) : Except ScriptError (List (Spanned Token)) :=
  scanFrom source.length 0 source.toList

end Storyworld.Script.Condition
