import Storyworld.Number.Decimal
import Storyworld.Number.Notation
import Storyworld.Script.Error
import Storyworld.Text.Blank
import Storyworld.Text.Numeric

/-! The tokens of an arithmetic expression. A minus belongs to an identifier only if a letter follows
it; ids with other characters have to be quoted. -/

namespace Storyworld.Script.Expression

inductive Token where
  | number (x : Float)
  | text (s : String)
  | bool (b : Bool)
  | name (path : String)
  | plus
  | minus
  | times
  | divide
  | percent
  | opening
  | closing

/-- Whether a minus after the token subtracts. -/
def Token.endsOperand : Token → Bool
  | .number _ | .text _ | .bool _ | .name _ | .closing => true
  | _ => false

def Token.shown : Token → String
  | .number x => Number.plain x
  | .text s => "\"" ++ s ++ "\""
  | .bool b => if b then "true" else "false"
  | .name path => path
  | .plus => "+"
  | .minus => "-"
  | .times => "*"
  | .divide => "/"
  | .percent => "%"
  | .opening => "("
  | .closing => ")"

def symbol? : Char → Option Token
  | '+' => some .plus
  | '-' => some .minus
  | '*' => some .times
  | '/' => some .divide
  | '%' => some .percent
  | '(' => some .opening
  | ')' => some .closing
  | _ => none

/-- Whether a number starts here: a digit, or a point before one. -/
def startsNumber : List Char → Bool
  | '.' :: d :: _ => d.isDigit
  | c :: _ => c.isDigit
  | [] => false

def isNumberChar (c : Char) : Bool :=
  c.isDigit || c == '.'

def startsName (c : Char) : Bool :=
  Text.isAlphabetic c || c == '_'

def continuesName : List Char → Bool
  | [] => false
  | '-' :: cs =>
    match cs with
    | d :: _ => Text.isAlphabetic d
    | [] => false
  | c :: _ => Text.isAlphanumeric c || c == '_' || c == ':' || c == '.'

def nameRun : List Char → List Char
  | [] => []
  | c :: cs => if continuesName (c :: cs) then c :: nameRun cs else []

/-- The token of an identifier's text; the names of the booleans are none. -/
def nameToken (cs : List Char) : Token :=
  let s := String.ofList cs
  if s = "true" then .bool true else if s = "false" then .bool false else .name s

/-- The text up to a closing quote, escapes resolved, and what follows the quote. A backslash stands
for the character after it. -/
def quotedText (quote : Char) : List Char → Option (List Char × List Char)
  | [] => none
  | '\\' :: [] => none
  | '\\' :: c :: cs => (quotedText quote cs).map fun (text, rest) => (c :: text, rest)
  | c :: cs =>
    if c = quote then some ([], cs)
    else (quotedText quote cs).map fun (text, rest) => (c :: text, rest)

/-- The token that a source starts with, which is no blank, and what follows it. -/
def token (start : Nat) (c : Char) (cs : List Char) : Except ScriptError (Token × List Char) :=
  match symbol? c with
  | some t => .ok (t, cs)
  | none =>
    if c = '"' ∨ c = '\'' then
      match quotedText c cs with
      | some (text, rest) => .ok (.text (String.ofList text), rest)
      | none => .error (.text .unterminated (spanFrom start (c :: cs)))
    else if startsNumber (c :: cs) then
      let text := (c :: cs).takeWhile isNumberChar
      match Number.ofText? text with
      | some x => .ok (.number x, (c :: cs).dropWhile isNumberChar)
      | none => .error (.text (.malformedNumber (String.ofList text)) (spanFrom start text))
    else if startsName c then
      let text := nameRun (c :: cs)
      .ok (nameToken text, (c :: cs).drop text.length)
    else .error (.text (.unexpected c) (spanFrom start [c]))

/-- The tokens of a source that begins at byte `start`; `fuel` bounds the number of its
characters. -/
def scanFrom : Nat → Nat → List Char → Except ScriptError (List (Spanned Token))
  | _, _, [] => .ok []
  | 0, _, _ => .ok []
  | fuel + 1, start, c :: cs =>
    if Text.isBlank c then scanFrom fuel (start + c.utf8Size) cs
    else
      match token start c cs with
      | .error e => .error e
      | .ok (t, rest) =>
        let stop := start + (byteSize (c :: cs) - byteSize rest)
        (scanFrom fuel stop rest).map (⟨t, ⟨start, stop⟩⟩ :: ·)

def scan (start : Nat) (source : List Char) : Except ScriptError (List (Spanned Token)) :=
  scanFrom source.length start source

end Storyworld.Script.Expression
