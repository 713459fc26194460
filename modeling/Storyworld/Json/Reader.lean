import Storyworld.Json.Basic

/-! Reads a JSON text as a tree. The grammar is the strict one: no comments, no trailing commas, no
leading zeros, no raw control characters. Each call gives the tree and the text that is left; a
value and the list that holds it use up fuel, of which two for each character suffice. -/

namespace Storyworld.Json

def isSpace (c : Char) : Bool :=
  c == ' ' || c == '\t' || c == '\n' || c == '\r'

def skipSpace (cs : List Char) : List Char :=
  cs.dropWhile isSpace

/-! ## Texts -/

/-- One character of a quoted text, or one UTF-16 unit named by an escape. -/
inductive Piece where
  | char (c : Char)
  | unit (n : Nat)

def hexValue? (c : Char) : Option Nat :=
  if c.isDigit then some (c.toNat - '0'.toNat)
  else if 'a' ≤ c ∧ c ≤ 'f' then some (c.toNat - 'a'.toNat + 10)
  else if 'A' ≤ c ∧ c ≤ 'F' then some (c.toNat - 'A'.toNat + 10)
  else none

def hexUnit? (a b c d : Char) : Option Nat := do
  pure ((((← hexValue? a) * 16 + (← hexValue? b)) * 16 + (← hexValue? c)) * 16 + (← hexValue? d))

def escaped? (c : Char) : Option Char :=
  [('"', '"'), ('\\', '\\'), ('/', '/'), ('b', '\x08'), ('f', '\x0c'), ('n', '\n'), ('r', '\r'),
    ('t', '\t')].lookup c

/-- The pieces of a quoted text up to its closing quote, and what follows that. -/
def pieces : List Char → Option (List Piece × List Char)
  | [] => none
  | '"' :: cs => some ([], cs)
  | '\\' :: 'u' :: a :: b :: c :: d :: cs => do
    let n ← hexUnit? a b c d
    let (ps, rest) ← pieces cs
    pure (.unit n :: ps, rest)
  | '\\' :: e :: cs => do
    let c ← escaped? e
    let (ps, rest) ← pieces cs
    pure (.char c :: ps, rest)
  | c :: cs => do
    guard (0x20 ≤ c.toNat ∧ c ≠ '\\')
    let (ps, rest) ← pieces cs
    pure (.char c :: ps, rest)

/-- Joins pieces to a text. A pair of surrogate units is one character, and half of one none. -/
def join : List Piece → Option (List Char)
  | [] => some []
  | .char c :: ps => (join ps).map (c :: ·)
  | .unit n :: ps =>
    if 0xD800 ≤ n ∧ n ≤ 0xDBFF then
      match ps with
      | .unit l :: ps =>
        if 0xDC00 ≤ l ∧ l ≤ 0xDFFF then
          (join ps).map (Char.ofNat (0x10000 + (n - 0xD800) * 0x400 + (l - 0xDC00)) :: ·)
        else none
      | _ => none
    else if 0xDC00 ≤ n ∧ n ≤ 0xDFFF then none
    else (join ps).map (Char.ofNat n :: ·)

def quoted (cs : List Char) : Option (Option String × List Char) :=
  (pieces cs).map fun (ps, rest) => ((join ps).map String.ofList, rest)

/-! ## Numbers -/

/-- Digits, at least one. -/
def digits1 (cs : List Char) : Option (List Char × List Char) :=
  let (digits, rest) := cs.span Char.isDigit
  if digits.isEmpty then none else some (digits, rest)

/-- The digits before the point: a zero alone, or digits that do not start with one. -/
def wholePart : List Char → Option (List Char × List Char)
  | '0' :: cs => some (['0'], cs)
  | cs => digits1 cs

def fractionPart : List Char → Option (List Char × List Char)
  | '.' :: cs => digits1 cs
  | cs => some ([], cs)

def exponentPart : List Char → Option (Option Int × List Char)
  | [] => some (none, [])
  | c :: cs =>
    if c = 'e' ∨ c = 'E' then
      match cs with
      | '-' :: cs => (digits1 cs).map fun (ds, rest) => (some (-(Number.wholeFrom 0 ds : Int)), rest)
      | '+' :: cs => (digits1 cs).map fun (ds, rest) => (some (Number.wholeFrom 0 ds : Int), rest)
      | cs => (digits1 cs).map fun (ds, rest) => (some (Number.wholeFrom 0 ds : Int), rest)
    else some (none, c :: cs)

/-- A numeral, after its sign. -/
def unsigned (negative : Bool) (cs : List Char) : Option (Number.Numeral × List Char) := do
  let (whole, cs) ← wholePart cs
  let (fraction, cs) ← fractionPart cs
  let (exponent, cs) ← exponentPart cs
  pure (⟨negative, whole, fraction, exponent⟩, cs)

def numeral : List Char → Option (Number.Numeral × List Char)
  | '-' :: cs => unsigned true cs
  | cs => unsigned false cs

/-! ## Values -/

mutual

def value : Nat → List Char → Option (Json × List Char)
  | 0, _ => none
  | fuel + 1, cs =>
    match skipSpace cs with
    | '{' :: cs =>
      match skipSpace cs with
      | '}' :: cs => some (.object [], cs)
      | cs => (members fuel cs).map fun (ms, rest) => (.object ms, rest)
    | '[' :: cs =>
      match skipSpace cs with
      | ']' :: cs => some (.array [], cs)
      | cs => (items fuel cs).map fun (js, rest) => (.array js, rest)
    | '"' :: cs => (quoted cs).map fun (s, rest) => (.string s, rest)
    | 't' :: 'r' :: 'u' :: 'e' :: cs => some (.bool true, cs)
    | 'f' :: 'a' :: 'l' :: 's' :: 'e' :: cs => some (.bool false, cs)
    | 'n' :: 'u' :: 'l' :: 'l' :: cs => some (.null, cs)
    | cs => (numeral cs).map fun (n, rest) => (.number n, rest)

/-- The items of an array, at least one, up to its end. -/
def items : Nat → List Char → Option (List Json × List Char)
  | 0, _ => none
  | fuel + 1, cs =>
    match value fuel cs with
    | none => none
    | some (j, cs) =>
      match skipSpace cs with
      | ',' :: cs => (items fuel cs).map fun (js, rest) => (j :: js, rest)
      | ']' :: cs => some ([j], cs)
      | _ => none

/-- The members of an object, at least one, up to its end. -/
def members : Nat → List Char → Option (List (Option String × Json) × List Char)
  | 0, _ => none
  | fuel + 1, cs =>
    match skipSpace cs with
    | '"' :: cs =>
      match quoted cs with
      | none => none
      | some (name, cs) =>
        match skipSpace cs with
        | ':' :: cs =>
          match value fuel cs with
          | none => none
          | some (j, cs) =>
            match skipSpace cs with
            | ',' :: cs => (members fuel cs).map fun (ms, rest) => ((name, j) :: ms, rest)
            | '}' :: cs => some ([(name, j)], cs)
            | _ => none
        | _ => none
    | _ => none

end

def parse? (source : String) : Option Json :=
  let cs := source.toList
  match value (2 * cs.length + 2) cs with
  | some (j, rest) => if (skipSpace rest).isEmpty then some j else none
  | none => none

end Storyworld.Json
