import Storyworld.Json.Basic

/-! Writes a tree as JSON text: on one line without any space, or with each item and member on a line
of its own, two spaces deeper than what holds it. Only what must be escaped is. -/

namespace Storyworld.Json

def hexDigit (n : Nat) : Char :=
  if n < 10 then Char.ofNat ('0'.toNat + n) else Char.ofNat ('a'.toNat + (n - 10))

def escapedChar (c : Char) : List Char :=
  if c = '"' then ['\\', '"']
  else if c = '\\' then ['\\', '\\']
  else if c = '\x08' then ['\\', 'b']
  else if c = '\x0c' then ['\\', 'f']
  else if c = '\n' then ['\\', 'n']
  else if c = '\r' then ['\\', 'r']
  else if c = '\t' then ['\\', 't']
  else if c.toNat < 0x20 then
    ['\\', 'u', '0', '0', hexDigit (c.toNat / 16), hexDigit (c.toNat % 16)]
  else [c]

def quote (s : String) : List Char :=
  '"' :: s.toList.flatMap escapedChar ++ ['"']

/-- How the parts of a container are set apart. -/
inductive Style where
  | compact
  | indented
  deriving DecidableEq

/-- The break before a part that lies `depth` containers deep. -/
def Style.break (style : Style) (depth : Nat) : List Char :=
  match style with
  | .compact => []
  | .indented => '\n' :: List.replicate (2 * depth) ' '

def Style.colon : Style → List Char
  | .compact => [':']
  | .indented => [':', ' ']

mutual

/-- A value that lies `depth` containers deep. -/
def write (style : Style) (depth : Nat) : Json → List Char
  | .null => "null".toList
  | .bool true => "true".toList
  | .bool false => "false".toList
  | .number n => n.text
  | .string text => quote (text.getD "")
  | .array [] => ['[', ']']
  | .array (j :: js) => '[' :: writeItems style (depth + 1) (j :: js) ++ style.break depth ++ [']']
  | .object [] => ['\x7b', '\x7d']
  | .object (m :: ms) =>
    '\x7b' :: writeMembers style (depth + 1) (m :: ms) ++ style.break depth ++ ['\x7d']

/-- Items, each after a break and all but the last before a comma. -/
def writeItems (style : Style) (depth : Nat) : List Json → List Char
  | [] => []
  | [j] => style.break depth ++ write style depth j
  | j :: js => style.break depth ++ write style depth j ++ ',' :: writeItems style depth js

def writeMembers (style : Style) (depth : Nat) : List (Option String × Json) → List Char
  | [] => []
  | [(name, j)] =>
    style.break depth ++ quote (name.getD "") ++ style.colon ++ write style depth j
  | (name, j) :: ms =>
    style.break depth ++ quote (name.getD "") ++ style.colon ++ write style depth j ++
      ',' :: writeMembers style depth ms

end

def compact (j : Json) : String :=
  String.ofList (j.write .compact 0)

def pretty (j : Json) : String :=
  String.ofList (j.write .indented 0)

end Storyworld.Json
