import Storyworld.Story.Action
import Storyworld.Story.Output
import Storyworld.Text.Blank

/-! Outputs as plain text for a terminal. Tags are taken out of the fragments, and each link that
performs an action is numbered, so that the player can type its number. -/

namespace Storyworld.Terminal

open Story

/-- A link of the last outputs: a word for an action and its parameter, both as plain text. -/
structure Link where
  action : String
  param : String
  deriving DecidableEq

def Link.perform (l : Link) : Action :=
  ⟨Verb.ofWord l.action, .text l.param⟩

/-- A part of a fragment: text, or what stands between the brackets of a tag. -/
inductive Piece where
  | text (cs : List Char)
  | tag (cs : List Char)
  deriving DecidableEq

/-- What stands before the first character of a kind, and what follows that character. -/
def divideAt? (sep : Char) : List Char → Option (List Char × List Char)
  | [] => none
  | c :: cs =>
    if c = sep then some ([], cs)
    else (divideAt? sep cs).map fun (left, right) => (c :: left, right)

/-- The pieces of a fragment; `fuel` bounds the number of its tags. Where a bracket is never closed,
the text before it is told once more together with the rest. -/
def pieces : Nat → List Char → List Piece
  | 0, cs => [.text cs]
  | fuel + 1, cs =>
    match divideAt? '<' cs with
    | none => [.text cs]
    | some (before, after) =>
      match divideAt? '>' after with
      | none => [.text before, .text cs]
      | some (tag, rest) => .text before :: .tag tag :: pieces fuel rest

def attribute? (tag : List Char) (name : String) : Option String := do
  let value ← Text.after? (name ++ "=\"").toList tag
  let (quoted, _) ← divideAt? '"' value
  pure (unescape (String.ofList quoted))

def link? (tag : List Char) : Option Link := do
  pure ⟨← attribute? tag "data-action", ← attribute? tag "data-param"⟩

def tagName (tag : List Char) : String :=
  String.ofList ((Text.firstWord tag).map Char.toLower)

def lineBreaks : List String :=
  ["br", "br/", "/p", "/li", "/div", "/h1", "/h2", "/h3"]

/-- The plain text of a piece, after links already numbered, and the links after it. -/
def flattenPiece (links : List Link) : Piece → String × List Link
  | .text cs => (unescape (String.ofList cs), links)
  | .tag cs =>
    if tagName cs = "a" then
      match link? cs with
      | some l => ("[" ++ toString (links.length + 1) ++ "] ", links ++ [l])
      | none => ("", links)
    else if tagName cs ∈ lineBreaks then ("\n", links)
    else ("", links)

def flattenPieces (links : List Link) : List Piece → String × List Link
  | [] => ("", links)
  | p :: rest =>
    let (first, links) := flattenPiece links p
    let (others, links) := flattenPieces links rest
    (first ++ others, links)

def flatten (links : List Link) (html : String) : String × List Link :=
  flattenPieces links (pieces html.length html.toList)

def label : Section → String
  | .title => "Title:"
  | .location => "You are in:"
  | .characters => "People:"
  | .items => "You see:"
  | .take => "Take:"
  | .drop => "Drop:"
  | .use => "Use:"
  | .go => "Exits:"

def firstLine (cs : List Char) : String :=
  String.ofList ((Text.lines cs).head?.getD [])

def onOneLine (cs : List Char) : String :=
  "  ".intercalate
    (((Text.lines cs).map Text.trim).filter (!·.isEmpty) |>.map String.ofList)

/-- An output on the terminal, given its plain text. Of the location only the heading is shown, since
its description was told before. -/
def placedText (place : Option Section) (cs : List Char) : String :=
  if cs.isEmpty then ""
  else
    match place with
    | none => String.ofList cs ++ "\n\n"
    | some .title => "*** " ++ String.ofList cs ++ " ***\n\n"
    | some .location => label .location ++ " " ++ firstLine cs ++ "\n"
    | some s => label s ++ " " ++ onOneLine cs ++ "\n"

def showOutputs (links : List Link) : List Output → String × List Link
  | [] => ("", links)
  | o :: rest =>
    let (text, links) := flatten links o.text
    let (others, links) := showOutputs links rest
    (placedText o.place (Text.trim text.toList) ++ others, links)

def render (outputs : List Output) : String × List Link :=
  let (text, links) := showOutputs [] outputs
  (if outputs.any (·.place.isSome) then text ++ "\n" else text, links)

/-- The link of a number, counted from one. -/
def linkAt? (links : List Link) : Nat → Option Link
  | 0 => none
  | n + 1 => links[n]?

end Storyworld.Terminal
