import Storyworld.Json.Decoder
import Storyworld.Json.Reader
import Storyworld.Json.Writer
import Storyworld.Text.Blank
import Storyworld.Text.Lowercase

/-! What a player does: a verb with a text or, for an answer in a dialogue, with the ids of what was
picked. An action is typed as a line, or stored in a document. -/

namespace Storyworld.Story

open Json

inductive Verb where
  | start
  | look
  | go
  | see
  | take
  | drop
  | use
  | talk
  | choose
  | inventory
  | unknown (typed : String)
  deriving DecidableEq

namespace Verb

/-- The words for the known verbs, in lower case. -/
def words : List (String × Verb) :=
  [("start", start), ("look", look), ("l", look), ("go", go), ("walk", go), ("move", go),
    ("see", see), ("examine", see), ("x", see), ("take", take), ("get", take), ("pick", take),
    ("drop", drop), ("put", drop), ("use", use), ("talk", talk), ("speak", talk),
    ("dialog-choice", choose), ("choose", choose), ("inventory", inventory), ("inv", inventory),
    ("i", inventory)]

def ofWord (s : String) : Verb :=
  let s := Text.trimmed s
  (words.lookup (Text.lowercase s)).getD (unknown s)

def word : Verb → String
  | start => "start"
  | look => "look"
  | go => "go"
  | see => "see"
  | take => "take"
  | drop => "drop"
  | use => "use"
  | talk => "talk"
  | choose => "dialog-choice"
  | inventory => "inventory"
  | unknown typed => typed

end Verb

/-- An answer that was picked; without an entry, it belongs to the one that waits for an answer. -/
structure Choice where
  character : String
  entry : Option String
  response : String
  deriving DecidableEq

def Choice.toJson (c : Choice) : Json :=
  record ([("characterId", whole c.character)] ++ optional "entryId" whole c.entry ++
    [("choiceId", whole c.response)])

def Choice.decode : Decoder Choice := fun depth j => do
  let fields ← fields? ["characterId", "entryId", "choiceId"] depth j
  pure {
    character := ← fields.required "characterId" .text
    entry := ← fields.optional "entryId" .text
    response := ← fields.required "choiceId" .text }

def Choice.ofText? (source : String) : Option Choice :=
  (parse? source).bind (decode nestingLimit)

inductive Param where
  | text (s : String)
  | choice (c : Choice)
  deriving DecidableEq

/-- The text of a parameter; a choice has none. -/
def Param.words : Param → String
  | text s => s
  | choice _ => ""

def Param.toJson : Param → Json
  | text s => whole s
  | choice c => c.toJson

/-- Reads a parameter, all of which has to be sound, fields that are not known included. -/
def Param.decode : Decoder Param := fun depth j =>
  if isWhole depth j then
    match j with
    | .string (some s) => some (.text s)
    | j => (Choice.decode depth j).map .choice
  else none

structure Action where
  verb : Verb
  param : Param
  deriving DecidableEq

namespace Action

/-- Reads a typed line: a verb, and what follows the first blank. To look at something is to see
it. -/
def ofLine (line : String) : Action :=
  let cs := Text.trim line.toList
  let (word, rest) := (Text.splitAtBlank? cs).getD (cs, [])
  let rest := Text.trim rest
  match Verb.ofWord (String.ofList word) with
  | .look =>
    if rest.isEmpty then ⟨.look, .text ""⟩
    else
      let object := if "at ".toList.isPrefixOf rest then Text.trim (rest.drop 3) else rest
      ⟨.see, .text (String.ofList object)⟩
  | verb => ⟨verb, .text (String.ofList rest)⟩

def toJson (a : Action) : Json :=
  record [("verb", whole a.verb.word), ("param", a.param.toJson)]

def decode : Decoder Action := fun depth j => do
  let fields ← fields? ["verb", "param"] depth j
  pure {
    verb := Verb.ofWord (← fields.required "verb" .text)
    param := ← fields.withDefault "param" (.text "") Param.decode }

def ofText? (source : String) : Option Action :=
  (parse? source).bind (decode nestingLimit)

end Action

end Storyworld.Story
