import Storyworld.Json.Decoder
import Storyworld.Story.Markup

/-! What a story tells: fragments that are appended to the telling so far, or that replace one of the
named sections beside it. -/

namespace Storyworld.Story

/-- A part of the page that is replaced as a whole. -/
inductive Section where
  | title
  | location
  | characters
  | items
  | take
  | drop
  | use
  | go
  deriving DecidableEq

namespace Section

def all : List Section :=
  [title, location, characters, items, take, drop, use, go]

/-- The sections that say what the player can do next. -/
def affordances : List Section :=
  [location, characters, items, take, drop, use, go]

def id : Section → String
  | title => "game-title"
  | location => "game-location"
  | characters => "game-characters"
  | items => "game-items"
  | take => "game-take"
  | drop => "game-drop"
  | use => "game-use"
  | go => "game-go"

def ofId? (s : String) : Option Section :=
  all.find? (·.id == s)

/-- Reads a section: its id, or an object of which that is the only name. -/
def decode : Json.Decoder Section
  | _, .string (some s) => ofId? s
  | _ + 1, .object [(some s, .null)] => ofId? s
  | _, _ => none

end Section

/-- A fragment, and the section it replaces if it is not appended. -/
structure Output where
  text : String
  place : Option Section
  deriving DecidableEq

namespace Output

def append (html : String) : Output :=
  ⟨html, none⟩

def replace (place : Section) (html : String) : Output :=
  ⟨html, some place⟩

def message (s : String) : Output :=
  append (paragraph (escape s))

def decode : Json.Decoder Output := fun depth j => do
  let fields ← Json.fields? ["text", "section"] depth j
  pure {
    text := ← fields.required "text" .text
    place := ← fields.optional "section" Section.decode }

end Output

end Storyworld.Story
