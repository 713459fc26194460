import Storyworld.Document.Codec
import Storyworld.World
import Storyworld.World.Error

/-! From a document to a world. All ids are checked first, in search order, then the player, then
every reference; a document that passes is read once for the meaning of its flags. -/

namespace Storyworld

namespace Document

def hasLocation (d : Document) (id : String) : Bool :=
  d.locations.any (·.id == id)

def hasCharacter (d : Document) (id : String) : Bool :=
  d.characters.any (·.id == id)

/-- The first fault among ids, of which `seen` came before. -/
def checkIds (seen : List String) : List String → Except WorldError Unit
  | [] => .ok ()
  | id :: rest =>
    if Text.isBlankText id then .error .blankId
    else if ':' ∈ id.toList then .error (.colonInId id)
    else if id ∈ seen then .error (.duplicateId id)
    else checkIds (id :: seen) rest

def checkPlayer (d : Document) : Except WorldError Unit :=
  match d.characters.find? (·.id == playerId) with
  | none => .error .missingPlayer
  | some player =>
    match player.location with
    | none => .error (.unknownReference playerId "" .location)
    | some place =>
      if d.hasLocation place then .ok () else .error (.unknownReference playerId place .location)

def checkConnections (d : Document) : Except WorldError Unit :=
  d.locations.forM fun l => l.connections.forM fun c =>
    if d.hasLocation c.target then .ok ()
    else .error (.unknownReference l.id c.target .location)

def checkCharacters (d : Document) : Except WorldError Unit :=
  d.characters.forM fun c =>
    match placed c.location with
    | none => .ok ()
    | some place =>
      if d.hasLocation place then .ok () else .error (.unknownReference c.id place .location)

/-- Items have to be at locations or with characters, or nowhere. -/
def checkItems (d : Document) : Except WorldError Unit :=
  d.items.forM fun i =>
    match placed i.owner with
    | none => .ok ()
    | some owner =>
      if d.hasLocation owner || d.hasCharacter owner then .ok ()
      else .error (.unknownReference i.id owner .locationOrCharacter)

def check (d : Document) : Except WorldError Unit := do
  checkIds [] d.ids
  d.checkPlayer
  d.checkConnections
  d.checkCharacters
  d.checkItems

/-- The world that a document describes, faults aside. -/
def world (d : Document) : World where
  metadata := d.metadata
  intro := d.intro
  locations := d.locations
  items := d.items.map ItemDraft.item
  characters := d.characters.map CharacterDraft.character
  endings := d.endings
  vars := d.vars.map Variable.loaded

end Document

namespace World

def load (d : Document) : Except WorldError World := do
  d.check
  pure d.world

def ofText (source : String) : Except WorldError World :=
  match Document.ofText? source with
  | none => .error .malformed
  | some d => load d

end World

end Storyworld
