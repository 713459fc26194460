import Storyworld.Document

/-! The state of a story: all entities in the order of their document, with variables that came into
being later at the end. Ids name entities across all kinds. -/

namespace Storyworld

structure World where
  metadata : Metadata
  intro : List String
  locations : List Location
  items : List Item
  characters : List Character
  endings : List Ending
  vars : List Variable
  deriving BEq

namespace World

def entities (w : World) : List Entity :=
  w.locations.map .location ++ w.items.map .item ++ w.characters.map .character ++
    w.endings.map .ending ++ w.vars.map .variable

def location? (w : World) (id : String) : Option Location :=
  w.locations.find? (·.id == id)

def item? (w : World) (id : String) : Option Item :=
  w.items.find? (·.id == id)

def character? (w : World) (id : String) : Option Character :=
  w.characters.find? (·.id == id)

def ending? (w : World) (id : String) : Option Ending :=
  w.endings.find? (·.id == id)

def variableNamed? (w : World) (id : String) : Option Variable :=
  w.vars.find? (·.id == id)

def find? (w : World) (id : String) : Option Entity :=
  (w.location? id).map .location <|> (w.item? id).map .item <|>
    (w.character? id).map .character <|> (w.ending? id).map .ending <|>
    (w.variableNamed? id).map .variable

theorem find?_eq_entities (w : World) (id : String) :
    w.find? id = w.entities.find? (·.id == id) := by
  simp only [find?, entities, location?, item?, character?, ending?, variableNamed?,
    List.find?_append, List.find?_map, Option.orElse_eq_orElse, Option.orElse_eq_or,
    Option.or_assoc]
  rfl

/-- Puts an entity in the place of the one that has its id. -/
def replace (w : World) : Entity → World
  | .location l => { w with locations := w.locations.map fun x => if x.id = l.id then l else x }
  | .item i => { w with items := w.items.map fun x => if x.id = i.id then i else x }
  | .character c =>
    { w with characters := w.characters.map fun x => if x.id = c.id then c else x }
  | .ending e => { w with endings := w.endings.map fun x => if x.id = e.id then e else x }
  | .variable v => { w with vars := w.vars.map fun x => if x.id = v.id then v else x }

def addVariable (w : World) (id : String) (v : Value) : World :=
  { w with vars := w.vars ++ [⟨id, v, .nil⟩] }

def player? (w : World) : Option Character :=
  w.character? playerId

def playerLocation? (w : World) : Option Location :=
  w.player?.bind fun p => p.location.bind w.location?

def itemsAt (w : World) (owner : String) : List Item :=
  w.items.filter (·.isAt owner)

/-- The characters at a location, the player left out. -/
def charactersAt (w : World) (location : String) : List Character :=
  w.characters.filter fun c => c.id != playerId && c.location == some location

def snapshot (w : World) : Document where
  metadata := w.metadata
  intro := w.intro
  locations := w.locations
  items := w.items.map Item.draft
  characters := w.characters.map Character.draft
  endings := w.endings
  vars := w.vars

end World

end Storyworld
