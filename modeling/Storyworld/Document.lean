import Storyworld.Entity

/-! A world as its author wrote it: flags may be texts or numbers, owners and locations may be
missing or empty. Reading the flags happens once, when a world is loaded. -/

namespace Storyworld

structure Metadata where
  title : String
  author : Option String
  version : Option String
  description : Option String
  language : Option String
  deriving DecidableEq

structure ItemDraft where
  id : String
  name : String
  owner : Option String
  visible : Option Value
  movable : Option Value
  descriptions : List Description
  onTake : List Rule
  onDrop : List Rule
  onUse : List Rule
  onSee : List Rule
  attributes : Attributes

structure CharacterDraft where
  id : String
  name : String
  location : Option String
  visible : Option Value
  descriptions : List Description
  onTalk : List DialogueEntry
  attributes : Attributes

/-- A whole authored world; the intro is a list of pages. -/
structure Document where
  metadata : Metadata
  intro : List String
  locations : List Location
  items : List ItemDraft
  characters : List CharacterDraft
  endings : List Ending
  vars : List Variable

/-- The ids of all entities in search order, repeated ones included. -/
def Document.ids (d : Document) : List String :=
  d.locations.map (·.id) ++ d.items.map (·.id) ++ d.characters.map (·.id) ++
    d.endings.map (·.id) ++ d.vars.map (·.id)

/-- The meaning of a flag: absent is true, and a text is true only if it says so. -/
def flag : Option Value → Bool
  | none => true
  | some (.bool b) => b
  | some (.text s) => Text.trimmed s == "true"
  | some v => v.isTruthy

/-- The meaning of a variable's value: the texts of the booleans are booleans. -/
def variableValue : Value → Value
  | .text s => if s = "true" then .bool true else if s = "false" then .bool false else .text s
  | v => v

/-- A reference that is absent where it is empty. -/
def placed (reference : Option String) : Option String :=
  reference.filter (· ≠ "")

def ItemDraft.item (d : ItemDraft) : Item where
  id := d.id
  name := d.name
  owner := placed d.owner
  visible := flag d.visible
  movable := flag d.movable
  descriptions := d.descriptions
  onTake := d.onTake
  onDrop := d.onDrop
  onUse := d.onUse
  onSee := d.onSee
  attributes := d.attributes

def Item.draft (i : Item) : ItemDraft where
  id := i.id
  name := i.name
  owner := i.owner
  visible := some (.bool i.visible)
  movable := some (.bool i.movable)
  descriptions := i.descriptions
  onTake := i.onTake
  onDrop := i.onDrop
  onUse := i.onUse
  onSee := i.onSee
  attributes := i.attributes

def CharacterDraft.character (d : CharacterDraft) : Character where
  id := d.id
  name := d.name
  location := placed d.location
  visible := flag d.visible
  descriptions := d.descriptions
  onTalk := d.onTalk
  attributes := d.attributes

def Character.draft (c : Character) : CharacterDraft where
  id := c.id
  name := c.name
  location := c.location
  visible := some (.bool c.visible)
  descriptions := c.descriptions
  onTalk := c.onTalk
  attributes := c.attributes

def Variable.loaded (v : Variable) : Variable :=
  { v with value := variableValue v.value }

end Storyworld
