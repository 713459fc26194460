import Storyworld.Attribute

/-! What a world is made of: locations, items, characters, endings and variables, each with an id and
an attribute tree, and the texts and rules their author gave them. -/

namespace Storyworld

def playerId : String := "player"

/-- One entry of a description: a base text, or a text added while a condition holds. -/
structure Description where
  base : Option String
  condition : Option String
  addition : Option String
  deriving DecidableEq

structure Connection where
  direction : String
  target : String
  deriving DecidableEq

/-- What happens on an event: if the condition holds, a narration and assignments. -/
structure Rule where
  condition : Option String
  narration : Option String
  assignments : Option String
  deriving DecidableEq

structure Response where
  id : String
  text : Option String
  condition : Option String
  assignments : Option String
  next : Option String
  deriving DecidableEq

structure DialogueEntry where
  id : Option String
  condition : Option String
  speech : Option String
  assignments : Option String
  responses : List Response
  deriving DecidableEq

structure Location where
  id : String
  name : String
  descriptions : List Description
  connections : List Connection
  attributes : Attributes
  deriving BEq

/-- A thing; its owner is the place or the person where it is. -/
structure Item where
  id : String
  name : String
  owner : Option String
  visible : Bool
  movable : Bool
  descriptions : List Description
  onTake : List Rule
  onDrop : List Rule
  onUse : List Rule
  onSee : List Rule
  attributes : Attributes
  deriving BEq

/-- A person, the player among them. -/
structure Character where
  id : String
  name : String
  location : Option String
  visible : Bool
  descriptions : List Description
  onTalk : List DialogueEntry
  attributes : Attributes
  deriving BEq

structure Ending where
  id : String
  descriptions : List Description
  attributes : Attributes
  deriving BEq

structure Variable where
  id : String
  value : Value
  attributes : Attributes
  deriving BEq

def Item.isHeld (i : Item) : Bool :=
  i.owner == some playerId

/-- Whether the item is at a place or with a person. -/
def Item.isAt (i : Item) (place : String) : Bool :=
  i.owner == some place

def Character.entry? (c : Character) (id : String) : Option DialogueEntry :=
  c.onTalk.find? (·.id == some id)

/-- The kinds of entities, in the order in which they are searched. -/
inductive Kind where
  | location
  | item
  | character
  | ending
  | variable
  deriving DecidableEq

inductive Entity where
  | location (l : Location)
  | item (i : Item)
  | character (c : Character)
  | ending (e : Ending)
  | variable (v : Variable)

namespace Entity

def kind : Entity → Kind
  | .location _ => .location
  | .item _ => .item
  | .character _ => .character
  | .ending _ => .ending
  | .variable _ => .variable

def id : Entity → String
  | .location l => l.id
  | .item i => i.id
  | .character c => c.id
  | .ending e => e.id
  | .variable v => v.id

/-- The name of an entity; endings and variables are called by their id. -/
def name : Entity → String
  | .location l => l.name
  | .item i => i.name
  | .character c => c.name
  | .ending e => e.id
  | .variable v => v.id

def descriptions : Entity → List Description
  | .location l => l.descriptions
  | .item i => i.descriptions
  | .character c => c.descriptions
  | .ending e => e.descriptions
  | .variable _ => []

def attributes : Entity → Attributes
  | .location l => l.attributes
  | .item i => i.attributes
  | .character c => c.attributes
  | .ending e => e.attributes
  | .variable v => v.attributes

def withAttributes (as : Attributes) : Entity → Entity
  | .location l => .location { l with attributes := as }
  | .item i => .item { i with attributes := as }
  | .character c => .character { c with attributes := as }
  | .ending e => .ending { e with attributes := as }
  | .variable v => .variable { v with attributes := as }

/-- The scalars that are part of an entity of its kind, by the key that addresses them. They hide
attributes of the same keys. -/
def fields : Entity → List (String × Value)
  | .location l => [("id", .text l.id), ("name", .text l.name)]
  | .item i =>
    [("id", .text i.id), ("name", .text i.name), ("owner", .text (i.owner.getD "")),
      ("visible", .bool i.visible), ("movable", .bool i.movable)]
  | .character c =>
    [("id", .text c.id), ("name", .text c.name), ("location", .text (c.location.getD "")),
      ("visible", .bool c.visible)]
  | .ending e => [("id", .text e.id)]
  | .variable v => [("id", .text v.id), ("value", v.value)]

def field? (e : Entity) (key : String) : Option Value :=
  e.fields.lookup key

@[simp] theorem id_withAttributes (e : Entity) (as : Attributes) :
    (e.withAttributes as).id = e.id := by
  cases e <;> rfl

@[simp] theorem attributes_withAttributes (e : Entity) (as : Attributes) :
    (e.withAttributes as).attributes = as := by
  cases e <;> rfl

end Entity

end Storyworld
