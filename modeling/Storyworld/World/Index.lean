import Storyworld.World.Store

/-! A world beside an index of its ids. The index says where the entity of an id stands: in the list
of its kind, at a position. The calls of the store as they go by the index; none of them searches a
list, and a position that is out of range stops a call for good. -/

namespace Storyworld

structure Slot where
  kind : Kind
  position : Nat
  deriving DecidableEq

abbrev Index := Keyed Slot

namespace World

def slotsOf (kind : Kind) (ids : List String) : List (String × Slot) :=
  ids.zipIdx.map fun x => (x.1, ⟨kind, x.2⟩)

/-- All ids with their slots, in search order. -/
def slots (w : World) : List (String × Slot) :=
  slotsOf .location (w.locations.map (·.id)) ++ slotsOf .item (w.items.map (·.id)) ++
    slotsOf .character (w.characters.map (·.id)) ++ slotsOf .ending (w.endings.map (·.id)) ++
    slotsOf .variable (w.vars.map (·.id))

/-- The entity at a slot, unless the slot is out of range. -/
def at? (w : World) (s : Slot) : Option Entity :=
  match s.kind with
  | .location => w.locations[s.position]?.map .location
  | .item => w.items[s.position]?.map .item
  | .character => w.characters[s.position]?.map .character
  | .ending => w.endings[s.position]?.map .ending
  | .variable => w.vars[s.position]?.map .variable

def putAt (w : World) (n : Nat) : Entity → World
  | .location l => { w with locations := w.locations.set n l }
  | .item i => { w with items := w.items.set n i }
  | .character c => { w with characters := w.characters.set n c }
  | .ending e => { w with endings := w.endings.set n e }
  | .variable v => { w with vars := w.vars.set n v }

end World

structure Indexed where
  world : World
  index : Index

namespace Indexed

/-- A world with an index that is made from all its lists; of two slots for an id the later one
stays. -/
def ofWorld (w : World) : Indexed :=
  ⟨w, Keyed.ofList w.slots⟩

def entity? (x : Indexed) (id : String) : Option Entity :=
  (x.index.lookup id).bind x.world.at?

/-- What a placement is set to; the index alone tells the kind of what it names. -/
def placement (x : Indexed) (holder : String) (v : Value) (expected : Target) :
    Except WorldError (Option String) :=
  let target := v.shown
  if target = "" then .ok none
  else
    match x.index.lookup target with
    | some slot =>
      if expected.admits slot.kind then .ok (some target)
      else .error (.unknownReference holder target expected)
    | none => .error (.unknownReference holder target expected)

def writeField (x : Indexed) (source : String) (v : Value) (key : String) (e : Entity) :
    Except WorldError Entity :=
  match e with
  | .item i =>
    if key = "owner" then do
      let owner ← x.placement i.id v .locationOrCharacter
      pure (.item { i with owner := owner })
    else x.world.writeField source v key e
  | .character c =>
    if key = "location" then do
      let location ← x.placement c.id v .location
      if location.isNone ∧ c.id = playerId then
        .error (.unknownReference playerId "" .location)
      else pure (.character { c with location := location })
    else x.world.writeField source v key e
  | _ => x.world.writeField source v key e

end Indexed

/-- A call that goes by the index. Without a result, a slot was out of range. -/
abbrev Access := ExceptT WorldError (StateT Indexed Option)

namespace Access

variable {α : Type}

def find (id : String) : Access (Option (Slot × Entity)) := fun x =>
  match x.index.lookup id with
  | none => some (.ok none, x)
  | some slot => (x.world.at? slot).map fun e => (.ok (some (slot, e)), x)

def put (slot : Slot) (e : Entity) : Access Unit :=
  modify fun x => { x with world := x.world.putAt slot.position e }

def create (id : String) (v : Value) : Access Unit :=
  modify fun x => {
    world := x.world.addVariable id v
    index := x.index.put id ⟨.variable, x.world.vars.length⟩ }

def inAttributes (slot : Slot) (e : Entity) (source : String) (change : Attributes.Change α) :
    Access α := do
  let (result, as) := change e.attributes
  put slot (e.withAttributes as)
  result.mapError (AccessFault.error source)

def set (source : String) (v : Value) : Access Unit := do
  let p ← World.path source
  match p.keys, ← find p.root with
  | [], some (slot, .variable y) => put slot (.variable { y with value := v })
  | [], some _ => throw (.notScalar source)
  | [], none => create p.root v
  | _ :: _, none => throw (.unknownEntity p.root)
  | key :: rest, some (slot, e) =>
    match e.field? key, rest with
    | some _, [] => do
      let e ← (← get).writeField source v key e
      put slot e
    | some _, _ :: _ => throw (.notContainer source)
    | none, _ => inAttributes slot e source (.atEnd (.put v) key rest)

def getOrSet (source : String) (default : Value) : Access Value := do
  let p ← World.path source
  match p.keys, ← find p.root with
  | [], some (_, .variable y) => pure y.value
  | [], some _ => throw (.notScalar source)
  | [], none => do
    create p.root default
    pure default
  | _ :: _, none => pure default
  | key :: rest, some (slot, e) =>
    match e.field? key, rest with
    | some v, [] => pure v
    | some _, _ :: _ => throw (.notContainer source)
    | none, _ => inAttributes slot e source (.atEnd (.getOrPut default) key rest)

def movePlayer (location : String) : Access Unit :=
  set (playerId ++ ":location") (.text location)

end Access

end Storyworld
