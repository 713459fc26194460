import Storyworld.Path
import Storyworld.World
import Storyworld.World.Error

/-! A world as a store of scalars addressed by paths. A path of one segment is a variable. A longer
one names an entity and below it a field of its kind or a node of its attribute tree; a field hides
an attribute of the same key. Reading is strict; reading with a default and writing create what is
missing, short of entities other than variables, and change the world where it stands. -/

namespace Storyworld

def Target.admits : Target → Kind → Bool
  | _, .location => true
  | .locationOrCharacter, .character => true
  | _, _ => false

/-- The error of an access below an entity, for the path as written. -/
def AccessFault.error (path : String) : AccessFault → WorldError
  | .absent => .unknownPath path
  | .belowScalar => .notContainer path
  | .container => .notScalar path

namespace World

def path (source : String) : Except WorldError Path :=
  match Path.ofText? source with
  | some p => .ok p
  | none => .error (.invalidPath source)

def readBelow (e : Entity) (source key : String) (rest : List String) : Except WorldError Value :=
  match e.field? key with
  | some v => if rest.isEmpty then .ok v else .error (.notContainer source)
  | none => ((Attribute.map e.attributes).read (key :: rest)).mapError (AccessFault.error source)

def lookup (w : World) (source : String) : Except WorldError Value := do
  let p ← path source
  match p.keys with
  | [] =>
    match w.variableNamed? p.root with
    | some v => .ok v.value
    | none => .error (.unknownPath source)
  | key :: rest =>
    match w.find? p.root with
    | some e => readBelow e source key rest
    | none => .error (.unknownPath source)

/-- What a placement is set to: nothing for an empty text, else the id of an entity that may be
referred to. -/
def placement (w : World) (holder : String) (v : Value) (expected : Target) :
    Except WorldError (Option String) :=
  let target := v.shown
  if target = "" then .ok none
  else
    match w.find? target with
    | some e =>
      if expected.admits e.kind then .ok (some target)
      else .error (.unknownReference holder target expected)
    | none => .error (.unknownReference holder target expected)

/-- The entity with a value written to one of its fields. The player cannot be nowhere. -/
def writeField (w : World) (source : String) (v : Value) (key : String) :
    Entity → Except WorldError Entity
  | .location l =>
    if key = "name" then .ok (.location { l with name := v.shown }) else .error (.readOnly source)
  | .item i =>
    if key = "name" then .ok (.item { i with name := v.shown })
    else if key = "visible" then .ok (.item { i with visible := flag (some v) })
    else if key = "movable" then .ok (.item { i with movable := flag (some v) })
    else if key = "owner" then do
      let owner ← w.placement i.id v .locationOrCharacter
      pure (.item { i with owner := owner })
    else .error (.readOnly source)
  | .character c =>
    if key = "name" then .ok (.character { c with name := v.shown })
    else if key = "visible" then .ok (.character { c with visible := flag (some v) })
    else if key = "location" then do
      let location ← w.placement c.id v .location
      if location.isNone ∧ c.id = playerId then
        .error (.unknownReference playerId "" .location)
      else pure (.character { c with location := location })
    else .error (.readOnly source)
  | .ending _ => .error (.readOnly source)
  | .variable x =>
    if key = "value" then .ok (.variable { x with value := v }) else .error (.readOnly source)

end World

/-- A computation that may change a world and may fail. What it changed before it failed stays. -/
abbrev Store := ExceptT WorldError (StateM World)

namespace Store

variable {α : Type}

def inAttributes (e : Entity) (source : String) (change : Attributes.Change α) : Store α := fun w =>
  let (result, as) := change e.attributes
  (result.mapError (AccessFault.error source), w.replace (e.withAttributes as))

def set (source : String) (v : Value) : Store Unit := do
  let p ← World.path source
  let w ← get
  match p.keys, w.find? p.root with
  | [], some (.variable x) => modify (·.replace (.variable { x with value := v }))
  | [], some _ => throw (.notScalar source)
  | [], none => modify (·.addVariable p.root v)
  | _ :: _, none => throw (.unknownEntity p.root)
  | key :: rest, some e =>
    match e.field? key, rest with
    | some _, [] => do
      let e ← w.writeField source v key e
      modify (·.replace e)
    | some _, _ :: _ => throw (.notContainer source)
    | none, _ => inAttributes e source (.atEnd (.put v) key rest)

/-- Reads the scalar at a path, and writes the default there first if nothing is there. The default
alone is read below an entity that does not exist. -/
def getOrSet (source : String) (default : Value) : Store Value := do
  let p ← World.path source
  let w ← get
  match p.keys, w.find? p.root with
  | [], some (.variable x) => pure x.value
  | [], some _ => throw (.notScalar source)
  | [], none => do
    modify (·.addVariable p.root default)
    pure default
  | _ :: _, none => pure default
  | key :: rest, some e =>
    match e.field? key, rest with
    | some v, [] => pure v
    | some _, _ :: _ => throw (.notContainer source)
    | none, _ => inAttributes e source (.atEnd (.getOrPut default) key rest)

def movePlayer (location : String) : Store Unit :=
  set (playerId ++ ":location") (.text location)

/-- What a computation comes to, and the world that it leaves, if it succeeds. -/
def outcome (t : Store α) (w : World) : Except WorldError (α × World) :=
  match t w with
  | (.ok a, w') => .ok (a, w')
  | (.error fault, _) => .error fault

end Store

namespace World

def set (w : World) (source : String) (v : Value) : Except WorldError World :=
  ((Store.set source v).outcome w).map Prod.snd

def getOrSet (w : World) (source : String) (default : Value) : Except WorldError (Value × World) :=
  (Store.getOrSet source default).outcome w

def movePlayer (w : World) (location : String) : Except WorldError World :=
  ((Store.movePlayer location).outcome w).map Prod.snd

end World

end Storyworld
