import Storyworld.Keyed
import Storyworld.Value

/-! The attribute tree of an entity. A tree is changed where it stands: on the way to what is written,
a container comes into being wherever there is none. -/

namespace Storyworld

/-- A scalar, or a container of attributes by key. -/
inductive Attribute where
  | value (v : Value)
  | map (entries : Entries Attribute none)

abbrev Attributes := Keyed Attribute

/-- Why a path does not lead to a scalar. -/
inductive AccessFault where
  | absent
  | belowScalar
  | container
  deriving DecidableEq

/-- A computation that may change a container and may fail. What it changed before it failed stays. -/
abbrev Attributes.Change := ExceptT AccessFault (StateM Attributes)

namespace Attributes.Change

variable {α : Type}

/-- Carries out a change in the container under a key. Where there is nothing, a container comes into
being first; nothing may lie below a scalar. -/
def below (key : String) (change : Change α) : Change α := fun entries =>
  match entries.lookup key with
  | none =>
    let (result, inner) := change .nil
    (result, entries.put key (.map inner))
  | some (.map inner) =>
    let (result, inner) := change inner
    (result, entries.replace key (.map inner))
  | some (.value _) => (.error .belowScalar, entries)

/-- Goes down a path of keys and carries out a change at the last of them. -/
def atEnd (change : String → Change α) : String → List String → Change α
  | key, [] => change key
  | key, next :: rest => below key (atEnd change next rest)

def put (v : Value) (key : String) : Change Unit := fun entries =>
  (.ok (), entries.put key (.value v))

/-- The scalar under a key, where a default is put first if nothing is there. -/
def getOrPut (default : Value) (key : String) : Change Value := fun entries =>
  match entries.lookup key with
  | none => (.ok default, entries.put key (.value default))
  | some (.value v) => (.ok v, entries)
  | some (.map _) => (.error .container, entries)

end Attributes.Change

namespace Attribute

def read : List String → Attribute → Except AccessFault Value
  | [], .value v => .ok v
  | [], .map _ => .error .container
  | _ :: _, .value _ => .error .belowScalar
  | key :: rest, .map entries =>
    match entries.lookup key with
    | none => .error .absent
    | some node => node.read rest

mutual

def same : Attribute → Attribute → Bool
  | .value v, .value w => v.same w
  | .map a, .map b => sameEntries a b
  | _, _ => false

def sameEntries {bound bound' : Option String} :
    Entries Attribute bound → Entries Attribute bound' → Bool
  | .nil, .nil => true
  | .cons k a _ as, .cons l b _ bs => k == l && same a b && sameEntries as bs
  | _, _ => false

end

instance : BEq Attribute := ⟨same⟩

mutual

def toJson : Attribute → Json
  | .value v => v.toJson
  | .map entries => .object (entriesToJson entries)

def entriesToJson {bound : Option String} :
    Entries Attribute bound → List (Option String × Json)
  | .nil => []
  | .cons key node _ rest => (some key, node.toJson) :: entriesToJson rest

end

def decode : Json.Decoder Attribute
  | depth + 1, .object members =>
    (members.mapM fun (m : Option String × Json) => do
      pure (← m.1, ← decode depth m.2)).map fun entries => .map (Keyed.ofList entries)
  | depth, j => (Value.decode depth j).map .value

end Attribute

namespace Attributes

def decode : Json.Decoder Attributes := fun depth j =>
  match j with
  | .object _ =>
    match Attribute.decode depth j with
    | some (.map entries) => some entries
    | _ => none
  | _ => none

/-- A member for the root container, written only if it is not empty. -/
def toJson (name : String) : Attributes → List (String × Json)
  | .nil => []
  | entries => [(name, (Attribute.map entries).toJson)]

end Attributes

end Storyworld
