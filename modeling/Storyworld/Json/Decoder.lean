import Storyworld.Json.Basic

/-! Readers of typed values from JSON trees. A reader is told how many containers it may still enter,
so a document that is nested too deeply is refused. An object may also be written as the array of
its fields in order. Members that a reader does not know are not looked at: they may be nested
without limit, and hold numbers and texts that no value could have. -/

namespace Storyworld.Json

/-- Reads a value, given the number of containers that may still be entered. -/
abbrev Decoder (α : Type) := Nat → Json → Option α

/-- The number of containers that may lie within each other. -/
def nestingLimit : Nat := 127

def Decoder.text : Decoder String
  | _, .string s => s
  | _, _ => none

/-- Reads a value, or nothing where the document says null. -/
def Decoder.nullable (item : Decoder α) : Decoder (Option α)
  | _, .null => some none
  | depth, j => (item depth j).map some

def Decoder.list (item : Decoder α) : Decoder (List α)
  | depth + 1, .array js => js.mapM (item depth)
  | _, _ => none

/-- Members whose names are all whole texts. -/
def named? (members : List (Option String × Json)) : Option (List (String × Json)) :=
  members.mapM fun (name, j) => name.map (·, j)

structure Fields where
  depth : Nat
  found : List (String × Json)

/-- The fields of a record of the given names. A known name that occurs twice is refused, as is an
array with more items than there are names. -/
def fields? (names : List String) : Decoder Fields
  | depth + 1, .array js =>
    if js.length ≤ names.length then some ⟨depth, names.zip js⟩ else none
  | depth + 1, .object members =>
    match named? members with
    | none => none
    | some members =>
      let found := members.filter fun m => names.contains m.1
      if (found.map Prod.fst).Nodup then some ⟨depth, found⟩ else none
  | _, _ => none

def Fields.required (fields : Fields) (name : String) (item : Decoder α) : Option α :=
  (fields.found.lookup name).bind (item fields.depth)

def Fields.withDefault (fields : Fields) (name : String) (default : α) (item : Decoder α) :
    Option α :=
  match fields.found.lookup name with
  | none => some default
  | some j => item fields.depth j

/-- A field that may be absent or null. -/
def Fields.optional (fields : Fields) (name : String) (item : Decoder α) : Option (Option α) :=
  fields.withDefault name none item.nullable

/-- A list that is empty where it is absent. -/
def Fields.list (fields : Fields) (name : String) (item : Decoder α) : Option (List α) :=
  fields.withDefault name [] item.list

/-- Whether every part of a tree is a value: whole texts, numbers that a double can hold, and no
deeper nesting than allowed. -/
def isWhole : Nat → Json → Bool
  | _, .null => true
  | _, .bool _ => true
  | _, .number n => n.toFloat?.isSome
  | _, .string s => s.isSome
  | depth + 1, .array js => js.all (isWhole depth)
  | depth + 1, .object members => members.all fun m => m.1.isSome && isWhole depth m.2
  | 0, _ => false

end Storyworld.Json
