import Storyworld.Number.Numeral

/-! Documents are stored as JSON. A tree keeps what the text says and no more: members in order and
repeated as written, numbers as numerals, and no text where an escape names only half of a
surrogate pair. Whether such a part matters is for the reader of the tree to decide. -/

namespace Storyworld

/-- A JSON document. -/
inductive Json where
  | null
  | bool (b : Bool)
  | number (n : Number.Numeral)
  | string (text : Option String)
  | array (items : List Json)
  | object (members : List (Option String × Json))

namespace Json

def whole (s : String) : Json :=
  .string (some s)

def record (members : List (String × Json)) : Json :=
  .object (members.map fun (name, j) => (some name, j))

/-- A member that is written only if it has a value. -/
def optional (name : String) (toJson : α → Json) : Option α → List (String × Json)
  | none => []
  | some a => [(name, toJson a)]

/-- A list member that is written only if it is not empty. -/
def nonempty (name : String) (toJson : α → Json) : List α → List (String × Json)
  | [] => []
  | as => [(name, .array (as.map toJson))]

end Json

end Storyworld
