import Storyworld.Text.Blank

/-! Addresses in a world: the id of an entity and the keys below it, written with colons between
them. A path of one segment names a variable. -/

namespace Storyworld

structure Path where
  root : String
  keys : List String
  deriving DecidableEq

namespace Path

def segments (s : String) : List String :=
  (Text.splitAt ':' s.toList).map fun piece => String.ofList (Text.trim piece)

/-- Reads a path; no segment may be blank. -/
def ofText? (s : String) : Option Path :=
  match segments s with
  | [] => none
  | root :: keys => if root = "" ∨ "" ∈ keys then none else some ⟨root, keys⟩

/-- Whether the path names a variable. -/
def isBare (p : Path) : Bool :=
  p.keys.isEmpty

def text (p : Path) : String :=
  ":".intercalate (p.root :: p.keys)

end Path

end Storyworld
