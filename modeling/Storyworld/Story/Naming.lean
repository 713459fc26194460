import Storyworld.Text.Blank
import Storyworld.Text.Lowercase
import Storyworld.Text.Similarity

/-! Finding what a player names among ids and their display names. A thing may be named by its id or,
in any case, by its name; a near miss is never taken for a match but may be suggested. -/

namespace Storyworld.Story

abbrev Candidates := List (String × String)

namespace Candidates

/-- The id of what is named: by id if possible, else by name. -/
def resolve? (candidates : Candidates) (input : String) : Option String :=
  let input := Text.trimmed input
  match candidates.find? (·.1 == input) with
  | some (id, _) => some id
  | none =>
    let lowered := Text.lowercase input
    (candidates.find? fun c => Text.lowercase c.2 == lowered).map (·.1)

/-- The names that resemble the input by at least a threshold, best first; equally good ones stay in
order. -/
def resembling (candidates : Candidates) (input : String) (threshold : Float) :
    List (String × Float) :=
  let lowered := Text.lowercase (Text.trimmed input)
  let scored := candidates.map fun c => (c.2, Text.similarity lowered (Text.lowercase c.2))
  (scored.filter fun s => threshold ≤ s.2).mergeSort fun a b => b.2 ≤ a.2

def suggest? (candidates : Candidates) (input : String) : Option String :=
  (candidates.resembling input 0.8).head?.map (·.1)

end Candidates

end Storyworld.Story
