import Storyworld.Script.Error

/-! Why an action or a saved game cannot be carried out. A player's mistake is no error: it is told
like anything else. -/

namespace Storyworld.Story

/-- A fault of the author's scripts, of the state of the world, or of a saved game. -/
inductive StoryError where
  | script (cause : Script.ScriptError)
  | world (cause : WorldError)
  | playerNotPlaced
  | notSaved
  deriving DecidableEq

def StoryError.message : StoryError → String
  | script cause => cause.message
  | world cause => cause.message
  | playerNotPlaced => "the player is not in any location"
  | notSaved => "saved game: the text does not describe a game"

end Storyworld.Story
