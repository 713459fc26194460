import Storyworld.Story.Config
import Storyworld.Story.Markup
import Storyworld.Story.Rule

/-! The texts that describe a thing as it is now, and the one that closes the story. -/

namespace Storyworld.Story

open Script

/-- The addition of the first entry whose condition holds; later entries are not looked at. -/
def addition (w : World) : List Description → Except ScriptError String
  | [] => .ok ""
  | d :: rest =>
    match authored d.condition with
    | none => addition w rest
    | some source => do
      if ← Condition.holds w source then pure (d.addition.getD "") else addition w rest

/-- The first base text, followed by the addition that applies. -/
def describe (w : World) (ds : List Description) : Except ScriptError String := do
  let extra ← addition w ds
  pure ((ds.findSome? (·.base)).getD "" ++ extra)

def isEnded (c : Config) (w : World) : Bool :=
  (w.variableNamed? c.endFlag).any (·.value.isTruthy)

/-- The text that closes the story: that of the ending which is named, or else plain words. -/
def endingText (c : Config) (w : World) : Except ScriptError String :=
  match (w.variableNamed? c.endId).bind fun v => w.ending? v.value.shown with
  | some e => describe w e.descriptions
  | none => .ok (paragraph (escape c.messages.theEnd))

end Storyworld.Story
