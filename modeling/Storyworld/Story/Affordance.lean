import Storyworld.Story.Error
import Storyworld.Story.Narration
import Storyworld.Story.Output

/-! What the player can do next: a section each for the place, the people, the things, and the
things to take, drop and use, and one for the exits. -/

namespace Storyworld.Story

/-- Whether the player can reach an item: it is held, or lies in sight. -/
def isReachable (i : Item) (place : String) : Bool :=
  i.isHeld || (i.visible && i.isAt place)

def isHidden (c : Config) (w : World) (s : Section) : Bool :=
  (w.variableNamed? (s.id ++ c.showSuffix)).any (!·.value.isTruthy)

def itemLinks (w : World) (action : String) (keep : Item → Bool) : String :=
  bulletList ((w.items.filter keep).map fun i => actionLink action i.id i.name)

def sectionText (w : World) (here : Location) : Section → Except Script.ScriptError String
  | .title => .ok ""
  | .location => do
    let text ← describe w here.descriptions
    pure ("<h2>" ++ escape here.name ++ "</h2>" ++ text)
  | .characters =>
    .ok (bulletList (((w.charactersAt here.id).filter (·.visible)).map fun c =>
      actionLink "talk" c.id c.name))
  | .items => .ok (itemLinks w "see" fun i => i.visible && i.isAt here.id)
  | .take => .ok (itemLinks w "take" fun i => i.visible && i.movable && i.isAt here.id)
  | .drop => .ok (itemLinks w "drop" Item.isHeld)
  | .use => .ok (itemLinks w "use" fun i => !i.onUse.isEmpty && isReachable i here.id)
  | .go => .ok (bulletList (here.connections.map fun c => actionLink "go" c.direction c.direction))

/-- A section as it is now; a hidden one is empty. -/
def sectionOutput (c : Config) (w : World) (here : Location) (s : Section) :
    Except Script.ScriptError Output :=
  if isHidden c w s then .ok (.replace s "")
  else (sectionText w here s).map (.replace s)

def affordances (c : Config) (w : World) : Except StoryError (List Output) :=
  match w.playerLocation? with
  | none => .error .playerNotPlaced
  | some here => (Section.affordances.mapM (sectionOutput c w here)).mapError .script

def noAffordances : List Output :=
  Section.affordances.map (.replace · "")

end Storyworld.Story
