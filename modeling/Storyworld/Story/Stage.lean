import Storyworld.Keyed
import Storyworld.Story.Error
import Storyworld.Story.Rule

/-! Everything that a turn of a story can change: the world, and the dialogue entries at which
characters wait for an answer. A turn may fail; what it changed before it failed stays. -/

namespace Storyworld.Story

/-- The entry at which each character waits; a character without one is idle. -/
abbrev Threads := Keyed String

structure Stage where
  world : World
  threads : Threads

/-- A computation that may change the stage and may fail. -/
abbrev Turn := ExceptT StoryError (StateM Stage)

namespace Turn

def world : Turn World := do
  pure (← get).world

def ofScript (e : Except Script.ScriptError α) : Turn α :=
  ExceptT.mk (pure (e.mapError .script))

def ofChange (change : Script.Change α) : Turn α := fun stage =>
  let (result, w) := change stage.world
  (result.mapError .script, { stage with world := w })

def ofStore (call : Store α) : Turn α := fun stage =>
  let (result, w) := call stage.world
  (result.mapError .world, { stage with world := w })

def here : Turn Location := do
  match (← world).playerLocation? with
  | some l => pure l
  | none => throw .playerNotPlaced

def waiting? (character : String) : Turn (Option String) := do
  pure ((← get).threads.lookup character)

def await (character entry : String) : Turn Unit :=
  modify fun stage => { stage with threads := stage.threads.put character entry }

def release (character : String) : Turn Unit :=
  modify fun stage => { stage with threads := stage.threads.erase character }

end Turn

end Storyworld.Story
