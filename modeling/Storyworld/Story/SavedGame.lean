import Storyworld.Story.Session
import Storyworld.World.Load

/-! Games that are put away and taken up again: a snapshot of the world and the dialogue threads.
Threads that name no entry of a character of the world are not taken up. -/

namespace Storyworld.Story

open Json

structure SavedGame where
  document : Document
  threads : Threads

namespace Threads

def toJson (threads : Threads) : Json :=
  record (threads.toList.map fun (character, entry) => (character, whole entry))

def decode : Decoder Threads
  | depth + 1, .object members => do
    let members ← named? members
    let entries ← members.mapM fun (character, j) => do pure (character, ← Decoder.text depth j)
    pure (Keyed.ofList entries)
  | _, _ => none

end Threads

namespace SavedGame

def toJson (g : SavedGame) : Json :=
  record [("document", g.document.toJson), ("threads", Threads.toJson g.threads)]

def text (g : SavedGame) : String :=
  g.toJson.pretty

def decode : Decoder SavedGame := fun depth j => do
  let fields ← fields? ["document", "threads"] depth j
  pure {
    document := ← fields.required "document" Document.decode
    threads := ← fields.withDefault "threads" .nil Threads.decode }

def ofText? (source : String) : Option SavedGame :=
  (parse? source).bind (decode nestingLimit)

end SavedGame

/-- Whether a thread names an entry of a character. -/
def isThreadOf (w : World) (thread : String × String) : Bool :=
  (w.character? thread.1).any fun c => (c.entry? thread.2).isSome

namespace Session

def save (s : Session) : SavedGame :=
  ⟨s.stage.world.snapshot, s.stage.threads⟩

def resume (g : SavedGame) (c : Config) : Except StoryError Session :=
  match World.load g.document with
  | .error cause => .error (.world cause)
  | .ok w => .ok ⟨c, ⟨w, g.threads.filter (isThreadOf w)⟩⟩

end Session

end Storyworld.Story
