import Storyworld.Script.Assignment
import Storyworld.Script.Condition

/-! How the guards and assignments of an author take effect. A blank script is as good as none: a
blank guard holds, and blank assignments do nothing. -/

namespace Storyworld.Story

open Script

/-- The script of an author, unless it is absent or blank. -/
def authored (script : Option String) : Option String :=
  script.filter (!Text.isBlankText ·)

def guardHolds (w : World) (guard : Option String) : Except ScriptError Bool :=
  match authored guard with
  | none => .ok true
  | some source => Condition.holds w source

def perform (assignments : Option String) : Change Unit :=
  match authored assignments with
  | none => pure ()
  | some source => assign source

/-- Carries out a rule whose guard holds; gives its narration, unless it has none to tell. -/
def fire (r : Rule) : Change (Option String) := do
  perform r.assignments
  pure (r.narration.filter (· ≠ ""))

/-- Carries out every rule whose guard holds when its turn comes; gives the narrations. -/
def fireAll : List Rule → Change (List String)
  | [] => pure []
  | r :: rest => do
    if ← guardHolds (← get) r.condition then
      let told ← fire r
      let others ← fireAll rest
      pure (told.toList ++ others)
    else fireAll rest

/-- Carries out the first rule whose guard holds, if there is one; gives its narration. -/
def fireFirst : List Rule → Change (Option (Option String))
  | [] => pure none
  | r :: rest => do
    if ← guardHolds (← get) r.condition then
      let told ← fire r
      pure (some told)
    else fireFirst rest

end Storyworld.Story
