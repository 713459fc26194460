import Storyworld.Story.Action
import Storyworld.Story.Config
import Storyworld.Story.Output
import Storyworld.Story.Stage

/-! Talking to characters. A character says the first of its entries whose guard holds. An entry with
an id and responses then waits for an answer: talking again repeats it, without its assignments,
until it is answered or its guard fails. -/

namespace Storyworld.Story.Dialogue

open Script

def linkParam (character entry response : String) : String :=
  (Json.record [("characterId", .whole character), ("choiceId", .whole response),
    ("entryId", .whole entry)]).compact

def optionLink (character : String) (e : DialogueEntry) (r : Response) : String :=
  actionLink Verb.choose.word (linkParam character (e.id.getD "") r.id) (r.text.getD r.id)

/-- Links for the responses whose guards hold. -/
def optionLinks (w : World) (character : String) (e : DialogueEntry) :
    List Response → Except ScriptError (List String)
  | [] => .ok []
  | r :: rest => do
    let holds ← guardHolds w r.condition
    let others ← optionLinks w character e rest
    pure (if holds then optionLink character e r :: others else others)

def firstOpen? (w : World) : List DialogueEntry → Except ScriptError (Option DialogueEntry)
  | [] => .ok none
  | e :: rest => do
    if ← guardHolds w e.condition then pure (some e) else firstOpen? w rest

/-- Presents an entry; its assignments are carried out only when it is fresh. -/
def present (character : String) (e : DialogueEntry) (fresh : Bool) : Turn (List Output) := do
  let speech := (e.speech.filter (· ≠ "")).toList.map Output.append
  if fresh then Turn.ofChange (perform e.assignments)
  match e.id.filter (· ≠ "") with
  | some id => if e.responses.isEmpty then Turn.release character else Turn.await character id
  | none => Turn.release character
  let links ← Turn.ofScript (optionLinks (← Turn.world) character e e.responses)
  pure (speech ++ if links.isEmpty then [] else [Output.append (bulletList links)])

/-- The entry at which a character waits, if its guard still holds. -/
def repeatable? (c : Character) : Turn (Option DialogueEntry) := do
  match (← Turn.waiting? c.id).bind c.entry? with
  | none => pure none
  | some e =>
    if ← Turn.ofScript (guardHolds (← Turn.world) e.condition) then pure (some e) else pure none

def talk (messages : Messages) (character : String) : Turn (List Output) := do
  match (← Turn.world).character? character with
  | none => pure [.message messages.notAvailable]
  | some c =>
    match ← repeatable? c with
    | some e => present character e false
    | none =>
      Turn.release character
      match ← Turn.ofScript (firstOpen? (← Turn.world) c.onTalk) with
      | some e => present character e true
      | none => pure [.message (Messages.fill messages.cannotTalk c.name)]

/-- The response that a choice picks, among those that can be picked now, and the character whose
response it is. -/
def picked? (c : Choice) : Turn (Option (Character × Response)) := do
  match ← Turn.waiting? c.character, (← Turn.world).character? c.character with
  | some waiting, some character =>
    if c.entry.any (· ≠ waiting) then pure none
    else
      match (character.entry? waiting).bind fun e => e.responses.find? (·.id == c.response) with
      | none => pure none
      | some r =>
        if ← Turn.ofScript (guardHolds (← Turn.world) r.condition) then
          pure (some (character, r))
        else pure none
  | _, _ => pure none

/-- Goes on after a response: with the entry that it names, or not at all. -/
def follow (messages : Messages) (character : Character) (next : Option String) :
    Turn (List Output) := do
  match next with
  | none =>
    Turn.release character.id
    pure []
  | some id =>
    match character.entry? id with
    | some e => present character.id e true
    | none =>
      Turn.release character.id
      pure [.message messages.notAvailable]

/-- Picks a response. One that cannot be picked changes nothing. -/
def choose (messages : Messages) (c : Choice) : Turn (List Output) := do
  match ← picked? c with
  | none => pure [.message messages.notAvailable]
  | some (character, r) =>
    let said := r.text.toList.map fun text => Output.append (paragraph (escape text))
    Turn.ofChange (perform r.assignments)
    let after ← follow messages character r.next
    pure (said ++ after)

end Storyworld.Story.Dialogue
