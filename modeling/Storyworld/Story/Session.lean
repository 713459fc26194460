import Storyworld.Story.Affordance
import Storyworld.Story.Dialogue
import Storyworld.Story.Naming

/-! Playing a story. Each action is carried out to its end; then the sections are told as they are
now, or the ending once the story is over. From then on nothing changes any more. -/

namespace Storyworld.Story

def say (template name : String) : Output :=
  .message (Messages.fill template name)

def tell (html : String) : List Output :=
  if html = "" then [] else [.append html]

def itemCandidates (w : World) : Candidates :=
  w.items.map fun i => (i.id, i.name)

def peopleCandidates (w : World) : Candidates :=
  (w.characters.filter (·.id ≠ playerId)).map fun c => (c.id, c.name)

/-- What the player can perceive at a location. -/
def nearbyCandidates (w : World) (here : String) : Candidates :=
  (w.items.filter (isReachable · here)).map (fun i => (i.id, i.name)) ++
    ((w.charactersAt here).filter (·.visible)).map fun c => (c.id, c.name)

def namedItem? (w : World) (name : String) : Option Item :=
  ((itemCandidates w).resolve? name).bind w.item?

def suggestion (m : Messages) (candidates : Candidates) (name : String) : List Output :=
  (candidates.suggest? name).toList.map (say m.didYouMean)

def notFound (m : Messages) (w : World) (here name : String) : List Output :=
  say m.notFound (Text.trimmed name) :: suggestion m (nearbyCandidates w here) name

/-- The item of a name that the player can perceive and reach, or the answer that refuses it. -/
def perceivedItem (m : Messages) (w : World) (here name : String) : Except (List Output) Item :=
  match namedItem? w name with
  | none => .error (notFound m w here name)
  | some i =>
    if !i.visible && !i.isHeld then .error (notFound m w here name)
    else if !isReachable i here then .error [say m.notHere i.name]
    else .ok i

def perceivedCharacter (m : Messages) (w : World) (here name : String) (id : Option String) :
    Except (List Output) Character :=
  match id.bind w.character? with
  | none => .error (notFound m w here name)
  | some c =>
    if !c.visible then .error (notFound m w here name)
    else if c.location ≠ some here then .error [say m.notHere c.name]
    else .ok c

namespace Turn

def look : Turn (List Output) := do
  let here ← here
  let text ← ofScript (describe (← world) here.descriptions)
  pure (tell text)

def start : Turn (List Output) := do
  let w ← world
  let around ← look
  pure (.replace .title w.metadata.title :: w.intro.map .append ++ around)

/-- The connection that a player names by its direction, or by the id or the name of its target. -/
def exit? (w : World) (here : Location) (name : String) : Option Connection :=
  let wanted := Text.lowercase (Text.trimmed name)
  here.connections.find? fun c =>
    Text.lowercase c.direction == wanted || c.target == Text.trimmed name ||
      (w.location? c.target).any (Text.lowercase ·.name == wanted)

def go (m : Messages) (name : String) : Turn (List Output) := do
  let here ← here
  let w ← world
  match exit? w here name with
  | some c =>
    ofStore (Store.movePlayer c.target)
    look
  | none =>
    let exits := here.connections.map fun c => (c.target, c.direction)
    pure (.message m.cannotGo :: suggestion m exits name)

def countSight (id : String) : Turn Unit := do
  let counter := id ++ ":onSee:count"
  let seen ← ofStore (Store.getOrSet counter (.number 0.0))
  ofStore (Store.set counter (.number (seen.toNumber?.getD 0.0 + 1.0)))

def see (m : Messages) (name : String) : Turn (List Output) := do
  let here ← here
  let w ← world
  match (itemCandidates w ++ peopleCandidates w).resolve? name with
  | none => pure (notFound m w here.id name)
  | some id =>
    if (w.item? id).isSome then
      match perceivedItem m w here.id id with
      | .error refusal => pure refusal
      | .ok i => do
        let text ← ofScript (describe w i.descriptions)
        countSight id
        let told ← ofChange (fireAll i.onSee)
        pure (tell text ++ told.flatMap tell)
    else
      match perceivedCharacter m w here.id name (some id) with
      | .error refusal => pure refusal
      | .ok c => do
        let text ← ofScript (describe w c.descriptions)
        pure (tell text)

/-- Carries out the rules of an event; without rules, plain words are told. -/
def event (rules : List Rule) (plain : Output) : Turn (List Output) :=
  if rules.isEmpty then pure [plain]
  else do
    let told ← ofChange (fireAll rules)
    pure (told.flatMap tell)

def take (m : Messages) (name : String) : Turn (List Output) := do
  let here ← here
  let w ← world
  match (namedItem? w name).filter (·.isHeld) with
  | some i => pure [say m.alreadyHeld i.name]
  | none =>
    match perceivedItem m w here.id name with
    | .error refusal => pure refusal
    | .ok i =>
      if !i.movable then pure [say m.cannotTake i.name]
      else do
        ofStore (Store.set (i.id ++ ":owner") (.text playerId))
        event i.onTake (say m.taken i.name)

def drop (m : Messages) (name : String) : Turn (List Output) := do
  let here ← here
  let w ← world
  match (namedItem? w name).filter (·.isHeld) with
  | none => pure [say m.notHeld (Text.trimmed name)]
  | some i => do
    ofStore (Store.set (i.id ++ ":owner") (.text here.id))
    event i.onDrop (say m.dropped i.name)

def use (m : Messages) (name : String) : Turn (List Output) := do
  let here ← here
  match perceivedItem m (← world) here.id name with
  | .error refusal => pure refusal
  | .ok i =>
    if i.onUse.isEmpty then pure [say m.cannotUse i.name]
    else do
      match ← ofChange (fireFirst i.onUse) with
      | some told => pure (told.toList.flatMap tell)
      | none => pure [.message m.nothingHappens]

def talk (m : Messages) (name : String) : Turn (List Output) := do
  let here ← here
  let w ← world
  match perceivedCharacter m w here.id name ((peopleCandidates w).resolve? name) with
  | .error refusal => pure refusal
  | .ok c => Dialogue.talk m c.id

def choose (m : Messages) (p : Param) : Turn (List Output) := do
  let choice? :=
    match p with
    | .choice c => some c
    | .text s => Choice.ofText? s
  match choice? with
  | none => pure [.message m.notAvailable]
  | some c => do
    let here ← here
    if ((← world).character? c.character).any (·.location == some here.id) then
      Dialogue.choose m c
    else pure [.message m.notAvailable]

def inventory (m : Messages) : Turn (List Output) := do
  let names := ((← world).itemsAt playerId).map (·.name)
  if names.isEmpty then pure [.message m.inventoryEmpty]
  else pure [say m.inventory (", ".intercalate names)]

def perform (m : Messages) (a : Action) : Turn (List Output) :=
  match a.verb with
  | .start => start
  | .look => look
  | .go => go m a.param.words
  | .see => see m a.param.words
  | .take => take m a.param.words
  | .drop => drop m a.param.words
  | .use => use m a.param.words
  | .talk => talk m a.param.words
  | .choose => choose m a.param
  | .inventory => inventory m
  | .unknown typed => pure [say m.unknownCommand typed]

/-- The close of a turn: the sections, or the ending and no sections. -/
def conclude (c : Config) : Turn (List Output) := do
  let w ← world
  if isEnded c w then
    let text ← ofScript (endingText c w)
    pure (.append text :: noAffordances)
  else affordances c w

/-- A whole turn: an action and its close. When the story has ended nothing is carried out. -/
def handle (c : Config) (a : Action) : Turn (List Output) := do
  if isEnded c (← world) then conclude c
  else
    let told ← perform c.messages a
    let closing ← conclude c
    pure (told ++ closing)

end Turn

structure Session where
  config : Config
  stage : Stage

namespace Session

def new (w : World) (c : Config) : Session :=
  ⟨c, ⟨w, .nil⟩⟩

def isEnded (s : Session) : Bool :=
  Story.isEnded s.config s.stage.world

/-- Takes a turn; gives what it tells, or why it failed, and the story after it. -/
def handle (s : Session) (a : Action) : Except StoryError (List Output) × Session :=
  let (result, stage) := Turn.handle s.config a s.stage
  (result, { s with stage := stage })

end Session

end Storyworld.Story
