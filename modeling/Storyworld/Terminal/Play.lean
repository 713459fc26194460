import Storyworld.Story.SavedGame
import Storyworld.Terminal.Screen

/-! Playing a story at a terminal. A line is a command, the number of a link, or one of the words
`save` and `quit`. What a line leads to is told as data, so that the program around it only has to
read, print and write. -/

namespace Storyworld.Terminal

open Story

/-- A file that the player named: its path, and its content or why it cannot be read. -/
structure File where
  path : String
  content : Except String String

def File.read (f : File) : Except String String :=
  f.content.mapError fun reason => "cannot read " ++ f.path ++ ": " ++ reason

def File.world (f : File) : Except String World := do
  let source ← f.read
  (World.ofText source).mapError fun e => f.path ++ ": " ++ e.message

/-- Loads the settings in a file; without a file they are the default ones. -/
def loadConfig (file : Option File) : Except String Config :=
  match file with
  | none => .ok {}
  | some f => do
    let source ← f.read
    match Config.ofText? source with
    | some c => pure c
    | none => throw (f.path ++ ": the text does not describe settings")

def File.savedGame (f : File) : Except String SavedGame := do
  let source ← f.read
  match SavedGame.ofText? source with
  | some g => pure g
  | none => throw (f.path ++ ": " ++ StoryError.notSaved.message)

/-- What the player asked for: the world, settings, where to save, and whether to go on with what was
saved there. -/
structure Order where
  world : File
  config : Option File
  save : Option File
  resume : Bool

/-- A game at the terminal, with the links of the last outputs. -/
structure Game where
  session : Session
  links : List Link
  savePath : Option String

/-- What comes of one line: text to print, a saved game to write, and the game after it unless the
player left. -/
structure Reply where
  printed : String
  saved : Option String
  game : Option Game

def opening (o : Order) : Except String (Session × Action) := do
  let config ← loadConfig o.config
  if o.resume then
    match o.save with
    | none => throw "--resume needs --save"
    | some f =>
      let g ← f.savedGame
      let s ← (Session.resume g config).mapError fun e => "failed to resume game: " ++ e.message
      pure (s, ⟨.look, .text ""⟩)
  else
    let w ← o.world.world
    pure (Session.new w config, ⟨.start, .text ""⟩)

def Game.begin (o : Order) : Except String (String × Game) := do
  let (s, first) ← opening o
  match s.handle first with
  | (.error e, _) => throw ("failed to start game: " ++ e.message)
  | (.ok outputs, s) =>
    let (text, links) := render outputs
    pure (text ++ "  Type a command or a link number; 'save' and 'quit' also work.\n\n",
      ⟨s, links, o.save.map (·.path)⟩)

def prompt : String := "> "

def numberLimit : Nat :=
  Nat.pow 2 64 - 1

/-- The number that a whole line writes; one that is too large is no number. -/
def number? (cs : List Char) : Option Nat :=
  let digits := if cs.head? = some '+' then cs.tail else cs
  if digits.isEmpty || !digits.all Char.isDigit then none
  else
    let n := Number.wholeFrom 0 digits
    if n ≤ numberLimit then some n else none

/-- Whether two texts are equal but for the case of ASCII letters. -/
def sameWord (cs : List Char) (word : String) : Bool :=
  cs.map Char.toLower == word.toList

def Game.perform (g : Game) (a : Action) : Reply :=
  match g.session.handle a with
  | (.ok outputs, s) =>
    let (text, links) := render outputs
    ⟨text, none, some { g with session := s, links := links }⟩
  | (.error e, s) => ⟨e.message ++ "\n\n", none, some { g with session := s }⟩

def Game.reply (g : Game) (line : String) : Reply :=
  let input := Text.trim line.toList
  if input.isEmpty then ⟨"", none, some g⟩
  else if sameWord input "quit" || sameWord input "q" then ⟨"", none, none⟩
  else if sameWord input "save" then
    match g.savePath with
    | some path => ⟨"  Saved to " ++ path ++ ".\n\n", some g.session.save.text, some g⟩
    | none => ⟨"No save file given (use --save).\n\n", none, some g⟩
  else
    match number? input with
    | none => g.perform (Action.ofLine (String.ofList input))
    | some n =>
      match linkAt? g.links n with
      | some l => g.perform l.perform
      | none => ⟨"There is no link [" ++ toString n ++ "].\n\n", none, some g⟩

structure Transcript where
  printed : String
  saved : Option String

/-- Plays lines until the story ends, the player leaves, or there are no more. -/
def Game.play (g : Game) : List String → Transcript
  | [] => ⟨if g.session.isEnded then "" else prompt, none⟩
  | line :: rest =>
    if g.session.isEnded then ⟨"", none⟩
    else
      let r := g.reply line
      match r.game with
      | none => ⟨prompt ++ r.printed, r.saved⟩
      | some next =>
        let later := next.play rest
        ⟨prompt ++ r.printed ++ later.printed, later.saved <|> r.saved⟩

def play (o : Order) (lines : List String) : Except String Transcript := do
  let (text, g) ← Game.begin o
  let t := g.play lines
  pure { t with printed := text ++ t.printed }

end Storyworld.Terminal
