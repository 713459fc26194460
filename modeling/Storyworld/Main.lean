import Storyworld.Terminal.Check

/-! The command line: `play` a world at the terminal, or `check` its scripts. -/

namespace Storyworld

open Terminal

def readFile (path : String) : IO File := do
  try
    let source ← IO.FS.readFile path
    pure ⟨path, .ok source⟩
  catch e => pure ⟨path, .error (toString e)⟩

/-- Reads lines and answers them until the game is over. -/
partial def playLines (g : Game) : IO Unit := do
  if g.session.isEnded then return
  let out ← IO.getStdout
  out.putStr prompt
  out.flush
  let line ← (← IO.getStdin).getLine
  if line.isEmpty then return
  let r := g.reply line
  match g.savePath, r.saved with
  | some path, some saved => IO.FS.writeFile path saved
  | _, _ => pure ()
  out.putStr r.printed
  match r.game with
  | some next => playLines next
  | none => pure ()

def failed (reason : String) : IO UInt32 := do
  IO.eprintln ("error: " ++ reason)
  pure 1

def playCommand (o : Order) : IO UInt32 := do
  match Game.begin o with
  | .error e => failed e
  | .ok (text, g) =>
    IO.print text
    playLines g
    pure 0

def checkCommand (f : File) : IO UInt32 := do
  let r := check f
  for line in r.reports do
    IO.eprintln ("  " ++ line)
  match r.outcome with
  | .error e => failed e
  | .ok text =>
    IO.print text
    pure 0

def readOrder (o : Order) : List String → IO (Option Order)
  | [] => pure (some o)
  | "--resume" :: rest => readOrder { o with resume := true } rest
  | "-r" :: rest => readOrder { o with resume := true } rest
  | option :: path :: rest => do
    let f ← readFile path
    if option = "--config" ∨ option = "-c" then readOrder { o with config := some f } rest
    else if option = "--save" ∨ option = "-s" then readOrder { o with save := some f } rest
    else pure none
  | _ => pure none

def usage : String :=
  "usage: play FILE [--config FILE] [--save FILE] [--resume] | check FILE"

end Storyworld

open Storyworld in
def main (args : List String) : IO UInt32 := do
  match args with
  | ["check", path] => checkCommand (← readFile path)
  | "play" :: path :: rest =>
    match ← readOrder ⟨← readFile path, none, none, false⟩ rest with
    | some o => playCommand o
    | none => failed usage
  | _ => failed usage
