import Storyworld.Json.Decoder
import Storyworld.Json.Reader
import Storyworld.Json.Writer
import Storyworld.Text.Replace

/-! The settings of a story: which variables end it, and the words for what an action comes to where
its author gives none. Every setting has a default, so a document may give only some. -/

namespace Storyworld.Story

open Json

/-- Words for refused and for plain actions. In each, `{name}` stands for a name. -/
structure Messages where
  cannotGo : String := "You cannot go there."
  notFound : String := "There is no {name} here."
  notHere : String := "{name} is not here."
  alreadyHeld : String := "You already have {name}."
  cannotTake : String := "You cannot take {name}."
  notHeld : String := "You are not carrying {name}."
  cannotUse : String := "You cannot use {name}."
  nothingHappens : String := "Nothing happens."
  cannotTalk : String := "{name} has nothing to say."
  notAvailable : String := "That option is not available."
  unknownCommand : String := "Unknown command: {name}."
  didYouMean : String := "Did you mean {name}?"
  taken : String := "You take {name}."
  dropped : String := "You drop {name}."
  inventory : String := "You are carrying: {name}."
  inventoryEmpty : String := "You are not carrying anything."
  theEnd : String := "The End."
  deriving DecidableEq

namespace Messages

def fill (template name : String) : String :=
  Text.replaceAll "{name}" name template

def toJson (m : Messages) : Json :=
  record [("cannotGo", whole m.cannotGo), ("notFound", whole m.notFound),
    ("notHere", whole m.notHere), ("alreadyHeld", whole m.alreadyHeld),
    ("cannotTake", whole m.cannotTake), ("notHeld", whole m.notHeld),
    ("cannotUse", whole m.cannotUse), ("nothingHappens", whole m.nothingHappens),
    ("cannotTalk", whole m.cannotTalk), ("notAvailable", whole m.notAvailable),
    ("unknownCommand", whole m.unknownCommand), ("didYouMean", whole m.didYouMean),
    ("taken", whole m.taken), ("dropped", whole m.dropped), ("inventory", whole m.inventory),
    ("inventoryEmpty", whole m.inventoryEmpty), ("theEnd", whole m.theEnd)]

def names : List String :=
  ["cannotGo", "notFound", "notHere", "alreadyHeld", "cannotTake", "notHeld", "cannotUse",
    "nothingHappens", "cannotTalk", "notAvailable", "unknownCommand", "didYouMean", "taken",
    "dropped", "inventory", "inventoryEmpty", "theEnd"]

/-- Reads messages; absent ones keep their default. -/
def decode : Decoder Messages := fun depth j => do
  let fields ← fields? names depth j
  let d : Messages := {}
  pure {
    cannotGo := ← fields.withDefault "cannotGo" d.cannotGo .text
    notFound := ← fields.withDefault "notFound" d.notFound .text
    notHere := ← fields.withDefault "notHere" d.notHere .text
    alreadyHeld := ← fields.withDefault "alreadyHeld" d.alreadyHeld .text
    cannotTake := ← fields.withDefault "cannotTake" d.cannotTake .text
    notHeld := ← fields.withDefault "notHeld" d.notHeld .text
    cannotUse := ← fields.withDefault "cannotUse" d.cannotUse .text
    nothingHappens := ← fields.withDefault "nothingHappens" d.nothingHappens .text
    cannotTalk := ← fields.withDefault "cannotTalk" d.cannotTalk .text
    notAvailable := ← fields.withDefault "notAvailable" d.notAvailable .text
    unknownCommand := ← fields.withDefault "unknownCommand" d.unknownCommand .text
    didYouMean := ← fields.withDefault "didYouMean" d.didYouMean .text
    taken := ← fields.withDefault "taken" d.taken .text
    dropped := ← fields.withDefault "dropped" d.dropped .text
    inventory := ← fields.withDefault "inventory" d.inventory .text
    inventoryEmpty := ← fields.withDefault "inventoryEmpty" d.inventoryEmpty .text
    theEnd := ← fields.withDefault "theEnd" d.theEnd .text }

end Messages

/-- The settings of a story. The story ends when the variable `endFlag` is true, with the ending that
the variable `endId` names; a section is hidden by the variable of its id and `showSuffix`. -/
structure Config where
  endFlag : String := "game_end"
  endId : String := "game_end_id"
  showSuffix : String := "-show"
  messages : Messages := {}
  deriving DecidableEq

namespace Config

def toJson (c : Config) : Json :=
  record [("endFlag", whole c.endFlag), ("endId", whole c.endId),
    ("showSuffix", whole c.showSuffix), ("messages", c.messages.toJson)]

def decode : Decoder Config := fun depth j => do
  let fields ← fields? ["endFlag", "endId", "showSuffix", "messages"] depth j
  let d : Config := {}
  pure {
    endFlag := ← fields.withDefault "endFlag" d.endFlag .text
    endId := ← fields.withDefault "endId" d.endId .text
    showSuffix := ← fields.withDefault "showSuffix" d.showSuffix .text
    messages := ← fields.withDefault "messages" d.messages Messages.decode }

def ofText? (source : String) : Option Config :=
  (parse? source).bind (decode nestingLimit)

end Config

end Storyworld.Story
