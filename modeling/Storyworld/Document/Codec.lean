import Storyworld.Document
import Storyworld.Json.Reader
import Storyworld.Json.Writer

/-! Documents as JSON. A record is written with its fields in order; optional and empty ones are left
out, but for a few lists that are always written. The readers take the fields in any order and give
absent ones their default. -/

namespace Storyworld

open Json

/-! ## Writing -/

def Description.toJson (d : Description) : Json :=
  record (optional "default" whole d.base ++ optional "condition" whole d.condition ++
    optional "description" whole d.addition)

def Connection.toJson (c : Connection) : Json :=
  record [("direction", whole c.direction), ("target", whole c.target)]

def Rule.toJson (r : Rule) : Json :=
  record (optional "condition" whole r.condition ++ optional "description" whole r.narration ++
    optional "set" whole r.assignments)

def Response.toJson (r : Response) : Json :=
  record ([("id", whole r.id)] ++ optional "text" whole r.text ++
    optional "condition" whole r.condition ++ optional "set" whole r.assignments ++
    optional "next" whole r.next)

def DialogueEntry.toJson (e : DialogueEntry) : Json :=
  record (optional "id" whole e.id ++ optional "condition" whole e.condition ++
    optional "description" whole e.speech ++ optional "set" whole e.assignments ++
    nonempty "responses" Response.toJson e.responses)

/-- A list of descriptions, written even if it is empty. -/
def descriptionsToJson (ds : List Description) : String × Json :=
  ("descriptions", .array (ds.map Description.toJson))

def Location.toJson (l : Location) : Json :=
  record ([("id", whole l.id), ("name", whole l.name), descriptionsToJson l.descriptions] ++
    nonempty "connections" Connection.toJson l.connections ++
    l.attributes.toJson "attributes")

def ItemDraft.toJson (i : ItemDraft) : Json :=
  record ([("id", whole i.id), ("name", whole i.name)] ++ optional "owner" whole i.owner ++
    optional "visible" Value.toJson i.visible ++ optional "movable" Value.toJson i.movable ++
    [descriptionsToJson i.descriptions] ++
    nonempty "onTake" Rule.toJson i.onTake ++ nonempty "onDrop" Rule.toJson i.onDrop ++
    nonempty "onUse" Rule.toJson i.onUse ++ nonempty "onSee" Rule.toJson i.onSee ++
    i.attributes.toJson "attributes")

def CharacterDraft.toJson (c : CharacterDraft) : Json :=
  record ([("id", whole c.id), ("name", whole c.name)] ++ optional "location" whole c.location ++
    optional "visible" Value.toJson c.visible ++
    nonempty "descriptions" Description.toJson c.descriptions ++
    nonempty "onTalk" DialogueEntry.toJson c.onTalk ++
    c.attributes.toJson "attributes")

def Ending.toJson (e : Ending) : Json :=
  record ([("id", whole e.id), descriptionsToJson e.descriptions] ++
    e.attributes.toJson "attributes")

def Variable.toJson (v : Variable) : Json :=
  record ([("id", whole v.id), ("value", v.value.toJson)] ++ v.attributes.toJson "attributes")

def Metadata.toJson (m : Metadata) : Json :=
  record ([("title", whole m.title)] ++ optional "author" whole m.author ++
    optional "version" whole m.version ++ optional "description" whole m.description ++
    optional "language" whole m.language)

def pageToJson (page : String) : Json :=
  record [("page", whole page)]

def Document.toJson (d : Document) : Json :=
  record ([("metadata", d.metadata.toJson)] ++ nonempty "intro" pageToJson d.intro ++
    [("locations", .array (d.locations.map Location.toJson)),
      ("items", .array (d.items.map ItemDraft.toJson)),
      ("characters", .array (d.characters.map CharacterDraft.toJson)),
      ("endings", .array (d.endings.map Ending.toJson)),
      ("variables", .array (d.vars.map Variable.toJson))])

def Document.text (d : Document) : String :=
  d.toJson.pretty

/-! ## Reading -/

def Description.decode : Decoder Description := fun depth j => do
  let fields ← fields? ["default", "condition", "description"] depth j
  pure {
    base := ← fields.optional "default" .text
    condition := ← fields.optional "condition" .text
    addition := ← fields.optional "description" .text }

def Connection.decode : Decoder Connection := fun depth j => do
  let fields ← fields? ["direction", "target"] depth j
  pure {
    direction := ← fields.required "direction" .text
    target := ← fields.required "target" .text }

def Rule.decode : Decoder Rule := fun depth j => do
  let fields ← fields? ["condition", "description", "set"] depth j
  pure {
    condition := ← fields.optional "condition" .text
    narration := ← fields.optional "description" .text
    assignments := ← fields.optional "set" .text }

def Response.decode : Decoder Response := fun depth j => do
  let fields ← fields? ["id", "text", "condition", "set", "next"] depth j
  pure {
    id := ← fields.required "id" .text
    text := ← fields.optional "text" .text
    condition := ← fields.optional "condition" .text
    assignments := ← fields.optional "set" .text
    next := ← fields.optional "next" .text }

def DialogueEntry.decode : Decoder DialogueEntry := fun depth j => do
  let fields ← fields? ["id", "condition", "description", "set", "responses"] depth j
  pure {
    id := ← fields.optional "id" .text
    condition := ← fields.optional "condition" .text
    speech := ← fields.optional "description" .text
    assignments := ← fields.optional "set" .text
    responses := ← fields.list "responses" Response.decode }

def Location.decode : Decoder Location := fun depth j => do
  let fields ← fields? ["id", "name", "descriptions", "connections", "attributes"] depth j
  pure {
    id := ← fields.required "id" .text
    name := ← fields.required "name" .text
    descriptions := ← fields.list "descriptions" Description.decode
    connections := ← fields.list "connections" Connection.decode
    attributes := ← fields.withDefault "attributes" .nil Attributes.decode }

def ItemDraft.decode : Decoder ItemDraft := fun depth j => do
  let fields ← fields? ["id", "name", "owner", "visible", "movable", "descriptions", "onTake",
    "onDrop", "onUse", "onSee", "attributes"] depth j
  pure {
    id := ← fields.required "id" .text
    name := ← fields.required "name" .text
    owner := ← fields.optional "owner" .text
    visible := ← fields.optional "visible" Value.decode
    movable := ← fields.optional "movable" Value.decode
    descriptions := ← fields.list "descriptions" Description.decode
    onTake := ← fields.list "onTake" Rule.decode
    onDrop := ← fields.list "onDrop" Rule.decode
    onUse := ← fields.list "onUse" Rule.decode
    onSee := ← fields.list "onSee" Rule.decode
    attributes := ← fields.withDefault "attributes" .nil Attributes.decode }

def CharacterDraft.decode : Decoder CharacterDraft := fun depth j => do
  let fields ← fields? ["id", "name", "location", "visible", "descriptions", "onTalk",
    "attributes"] depth j
  pure {
    id := ← fields.required "id" .text
    name := ← fields.required "name" .text
    location := ← fields.optional "location" .text
    visible := ← fields.optional "visible" Value.decode
    descriptions := ← fields.list "descriptions" Description.decode
    onTalk := ← fields.list "onTalk" DialogueEntry.decode
    attributes := ← fields.withDefault "attributes" .nil Attributes.decode }

def Ending.decode : Decoder Ending := fun depth j => do
  let fields ← fields? ["id", "descriptions", "attributes"] depth j
  pure {
    id := ← fields.required "id" .text
    descriptions := ← fields.list "descriptions" Description.decode
    attributes := ← fields.withDefault "attributes" .nil Attributes.decode }

def Variable.decode : Decoder Variable := fun depth j => do
  let fields ← fields? ["id", "value", "attributes"] depth j
  pure {
    id := ← fields.required "id" .text
    value := ← fields.required "value" Value.decode
    attributes := ← fields.withDefault "attributes" .nil Attributes.decode }

def Metadata.untitled : Metadata :=
  ⟨"", none, none, none, none⟩

def Metadata.decode : Decoder Metadata := fun depth j => do
  let fields ← fields? ["title", "author", "version", "description", "language"] depth j
  pure {
    title := ← fields.withDefault "title" "" .text
    author := ← fields.optional "author" .text
    version := ← fields.optional "version" .text
    description := ← fields.optional "description" .text
    language := ← fields.optional "language" .text }

def decodePage : Decoder String := fun depth j => do
  let fields ← fields? ["page"] depth j
  fields.required "page" .text

def Document.decode : Decoder Document := fun depth j => do
  let fields ← fields? ["metadata", "intro", "locations", "items", "characters", "endings",
    "variables"] depth j
  pure {
    metadata := ← fields.withDefault "metadata" .untitled Metadata.decode
    intro := ← fields.list "intro" decodePage
    locations := ← fields.list "locations" Location.decode
    items := ← fields.list "items" ItemDraft.decode
    characters := ← fields.list "characters" CharacterDraft.decode
    endings := ← fields.list "endings" Ending.decode
    vars := ← fields.list "variables" Variable.decode }

def Document.ofText? (source : String) : Option Document :=
  (Json.parse? source).bind (Document.decode nestingLimit)

end Storyworld
