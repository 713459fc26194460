import Storyworld.Script.Diagnostic
import Storyworld.Terminal.Play

/-! Checks every script of a world without playing it: whether it can be read, whether the names in
it are known, and whether the answers of a dialogue lead anywhere. A name is known if an entity has
it as its id, or some assignment creates a variable of that name. -/

namespace Storyworld.Terminal

open Script

inductive ScriptKind where
  | condition
  | assignments
  deriving DecidableEq

structure ScriptSource where
  origin : String
  kind : ScriptKind
  source : String
  deriving DecidableEq

namespace ScriptSource

/-- A script, unless it is absent or blank. -/
def found (origin : String) (kind : ScriptKind) (script : Option String) : List ScriptSource :=
  (Story.authored script).toList.map (⟨origin, kind, ·⟩)

def place (origin list : String) (i : Nat) : String :=
  origin ++ " " ++ list ++ "[" ++ toString i ++ "]"

def ofPair (origin : String) (condition assignments : Option String) : List ScriptSource :=
  found (origin ++ " condition") .condition condition ++
    found (origin ++ " set") .assignments assignments

def ofDescriptions (origin : String) (ds : List Description) : List ScriptSource :=
  (ds.mapIdx fun i d => found (place origin "descriptions" i) .condition d.condition).flatten

def ofRules (origin event : String) (rules : List Rule) : List ScriptSource :=
  (rules.mapIdx fun i r => ofPair (place origin event i) r.condition r.assignments).flatten

def ofDialogue (origin : String) (entries : List DialogueEntry) : List ScriptSource :=
  (entries.mapIdx fun i e =>
    let here := place origin "onTalk" i
    ofPair here e.condition e.assignments ++
      e.responses.flatMap fun r =>
        ofPair (here ++ " response " ++ r.id) r.condition r.assignments).flatten

def ofWorld (w : World) : List ScriptSource :=
  w.locations.flatMap (fun l => ofDescriptions ("location " ++ l.id) l.descriptions) ++
    w.items.flatMap (fun i =>
      let origin := "item " ++ i.id
      ofDescriptions origin i.descriptions ++ ofRules origin "onTake" i.onTake ++
        ofRules origin "onDrop" i.onDrop ++ ofRules origin "onUse" i.onUse ++
        ofRules origin "onSee" i.onSee) ++
    w.characters.flatMap (fun c =>
      let origin := "character " ++ c.id
      ofDescriptions origin c.descriptions ++ ofDialogue origin c.onTalk) ++
    w.endings.flatMap fun e => ofDescriptions ("ending " ++ e.id) e.descriptions

end ScriptSource

def rootOf (path : String) : String :=
  (Path.segments path).head?.getD ""

/-- The names that scripts of a world may use. -/
def knownNames (w : World) (scripts : List ScriptSource) : List String :=
  let created := scripts.flatMap fun s =>
    if s.kind = .assignments then
      match parseAssignments s.source with
      | .ok clauses => clauses.map (rootOf ·.target)
      | .error _ => []
    else []
  w.entities.map (·.id) ++ created

def unknownTest (a : Atom) : Diagnostic :=
  ⟨.warning, a.span, "`" ++ rootOf a.path ++ "` is not an entity or variable", "unknown name"⟩

/-- The known id that a name, the minus after it and the word after that spell together. -/
def hyphenated? (source : String) (path : String) (span : Span) (known : List String) :
    Option String := do
  let rest ← fromByte? span.stop source.toList
  guard (rest.head? = some '-')
  let word := rest.tail.takeWhile fun c => Text.isAlphanumeric c || c == '_' || c == '-'
  let id := path ++ "-" ++ String.ofList word
  guard (id ∈ known)
  pure id

def unknownOperand (source : String) (known : List String) (path : String) (span : Span) :
    Diagnostic :=
  match hyphenated? source path span known with
  | some id =>
    ⟨.warning, spanFrom span.start id.toList,
      "`" ++ id ++ "` reads as a subtraction; quote it to name the id", "quote this"⟩
  | none =>
    ⟨.warning, span, "`" ++ rootOf path ++ "` is not an entity or variable; it reads as 0",
      "unknown name"⟩

/-- The diagnostics of a clause. A name alone is stored as text, so it need not be known. -/
def clauseDiagnostics (source : String) (known : List String) (a : Assignment) :
    List Diagnostic :=
  if a.expression.isBareName then []
  else
    (a.expression.names.filter fun n => rootOf n.1 ∉ known).map fun (path, span) =>
      unknownOperand source known path span

def diagnostics (known : List String) (s : ScriptSource) : List Diagnostic :=
  match s.kind with
  | .condition =>
    match Condition.parse s.source with
    | .ok c => (c.atoms.filter fun a => rootOf a.path ∉ known).map unknownTest
    | .error e => [.ofError s.source e]
  | .assignments =>
    match parseAssignments s.source with
    | .ok clauses => clauses.flatMap (clauseDiagnostics s.source known)
    | .error e => [.ofError s.source e]

/-- Warnings for responses that lead to an entry their character does not have. -/
def danglingResponses (w : World) : List String :=
  w.characters.flatMap fun c => c.onTalk.flatMap fun e => e.responses.filterMap fun r =>
    match r.next with
    | none => none
    | some next =>
      if (c.entry? next).isSome then none
      else some ("character " ++ c.id ++ ": response `" ++ r.id ++ "` leads to missing entry `" ++
        next ++ "`")

def counted (n : Nat) (word : String) : String :=
  toString n ++ " " ++ word ++ (if n = 1 then "" else "s")

/-- What a check found: lines of reports, the last of which may be a summary, and the text for a
world without errors. -/
structure CheckResult where
  reports : List String
  outcome : Except String String

def passed (f : File) (w : World) (scripts : List ScriptSource) : String :=
  let title := if w.metadata.title = "" then f.path else w.metadata.title
  "  All checks passed for '" ++ title ++ "'.\n  " ++ toString scripts.length ++ " scripts in " ++
    toString w.locations.length ++ " locations, " ++ toString w.items.length ++ " items, " ++
    toString w.characters.length ++ " characters\n"

def checkWorld (f : File) (w : World) : CheckResult :=
  let scripts := ScriptSource.ofWorld w
  let known := knownNames w scripts
  let found := scripts.map fun s => (s, diagnostics known s)
  let all := found.flatMap Prod.snd
  let dangling := danglingResponses w
  let errors := all.countP (·.severity = .error)
  let warnings := all.countP (·.severity = .warning) + dangling.length
  let reports := found.flatMap (fun (s, ds) => ds.flatMap (Diagnostic.report s.origin s.source)) ++
    dangling.map ("warning: " ++ ·)
  if 0 < errors then
    ⟨reports ++ [counted errors "error" ++ ", " ++ counted warnings "warning"],
      .error ("check failed with " ++ counted errors "error")⟩
  else
    ⟨reports ++ (if 0 < warnings then [counted warnings "warning"] else []),
      .ok (passed f w scripts)⟩

def check (f : File) : CheckResult :=
  match f.world with
  | .error e => ⟨[], .error e⟩
  | .ok w => checkWorld f w

end Storyworld.Terminal
